import ChangeFeed.Proofs.Json.Grammar
import ChangeFeed.Proofs.Json.RoundTrip
import ChangeFeed.Proofs.Record.Rows
import ChangeFeed.Record.Line

/-!
# Records read back from their lines

A pair whose names and operation key are texts is written as one line, and from
the line a reader of JSON gets the pair: its key record and its record, with all
their entries in order. Texts, integers and truth values are what they were, and
so is a number if it is finite, its sign included. In place of any other number
stands its word as a text.

**Results.**

* `Value.readsAs_strict`: what is read where a value was written.
* `Block.isPlain_build`: the blocks of a table whose names are texts are plain.
* `Emitted.IsPlain.exists_isWrittenAs`: a plain pair has a line and is read back from it.
-/

namespace ChangeFeed

open Number (Format)

namespace Value

/--
What is read where a value was written. A single is read as the double of its
value and sign, which it is widened to.
-/
inductive ReadsAs : Value → Json → Prop
  | text
      (s : Text) :
      ReadsAs (.text s) (.text s)
  | integer
      (n : Int) :
      ReadsAs (.integer n) (.integer n)
  | boolean
      (b : Bool) :
      ReadsAs (.boolean b) (.bool b)
  | double
      (negative : Bool)
      {m : Nat}
      {q : Int}
      (h : Format.binary64.Canonical m q) :
      ReadsAs (.double (.finite negative m q h)) (.number (.finite negative m q h))
  | single
      (negative : Bool)
      {m m' : Nat}
      {q q' : Int}
      (h : Format.binary32.Canonical m q)
      (h' : Format.binary64.Canonical m' q')
      (hvalue : (m' : Rat) * 2 ^ q' = m * 2 ^ q) :
      ReadsAs (.single (.finite negative m q h)) (.number (.finite negative m' q' h'))
  | doubleNaN :
      ReadsAs (.double .nan) (.text "NaN")
  | singleNaN :
      ReadsAs (.single .nan) (.text "NaN")
  | doubleInfinite
      (negative : Bool) :
      ReadsAs (.double (.infinite negative)) (.text ↑(if negative then "-Infinity" else "Infinity"))
  | singleInfinite
      (negative : Bool) :
      ReadsAs (.single (.infinite negative)) (.text ↑(if negative then "-Infinity" else "Infinity"))

theorem readsAs_strict (v : Value) :
    v.ReadsAs v.toJson.strict := by
  cases v with
  | text s => exact .text s
  | integer n => exact .integer n
  | boolean b => exact .boolean b
  | double x =>
      cases x with
      | nan => exact .doubleNaN
      | infinite negative => exact .doubleInfinite negative
      | finite negative m q h => exact .double negative h
  | single x =>
      cases x with
      | nan => exact .singleNaN
      | infinite negative => exact .singleInfinite negative
      | finite negative m q h =>
          obtain ⟨m', q', h', hwidened, hvalue⟩ := Number.Floating.exists_widened negative h
          rw [toJson, hwidened]
          exact .single negative h h' hvalue

@[simp] theorem depth_toJson (v : Value) :
    v.toJson.depth = 0 := by
  cases v <;> rfl

/-- The integers of columns are short enough to be read. -/
theorem readable_integer
    {low high n : Int}
    {raw : String}
    (hlow : -10 ^ 19 < low)
    (hhigh : high < 10 ^ 19)
    (h : Coercion.integer? low high raw = some n) :
    Json.Readable (.integer n) := by
  have hrange := Schema.mem_range_of_integer? h
  have hlength : (Nat.toDigits 10 n.natAbs).length ≤ 19 :=
    (Nat.length_toDigits_le_iff (by decide) (by decide)).2 (by omega)
  exact hlength.trans (by decide)

theorem readable_of_coerce
    {asText : Bool}
    {code : Int}
    {column : Json}
    {raw : Text}
    {v : Value}
    (h : coerce asText code column raw = .ok v) :
    Json.Readable v.toJson := by
  cases v with
  | text s => trivial
  | double x => trivial
  | single x => trivial
  | boolean b => trivial
  | integer n =>
      unfold coerce at h
      split at h
      · cases h
      · split at h
        · next v hread =>
            cases h
            generalize TypeClass.ofCode code = type at hread
            cases type with
            | int32 =>
                obtain ⟨n, hn, hsame⟩ := Option.map_eq_some_iff.1 hread
                cases hsame
                exact readable_integer (by decide) (by decide) hn
            | int64 =>
                obtain ⟨n, hn, hsame⟩ := Option.map_eq_some_iff.1 hread
                cases hsame
                exact readable_integer (by decide) (by decide) hn
            | text => cases hread
            | _ =>
                obtain ⟨x, -, hsame⟩ := Option.map_eq_some_iff.1 hread
                contradiction
        · contradiction

end Value

namespace Block

/-- The names of a block are texts, no two the same, and its values can be read. -/
structure IsPlain (block : Block) : Prop where
  names : ∀ field ∈ block, ∃ name, field.1 = .text name
  distinct : (block.map fun field => field.1.identity?).Nodup
  readable : ∀ field ∈ block, Json.Readable field.2.toJson

/-- What is read where a block was written, with its fields in order; null for none. -/
inductive ReadsAs : Option Block → Json → Prop
  | none :
      ReadsAs none .null
  | some
      {block : Block}
      {members : List (Text × Json)}
      (h :
        List.Forall₂
          (fun field member => field.1 = .text member.1 ∧ field.2.ReadsAs member.2)
          block members) :
      ReadsAs (some block) (.object members)

/-- A value under a name that is a text keeps a block plain. -/
theorem IsPlain.insert
    {block : Block}
    {name : Json}
    {value : Value}
    (h : block.IsPlain)
    (hname : ∃ text, name = .text text)
    (hvalue : Json.Readable value.toJson) :
    (block.insert name value).IsPlain := by
  by_cases hknown : name.identity? ∈ block.map fun field => field.1.identity?
  · obtain ⟨front, key, old, back, rfl, -, hinsert⟩ := insert_of_mem value hknown
    rw [hinsert]
    have hnames := h.names
    have hreadable := h.readable
    simp only [List.forall_mem_append, List.forall_mem_cons] at hnames hreadable
    refine ⟨?_, by simpa using h.distinct, ?_⟩
    · simpa only [List.forall_mem_append, List.forall_mem_cons] using hnames
    · simp only [List.forall_mem_append, List.forall_mem_cons]
      exact ⟨hreadable.1, hvalue, hreadable.2.2⟩
  · rw [insert_of_not_mem block name value hknown]
    refine ⟨?_, ?_, ?_⟩
    · rw [List.forall_mem_append, List.forall_mem_singleton]
      exact ⟨h.names, hname⟩
    · rw [List.map_append, List.map_singleton, List.nodup_append]
      refine ⟨h.distinct, List.nodup_singleton _, ?_⟩
      rintro id hid other hother rfl
      rw [List.mem_singleton.1 hother] at hid
      exact hknown hid
    · rw [List.forall_mem_append, List.forall_mem_singleton]
      exact ⟨h.readable, hvalue⟩

theorem isPlain_extend
    {asText : Bool}
    {block extended : Block}
    {fields : List (Column × Text)}
    (hblock : block.IsPlain)
    (hnames : ∀ field ∈ fields, ∃ name, field.1.name = .text name)
    (h : extend asText block fields = .ok extended) :
    extended.IsPlain := by
  induction fields generalizing block with
  | nil =>
      cases h
      exact hblock
  | cons field rest ih =>
      obtain ⟨column, raw⟩ := field
      have hname := hnames _ (List.mem_cons_self ..)
      simp only [extend] at h
      split at h
      · contradiction
      · next value hvalue =>
          split at h
          · contradiction
          · refine ih (hblock.insert hname (Value.readable_of_coerce hvalue)) ?_ h
            exact fun other hother => hnames other (List.mem_cons_of_mem _ hother)

/-- The blocks of a table whose names are texts are plain. -/
theorem isPlain_build
    {asText : Bool}
    {columns : List Aligned}
    {side : Side}
    {keysOnly : Bool}
    {block : Block}
    (hnames : ∀ a ∈ columns, ∃ name, a.column.name = .text name)
    (h : build asText columns side keysOnly = .ok block) :
    block.IsPlain := by
  have hempty : IsPlain [] := ⟨by simp, by simp, by simp⟩
  refine isPlain_extend hempty ?_ h
  intro field hfield
  obtain ⟨a, ha, -, -, hcolumn⟩ := mem_select_iff.1 hfield
  rw [← hcolumn]
  exact hnames a ha

/-- A block whose names are texts is written with these names. -/
theorem exists_members
    {block : Block}
    (hnames : ∀ field ∈ block, ∃ name, field.1 = .text name) :
    ∃ written,
      members block = .ok written ∧
      List.Forall₂
        (fun field member => field.1 = .text member.1 ∧ member.2 = field.2.toJson)
        block written := by
  induction block with
  | nil =>
      exact ⟨[], rfl, .nil⟩
  | cons field rest ih =>
      obtain ⟨key, value⟩ := field
      obtain ⟨name, hname⟩ := hnames _ (List.mem_cons_self ..)
      obtain ⟨others, hothers, hmatch⟩ :=
        ih fun other hother => hnames other (List.mem_cons_of_mem _ hother)
      cases hname
      refine ⟨(name, value.toJson) :: others, ?_, .cons ⟨rfl, rfl⟩ hmatch⟩
      simp only [members, Json.memberName?_text, hothers]
      rfl

end Block

namespace Json

theorem strictMembers_eq_map (members : List (Text × Json)) :
    strictMembers members = members.map fun member => (member.1, member.2.strict) := by
  induction members with
  | nil =>
      rfl
  | cons member rest ih =>
      obtain ⟨name, v⟩ := member
      simp [strictMembers, ih]

/-- A list of texts is flat. -/
theorem array_texts (names : List Text) :
    Readable (.array (names.map .text)) ∧
      depth (.array (names.map .text)) = 1 ∧
      strict (.array (names.map .text)) = .array (names.map .text) := by
  have hitems :
      ItemsReadable (names.map .text) ∧
        itemsDepth (names.map .text) = 0 ∧
        strictItems (names.map .text) = names.map .text := by
    induction names with
    | nil => exact ⟨trivial, rfl, rfl⟩
    | cons name rest ih =>
        obtain ⟨hreadable, hdepth, hstrict⟩ := ih
        refine ⟨⟨trivial, hreadable⟩, ?_, ?_⟩
        · simp [itemsDepth, depth, hdepth]
        · simp [strictItems, strict, hstrict]
  obtain ⟨hreadable, hdepth, hstrict⟩ := hitems
  exact ⟨hreadable, congrArg (· + 1) hdepth, congrArg Json.array hstrict⟩

end Json

namespace Block

/-- Fields whose names are told apart are members with different names. -/
theorem nodup_members
    {block : Block}
    {written : List (Text × Json)}
    (hdistinct : (block.map fun field => field.1.identity?).Nodup)
    (hmatch :
      List.Forall₂
        (fun field member => field.1 = .text member.1 ∧ member.2 = field.2.toJson)
        block written) :
    (written.map Prod.fst).Nodup := by
  have hnames :
      (block.map fun field => field.1.identity?) =
        written.map fun member => some (Identity.text member.1) := by
    rw [← List.forall₂_eq_eq_eq, List.forall₂_map_left_iff, List.forall₂_map_right_iff]
    refine hmatch.imp ?_
    rintro field member ⟨hname, -⟩
    rw [hname, Json.identity?_text]
  rw [hnames] at hdistinct
  refine List.Nodup.of_map (fun name => some (Identity.text name)) ?_
  rw [List.map_map]
  exact hdistinct

/-- A plain block is written as an object of its fields, and none as null. -/
theorem exists_toJson
    {block : Option Block}
    (h : ∀ found, block = some found → found.IsPlain) :
    ∃ v,
      toJson block = .ok v ∧
      Json.Readable v ∧
      v.depth ≤ 1 ∧
      ReadsAs block v.strict := by
  cases block with
  | none => exact ⟨.null, rfl, trivial, Nat.zero_le _, .none⟩
  | some block =>
      have hplain := h block rfl
      obtain ⟨written, hwritten, hmatch⟩ := exists_members hplain.names
      have hjson : toJson (some block) = .ok (.object written) := by
        simp only [toJson, hwritten]
        rfl
      have hvalue : ∀ member ∈ written, ∃ field ∈ block, member.2 = field.2.toJson := by
        intro member hmember
        obtain ⟨field, hfield, -, heq⟩ := exists_match_of_mem hmatch.flip hmember
        exact ⟨field, hfield, heq⟩
      have hnodup := nodup_members hplain.distinct hmatch
      refine ⟨.object written, hjson, ⟨hnodup, ?_⟩, ?_, ?_⟩
      · rw [Json.membersReadable_iff]
        intro member hmember
        obtain ⟨field, hfield, heq⟩ := hvalue member hmember
        rw [heq]
        exact hplain.readable field hfield
      · refine Nat.succ_le_succ ((Json.membersDepth_le_iff written 0).2 fun member hmember => ?_)
        obtain ⟨field, -, heq⟩ := hvalue member hmember
        rw [heq, Value.depth_toJson]
      · rw [Json.strict, Json.strictMembers_eq_map]
        refine .some (List.forall₂_map_right_iff.2 (hmatch.imp ?_))
        rintro field member ⟨hname, heq⟩
        refine ⟨hname, ?_⟩
        rw [heq]
        exact field.2.readsAs_strict

end Block

namespace Record

/-- The entries of a record in order, with these values for its blocks. -/
def withBlocks
    (record : Record)
    (before after : Json) : Json :=
  .object
    [("table", .text record.table), ("op_type", record.key), ("op_ts", .text record.time),
      ("current_ts", .text record.stamp), ("pos", .text record.position),
      ("primary_keys", record.keyNamesJson), ("tokens", record.tokensJson),
      ("source", record.sourceJson), ("before", before), ("after", after)]

/-- What is read where a record was written. -/
def ReadsAs
    (record : Record)
    (v : Json) : Prop :=
  ∃ before after,
    Block.ReadsAs (record.on .before) before ∧
    Block.ReadsAs (record.on .after) after ∧
    v = record.withBlocks before after

/-- The parts of a record that are not fixed are texts, and no name comes twice. -/
structure IsPlain (record : Record) : Prop where
  key : ∃ key, record.key = .text key
  keyNames : ∃ names : Option (List Text), record.keyNames = names.map (List.map Json.text)
  tokens : ∀ tokens, record.tokens = some tokens → (tokens.map Prod.fst).Nodup
  block : record.block.IsPlain

section Plain

variable {record : Record}

theorem keyNamesJson_of_texts
    (h : ∃ names : Option (List Text), record.keyNames = names.map (List.map Json.text)) :
    Json.Readable record.keyNamesJson ∧
      record.keyNamesJson.depth ≤ 1 ∧
      record.keyNamesJson.strict = record.keyNamesJson := by
  obtain ⟨names, hnames⟩ := h
  unfold keyNamesJson
  rw [hnames]
  cases names with
  | none => exact ⟨trivial, Nat.zero_le _, rfl⟩
  | some names =>
      obtain ⟨hreadable, hdepth, hstrict⟩ := Json.array_texts names
      exact ⟨hreadable, hdepth.le, hstrict⟩

theorem tokensJson_of_nodup
    (h : ∀ tokens, record.tokens = some tokens → (tokens.map Prod.fst).Nodup) :
    Json.Readable record.tokensJson ∧
      record.tokensJson.depth ≤ 1 ∧
      record.tokensJson.strict = record.tokensJson := by
  unfold tokensJson
  cases htokens : record.tokens with
  | none => exact ⟨trivial, Nat.zero_le _, rfl⟩
  | some tokens =>
      refine ⟨⟨?_, ?_⟩, ?_, ?_⟩
      · rw [List.map_map]
        exact h tokens htokens
      · rw [Json.membersReadable_iff, List.forall_mem_map]
        exact fun _ _ => trivial
      · refine Nat.succ_le_succ ((Json.membersDepth_le_iff _ 0).2 ?_)
        rw [List.forall_mem_map]
        exact fun _ _ => Nat.le_refl 0
      · simp [Json.strict, Json.strictMembers_eq_map]

/-- A plain record is written as an object of its entries. -/
theorem IsPlain.exists_toJson
    (h : record.IsPlain) :
    ∃ v,
      record.toJson = .ok v ∧
      Json.Readable v ∧
      v.depth ≤ 2 ∧
      record.ReadsAs v.strict := by
  have hside (side : Side) (found : Block) (hfound : record.on side = some found) :
      found.IsPlain := by
    unfold on at hfound
    split at hfound
    · cases hfound
      exact h.block
    · contradiction
  obtain ⟨before, hbefore, hbefore', hbeforeDepth, hbeforeReads⟩ :=
    Block.exists_toJson (hside .before)
  obtain ⟨after, hafter, hafter', hafterDepth, hafterReads⟩ := Block.exists_toJson (hside .after)
  obtain ⟨key, hkey⟩ := h.key
  obtain ⟨hnames, hnamesDepth, hnamesStrict⟩ := keyNamesJson_of_texts h.keyNames
  obtain ⟨htokens, htokensDepth, htokensStrict⟩ := tokensJson_of_nodup h.tokens
  have hzero : Json.Readable (.integer 0) := by
    change (Nat.toDigits 10 0).length ≤ Number.Integer.digitLimit
    decide
  have hsource : Json.Readable record.sourceJson :=
    ⟨by simp [source], trivial, trivial, trivial, hzero, hzero, trivial⟩
  have hjson : record.toJson = .ok (record.withBlocks before after) := by
    simp only [toJson, hbefore, hafter]
    rfl
  refine ⟨_, hjson, ⟨by simp, ?_⟩, ?_, before.strict, after.strict, hbeforeReads, hafterReads, ?_⟩
  · rw [hkey]
    exact ⟨trivial, trivial, trivial, trivial, trivial, hnames, htokens, hsource, hbefore', hafter',
      trivial⟩
  · have hsourceDepth : record.sourceJson.depth = 1 := rfl
    simp only [withBlocks, hkey, Json.depth, Json.membersDepth, hsourceDepth]
    omega
  · have hsourceStrict : record.sourceJson.strict = record.sourceJson := rfl
    simp [withBlocks, Json.strict, Json.strictMembers, hkey, hnamesStrict, htokensStrict,
      hsourceStrict]

end Plain

end Record

namespace Emitted

/-- What is read where a pair was written: its key record and its record. -/
def ReadsAs
    (pair : Emitted)
    (v : Json) : Prop :=
  ∃ key value,
    Block.ReadsAs pair.key key ∧
    pair.record.ReadsAs value ∧
    v = .object [("key", key), ("value", value)]

/-- The record and the key record are plain. -/
structure IsPlain (pair : Emitted) : Prop where
  record : pair.record.IsPlain
  key : ∀ block, pair.key = some block → block.IsPlain

/-- The line of a pair: JSON in printable ASCII characters that reads back as the pair. -/
structure IsWrittenAs
    (pair : Emitted)
    (text : String) : Prop where
  line_eq : pair.line = .ok text
  printable : Json.IsPrintable text.toList
  strict : Json.Grammar.IsValue text.toList
  decodes : ∃ v, Json.read text.toList = .ok v ∧ pair.ReadsAs v

/-- A plain pair has a line, from which it is read back. -/
theorem IsPlain.exists_isWrittenAs
    {pair : Emitted}
    (h : pair.IsPlain) :
    ∃ text, pair.IsWrittenAs text := by
  obtain ⟨key, hkey, hkey', hkeyDepth, hkeyReads⟩ := Block.exists_toJson h.key
  obtain ⟨value, hvalue, hvalue', hvalueDepth, hvalueReads⟩ := h.record.exists_toJson
  have hjson : pair.toJson = .ok (.object [("key", key), ("value", value)]) := by
    simp only [toJson, hkey, hvalue]
    rfl
  generalize htree : Json.object [("key", key), ("value", value)] = tree at hjson
  have hreadable : Json.Readable tree := by
    rw [← htree]
    exact ⟨by simp, hkey', hvalue', trivial⟩
  have hdepth : tree.depth ≤ 3 := by
    rw [← htree, Json.depth, Json.membersDepth, Json.membersDepth, Json.membersDepth]
    omega
  have hnesting : pair.record.nesting + 2 ≤ nestingLimit := by
    obtain ⟨text, htext⟩ := h.record.key
    have hnames := (Record.keyNamesJson_of_texts h.record.keyNames).2.1
    simp only [Record.nesting, htext, Json.depth, nestingLimit]
    omega
  have hline : pair.line = .ok (String.ofList tree.strict.write) := by
    simp only [line, hnesting, if_true, hjson]
    rfl
  refine ⟨_, hline, ?_, ?_, tree.strict, ?_, key.strict, value.strict, hkeyReads, hvalueReads, ?_⟩
  · rw [String.toList_ofList]
    exact Json.isPrintable_write _
  · rw [String.toList_ofList]
    exact Json.isValue_write_strict tree
  · rw [String.toList_ofList]
    exact Json.readWithin_write_strict hreadable (hdepth.trans (by decide))
  · rw [← htree]
    rfl

end Emitted
end ChangeFeed
