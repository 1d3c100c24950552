import ChangeFeed.Proofs.Record.Fields
import Mathlib.Data.Nat.Find

/-!
# Blocks of repeated names

What a block is where columns may have the same name. A block takes the columns whose
image on its side is a captured text, of which it may take the key columns only. It is a map
from their names to their values: a name stands once, where the first column of the name that
is taken has its place, and has the value that the text of the last one is read as. If there
is a text that cannot be read, the block fails by the first one, even if its value would have
been overwritten.

**Results.**

* `takenAt_concat_iff`: what is taken of one more column.
* `IsMap.skip`, `IsMap.insert`: the block of one more column.
* `built_extend`: what taking further columns comes to.
* `buildKey_eq_build_filter`: the key block is that of the key columns alone.
* `build_isMap`: what a block of columns is.
-/

namespace ChangeFeed

/-- A column is taken with the text of its image on a side; it is a key column if only those are. -/
def Aligned.Takes
    (a : Aligned)
    (side : Side)
    (keysOnly : Bool)
    (text : Text) : Prop :=
  a.images.on side = .captured text ∧ (keysOnly = true → a.column.isKey = true)

/-- The column at a position is taken, with this text. -/
def TakenAt
    (columns : List Aligned)
    (side : Side)
    (keysOnly : Bool)
    (i : Nat)
    (a : Aligned)
    (text : Text) : Prop :=
  columns[i]? = some a ∧ a.Takes side keysOnly text

/-- A column that is taken has this name and stands at this position. -/
def NamedAt
    (columns : List Aligned)
    (side : Side)
    (keysOnly : Bool)
    (name : Json)
    (i : Nat) : Prop :=
  ∃ a text, TakenAt columns side keysOnly i a text ∧ a.column.name = name

/-- The first column of a name that is taken stands at this position. -/
def FirstNamedAt
    (columns : List Aligned)
    (side : Side)
    (keysOnly : Bool)
    (name : Json)
    (i : Nat) : Prop :=
  NamedAt columns side keysOnly name i ∧ ∀ j < i, ¬ NamedAt columns side keysOnly name j

/-- The last column of a name that is taken stands at this position. -/
def LastNamedAt
    (columns : List Aligned)
    (side : Side)
    (keysOnly : Bool)
    (name : Json)
    (i : Nat) : Prop :=
  NamedAt columns side keysOnly name i ∧ ∀ j > i, ¬ NamedAt columns side keysOnly name j

/-- The text of a column is read. -/
def Aligned.Reads
    (asText : Bool)
    (a : Aligned)
    (text : Text) : Prop :=
  ∃ value, coerce asText a.column.code a.column.name text = .ok value

/-- The names of the columns that are taken, each once, in the order of their first columns. -/
structure AreTaken
    (columns : List Aligned)
    (side : Side)
    (keysOnly : Bool)
    (names : List Json) :
    Prop where
  distinct : names.Nodup
  mem_iff : ∀ name, name ∈ names ↔ ∃ i, NamedAt columns side keysOnly name i
  ordered :
    names.Pairwise fun name other =>
      ∃ i j,
        FirstNamedAt columns side keysOnly name i ∧
        FirstNamedAt columns side keysOnly other j ∧
        i < j

/-- A block maps the names of the columns that are taken to the values of their last columns. -/
structure Block.IsMap
    (asText : Bool)
    (columns : List Aligned)
    (side : Side)
    (keysOnly : Bool)
    (block : Block) :
    Prop where
  names : AreTaken columns side keysOnly (block.map Prod.fst)
  value :
    ∀ field ∈ block, ∃ i a text,
      LastNamedAt columns side keysOnly field.1 i ∧
      TakenAt columns side keysOnly i a text ∧
      coerce asText a.column.code a.column.name text = .ok field.2

section Concat

variable {before : List Aligned}
variable {a b : Aligned}
variable {side : Side}
variable {keysOnly : Bool}
variable {name : Json}
variable {text : Text}
variable {i : Nat}

theorem TakenAt.lt_length
    {columns : List Aligned}
    (h : TakenAt columns side keysOnly i a text) :
    i < columns.length :=
  (List.getElem?_eq_some_iff.1 h.1).1

theorem NamedAt.lt_length
    {columns : List Aligned}
    (h : NamedAt columns side keysOnly name i) :
    i < columns.length := by
  obtain ⟨a, text, htaken, -⟩ := h
  exact htaken.lt_length

/-- Further columns change nothing at the positions before them. -/
theorem takenAt_append_iff
    (after : List Aligned)
    (hi : i < before.length) :
    TakenAt (before ++ after) side keysOnly i a text ↔
      TakenAt before side keysOnly i a text := by
  rw [TakenAt, TakenAt, List.getElem?_append_left hi]

/-- Of one more column, what was taken before is taken, and the column if it is. -/
theorem takenAt_concat_iff :
    TakenAt (before ++ [a]) side keysOnly i b text ↔
      TakenAt before side keysOnly i b text ∨
        i = before.length ∧ a = b ∧ b.Takes side keysOnly text := by
  unfold TakenAt
  rcases Nat.lt_trichotomy i before.length with hlt | rfl | hgt
  · simp [List.getElem?_append_left hlt, Nat.ne_of_lt hlt]
  · simp
  · have hlength : (before ++ [a]).length ≤ i := by
      rw [List.length_append, List.length_singleton]
      exact hgt
    simp [List.getElem?_eq_none hlength, List.getElem?_eq_none hgt.le, Nat.ne_of_gt hgt]

theorem namedAt_concat_iff :
    NamedAt (before ++ [a]) side keysOnly name i ↔
      NamedAt before side keysOnly name i ∨
        i = before.length ∧ (∃ text, a.Takes side keysOnly text) ∧ a.column.name = name := by
  unfold NamedAt
  simp only [takenAt_concat_iff]
  constructor
  · rintro ⟨b, text, htaken | ⟨hi, rfl, htakes⟩, hname⟩
    · exact Or.inl ⟨b, text, htaken, hname⟩
    · exact Or.inr ⟨hi, ⟨text, htakes⟩, hname⟩
  · rintro (⟨b, text, htaken, hname⟩ | ⟨hi, ⟨text, htakes⟩, hname⟩)
    · exact ⟨b, text, Or.inl htaken, hname⟩
    · exact ⟨a, text, Or.inr ⟨hi, rfl, htakes⟩, hname⟩

/-- The first column of a name stays the first one. -/
theorem FirstNamedAt.concat
    (h : FirstNamedAt before side keysOnly name i) :
    FirstNamedAt (before ++ [a]) side keysOnly name i := by
  refine ⟨namedAt_concat_iff.2 (Or.inl h.1), fun j hj hnamed => ?_⟩
  rcases namedAt_concat_iff.1 hnamed with hbefore | ⟨rfl, -⟩
  · exact h.2 j hj hbefore
  · exact absurd h.1.lt_length (Nat.lt_asymm hj)

/-- The last column of a name stays the last one, unless one more of the name is taken. -/
theorem LastNamedAt.concat
    (h : LastNamedAt before side keysOnly name i)
    (hother : ∀ text, a.Takes side keysOnly text → a.column.name ≠ name) :
    LastNamedAt (before ++ [a]) side keysOnly name i := by
  refine ⟨namedAt_concat_iff.2 (Or.inl h.1), fun j hj hnamed => ?_⟩
  rcases namedAt_concat_iff.1 hnamed with hbefore | ⟨rfl, ⟨text, htakes⟩, hname⟩
  · exact h.2 j hj hbefore
  · exact hother text htakes hname

/-- A column that is taken is the last one of its name. -/
theorem lastNamedAt_concat
    (htakes : a.Takes side keysOnly text) :
    LastNamedAt (before ++ [a]) side keysOnly a.column.name before.length := by
  refine ⟨namedAt_concat_iff.2 (Or.inr ⟨rfl, ⟨text, htakes⟩, rfl⟩), fun j hj hnamed => ?_⟩
  have hlength := hnamed.lt_length
  rw [List.length_append, List.length_singleton] at hlength
  omega

end Concat

section Map

variable {asText : Bool}
variable {before after columns : List Aligned}
variable {a : Aligned}
variable {side : Side}
variable {keysOnly : Bool}
variable {names : List Json}
variable {block : Block}
variable {text : Text}
variable {value : Value}

/-- A column that is not taken, or one of a known name, leaves the names as they are. -/
theorem AreTaken.keep
    (h : AreTaken before side keysOnly names)
    (hknown : ∀ text, a.Takes side keysOnly text → a.column.name ∈ names) :
    AreTaken (before ++ [a]) side keysOnly names := by
  refine ⟨h.distinct, fun name => ?_, h.ordered.imp ?_⟩
  · rw [h.mem_iff]
    constructor
    · rintro ⟨i, hnamed⟩
      exact ⟨i, namedAt_concat_iff.2 (Or.inl hnamed)⟩
    · rintro ⟨i, hnamed⟩
      rcases namedAt_concat_iff.1 hnamed with hbefore | ⟨-, ⟨text, htakes⟩, rfl⟩
      · exact ⟨i, hbefore⟩
      · exact (h.mem_iff _).1 (hknown text htakes)
  · rintro name other ⟨i, j, hi, hj, hlt⟩
    exact ⟨i, j, hi.concat, hj.concat, hlt⟩

/-- A new name comes after those there are. -/
theorem AreTaken.concat
    (h : AreTaken before side keysOnly names)
    (htakes : a.Takes side keysOnly text)
    (hnew : a.column.name ∉ names) :
    AreTaken (before ++ [a]) side keysOnly (names ++ [a.column.name]) := by
  have hnamed : NamedAt (before ++ [a]) side keysOnly a.column.name before.length :=
    namedAt_concat_iff.2 (Or.inr ⟨rfl, ⟨text, htakes⟩, rfl⟩)
  refine ⟨?_, fun name => ?_, ?_⟩
  · exact List.nodup_append.2 ⟨h.distinct, List.nodup_singleton _, by
      rintro name hname other hother rfl
      rw [List.mem_singleton.1 hother] at hname
      exact hnew hname⟩
  · rw [List.mem_append, List.mem_singleton, h.mem_iff]
    constructor
    · rintro (⟨i, hbefore⟩ | rfl)
      · exact ⟨i, namedAt_concat_iff.2 (Or.inl hbefore)⟩
      · exact ⟨before.length, hnamed⟩
    · rintro ⟨i, hi⟩
      rcases namedAt_concat_iff.1 hi with hbefore | ⟨-, -, rfl⟩
      · exact Or.inl ⟨i, hbefore⟩
      · exact Or.inr rfl
  · refine List.pairwise_append.2 ⟨h.ordered.imp ?_, List.pairwise_singleton _ _, ?_⟩
    · rintro name other ⟨i, j, hi, hj, hlt⟩
      exact ⟨i, j, hi.concat, hj.concat, hlt⟩
    · -- A name that was there has its first column before the new one.
      intro name hname other hother
      rw [List.mem_singleton.1 hother]
      obtain ⟨i, hi⟩ := (h.mem_iff name).1 hname
      classical
      have hfirst : FirstNamedAt before side keysOnly name (Nat.find ⟨i, hi⟩) :=
        ⟨Nat.find_spec ⟨i, hi⟩, fun j hj => Nat.find_min ⟨i, hi⟩ hj⟩
      refine ⟨_, before.length, hfirst.concat, ⟨hnamed, fun j hj hearlier => ?_⟩,
        hfirst.1.lt_length⟩
      rcases namedAt_concat_iff.1 hearlier with hbefore | ⟨rfl, -⟩
      · exact hnew ((h.mem_iff _).2 ⟨j, hbefore⟩)
      · exact absurd hj (Nat.lt_irrefl _)

/-- The value under another name is that of the same column as before. -/
theorem Block.IsMap.value_concat
    {field : Json × Value}
    (h : Block.IsMap asText before side keysOnly block)
    (hfield : field ∈ block)
    (hother : ∀ text, a.Takes side keysOnly text → a.column.name ≠ field.1) :
    ∃ i b text,
      LastNamedAt (before ++ [a]) side keysOnly field.1 i ∧
      TakenAt (before ++ [a]) side keysOnly i b text ∧
      coerce asText b.column.code b.column.name text = .ok field.2 := by
  obtain ⟨i, b, text, hlast, htaken, hvalue⟩ := h.value field hfield
  exact ⟨i, b, text, hlast.concat hother, takenAt_concat_iff.2 (Or.inl htaken), hvalue⟩

/-- A column that is not taken leaves the block as it is. -/
theorem Block.IsMap.skip
    (h : Block.IsMap asText before side keysOnly block)
    (hskip : ∀ text, ¬ a.Takes side keysOnly text) :
    Block.IsMap asText (before ++ [a]) side keysOnly block where
  names := h.names.keep fun text htakes => absurd htakes (hskip text)
  value := fun _ hfield => h.value_concat hfield fun text htakes => absurd htakes (hskip text)

/-- The value of a column that is taken is put under its name. -/
theorem Block.IsMap.insert
    (h : Block.IsMap asText before side keysOnly block)
    (htakes : a.Takes side keysOnly text)
    (hname : ∃ name, a.column.name = .text name)
    (hvalue : coerce asText a.column.code a.column.name text = .ok value) :
    Block.IsMap asText (before ++ [a]) side keysOnly (block.insert a.column.name value) := by
  have htaken : TakenAt (before ++ [a]) side keysOnly before.length a text :=
    takenAt_concat_iff.2 (Or.inr ⟨rfl, rfl, htakes⟩)
  by_cases hknown : a.column.name.identity? ∈ block.map fun field => field.1.identity?
  · -- The field of a known name is replaced, and there is no other of that name.
    obtain ⟨front, key, old, back, rfl, hkey, hinsert⟩ := Block.insert_of_mem value hknown
    obtain ⟨name, hname⟩ := hname
    rw [hname, Json.identity?_text, Json.identity?_eq_text_iff, ← hname] at hkey
    subst hkey
    have hdistinct := h.names.distinct
    rw [List.map_append, List.map_cons, List.nodup_append, List.nodup_cons] at hdistinct
    obtain ⟨-, ⟨hback, -⟩, hfront⟩ := hdistinct
    rw [hinsert]
    refine ⟨?_, ?_⟩
    · have hkeep := h.names.keep (a := a) fun _ _ => by simp
      simpa using hkeep
    · simp only [List.forall_mem_append, List.forall_mem_cons]
      refine ⟨fun field hfield => h.value_concat (by simp [hfield]) fun _ _ heq => ?_,
        ⟨_, a, text, lastNamedAt_concat htakes, htaken, hvalue⟩,
        fun field hfield => h.value_concat (by simp [hfield]) fun _ _ heq => ?_⟩
      · exact hfront _ (List.mem_map_of_mem hfield) _ List.mem_cons_self heq.symm
      · exact hback (List.mem_map.2 ⟨field, hfield, heq.symm⟩)
  · have hnew : a.column.name ∉ block.map Prod.fst := by
      intro hmem
      obtain ⟨field, hfield, heq⟩ := List.mem_map.1 hmem
      exact hknown (List.mem_map.2 ⟨field, hfield, congrArg Json.identity? heq⟩)
    rw [Block.insert_of_not_mem block a.column.name value hknown]
    refine ⟨?_, ?_⟩
    · rw [List.map_append, List.map_singleton]
      exact h.names.concat htakes hnew
    · rw [List.forall_mem_append, List.forall_mem_singleton]
      refine ⟨fun field hfield => h.value_concat hfield fun _ _ heq => ?_,
        _, a, text, lastNamedAt_concat htakes, htaken, hvalue⟩
      exact hnew (List.mem_map.2 ⟨field, hfield, heq.symm⟩)

/-- What is taken of no columns. -/
theorem Block.isMap_nil :
    Block.IsMap asText [] side keysOnly [] := by
  refine ⟨⟨List.nodup_nil, fun name => ?_, .nil⟩, by simp⟩
  simp [NamedAt, TakenAt]

end Map

/-- What the block of columns can come to: the map, or the first text that cannot be read. -/
inductive Block.Built
    (asText : Bool)
    (columns : List Aligned)
    (side : Side)
    (keysOnly : Bool) :
    Except Failure Block → Prop
  | map
      {block : Block}
      (hmap : Block.IsMap asText columns side keysOnly block)
      (hreads : ∀ i a text, TakenAt columns side keysOnly i a text → a.Reads asText text) :
      Built asText columns side keysOnly (.ok block)
  | unread
      {i : Nat}
      {a : Aligned}
      {text : Text}
      (htaken : TakenAt columns side keysOnly i a text)
      (hunread : ¬ a.Reads asText text)
      (hearlier :
        ∀ j < i, ∀ b other, TakenAt columns side keysOnly j b other → b.Reads asText other) :
      Built asText columns side keysOnly
        (.error (.coercion ⟨text, a.column.code, a.column.name⟩))

section Run

variable {asText : Bool}
variable {before after : List Aligned}
variable {a : Aligned}
variable {side : Side}
variable {keysOnly : Bool}
variable {block : Block}
variable {text : Text}

/-- A text that cannot be read is reported with its column. -/
theorem eq_of_coerce_eq_error
    {code : Int}
    {column : Json}
    {raw : Text}
    {cause : Coercion.Failure}
    (h : coerce asText code column raw = .error cause) :
    cause = ⟨raw, code, column⟩ := by
  unfold coerce at h
  split at h
  · contradiction
  · split at h
    · contradiction
    · exact (Except.error.inj h).symm

/-- A column that is taken is selected with its text, any other is passed over. -/
theorem select_cons_cases
    (a : Aligned)
    (after : List Aligned)
    (side : Side)
    (keysOnly : Bool) :
    (∃ text,
        a.Takes side keysOnly text ∧
        select (a :: after) side keysOnly = (a.column, text) :: select after side keysOnly) ∨
      (∀ text, ¬ a.Takes side keysOnly text) ∧
        select (a :: after) side keysOnly = select after side keysOnly := by
  rw [select_cons]
  unfold Aligned.Takes
  cases hkey : !keysOnly || a.column.isKey with
  | false =>
      have hnot : ¬ (keysOnly = true → a.column.isKey = true) := by
        cases keysOnly <;> simp_all
      exact Or.inr ⟨fun text htakes => hnot htakes.2, by simp⟩
  | true =>
      have hright : keysOnly = true → a.column.isKey = true := by
        rintro rfl
        simpa using hkey
      cases himage : a.images.on side with
      | captured text => exact Or.inl ⟨text, ⟨rfl, hright⟩, by simp [Image.captured?]⟩
      | absent => exact Or.inr ⟨by simp, by simp [Image.captured?]⟩
      | null => exact Or.inr ⟨by simp, by simp [Image.captured?]⟩

/-- The block of columns before, extended by those after, is what the block of all comes to. -/
theorem Block.built_extend
    (hnames : ∀ a ∈ after, ∃ name, a.column.name = .text name)
    (hmap : Block.IsMap asText before side keysOnly block)
    (hreads : ∀ i a text, TakenAt before side keysOnly i a text → a.Reads asText text) :
    Block.Built asText (before ++ after) side keysOnly
      (extend asText block (select after side keysOnly)) := by
  -- Column by column: the block so far is the map of the columns so far, all of them read.
  induction after generalizing before block with
  | nil =>
      rw [List.append_nil]
      exact .map hmap hreads
  | cons a after ih =>
      rw [List.forall_mem_cons] at hnames
      obtain ⟨⟨name, hname⟩, hnames⟩ := hnames
      rw [List.append_cons]
      rcases select_cons_cases a after side keysOnly with
        ⟨text, htakes, hselect⟩ | ⟨hskip, hselect⟩
      · rw [hselect, extend]
        split
        · next cause hcoerce =>
            obtain rfl := eq_of_coerce_eq_error hcoerce
            refine .unread (i := before.length) ⟨by simp, htakes⟩ ?_ fun j hj b other htaken => ?_
            · rintro ⟨value, hvalue⟩
              rw [hvalue] at hcoerce
              contradiction
            · rw [List.append_assoc, takenAt_append_iff _ hj] at htaken
              exact hreads j b other htaken
        · next value hvalue =>
            have hread (i : Nat) (b : Aligned) (other : Text)
                (htaken : TakenAt (before ++ [a]) side keysOnly i b other) :
                b.Reads asText other := by
              rcases takenAt_concat_iff.1 htaken with hbefore | ⟨-, rfl, hother⟩
              · exact hreads i b other hbefore
              · cases htakes.1.symm.trans hother.1
                exact ⟨value, hvalue⟩
            have hinserted := hmap.insert htakes ⟨name, hname⟩ hvalue
            rw [hname, Json.identity?_text]
            rw [hname] at hinserted
            exact ih hnames hinserted hread
      · rw [hselect]
        refine ih hnames (hmap.skip hskip) fun i b other htaken => ?_
        rcases takenAt_concat_iff.1 htaken with hbefore | ⟨-, rfl, hother⟩
        · exact hreads i b other hbefore
        · exact absurd hother (hskip other)

end Run

section Build

variable {asText : Bool}
variable {columns : List Aligned}
variable {side : Side}
variable {keysOnly : Bool}

/-- Among key columns alone it makes no difference if only key columns are taken. -/
theorem select_filter_isKey
    (columns : List Aligned)
    (side : Side)
    (keysOnly : Bool) :
    select (columns.filter fun a => a.column.isKey) side keysOnly = select columns side true := by
  unfold select
  rw [List.filter_filter]
  cases keysOnly <;> simp

/-- The key block is that of the key columns alone, if there are some. -/
theorem Block.buildKey_eq_build_filter
    (hkey : ∃ a ∈ columns, a.column.isKey = true)
    (keysOnly : Bool) :
    buildKey asText columns side =
      (build asText (columns.filter fun a => a.column.isKey) side keysOnly).map some := by
  have hany : (columns.any fun a => a.column.isKey) = true := List.any_eq_true.2 hkey
  rw [buildKey, if_pos hany, build, build, select_filter_isKey]

theorem Block.buildKey_eq_none_iff :
    buildKey asText columns side = .ok none ↔ ∀ a ∈ columns, a.column.isKey = false := by
  constructor
  · intro h a ha
    by_contra hkey
    rw [buildKey_eq_build_filter ⟨a, ha, by simpa using hkey⟩ true] at h
    cases hbuild : build asText (columns.filter fun a => a.column.isKey) side true with
    | error failure => simp [hbuild, Except.map] at h
    | ok block => simp [hbuild, Except.map] at h
  · intro h
    have hnone : ¬ (columns.any fun a => a.column.isKey) = true := by
      simpa using h
    rw [buildKey, if_neg hnone]

theorem Block.built_build
    (hnames : ∀ a ∈ columns, ∃ name, a.column.name = .text name) :
    Block.Built asText columns side keysOnly (build asText columns side keysOnly) :=
  Block.built_extend hnames Block.isMap_nil (by simp [TakenAt])

/--
If all texts that are taken are read, the block maps the names of their columns, in the
order of the first ones, to the values of the last ones; else it fails by the first text
that is not read. There is no key block if there are no key columns, and else it is the
block of the key columns alone.
-/
theorem Block.build_isMap
    (asText : Bool)
    (side : Side)
    (keysOnly : Bool)
    (hnames : ∀ a ∈ columns, ∃ name, a.column.name = .text name) :
    ((∀ i a text, TakenAt columns side keysOnly i a text → a.Reads asText text) →
        ∃ block,
          build asText columns side keysOnly = .ok block ∧
          IsMap asText columns side keysOnly block) ∧
      ((∃ i a text, TakenAt columns side keysOnly i a text ∧ ¬ a.Reads asText text) →
        ∃ i a text,
          TakenAt columns side keysOnly i a text ∧
          ¬ a.Reads asText text ∧
          (∀ j < i, ∀ b other,
            TakenAt columns side keysOnly j b other → b.Reads asText other) ∧
          build asText columns side keysOnly =
            .error (.coercion ⟨text, a.column.code, a.column.name⟩)) ∧
      (buildKey asText columns side = .ok none ↔ ∀ a ∈ columns, a.column.isKey = false) ∧
      ((∃ a ∈ columns, a.column.isKey = true) →
        ∀ keysOnly,
          buildKey asText columns side =
            (build asText (columns.filter fun a => a.column.isKey) side keysOnly).map some) := by
  refine ⟨?_, ?_, buildKey_eq_none_iff, buildKey_eq_build_filter⟩
  all_goals
    have hbuilt := @built_build asText columns side keysOnly hnames
    generalize build asText columns side keysOnly = result at hbuilt ⊢
  · intro hreads
    cases hbuilt with
    | map hmap => exact ⟨_, rfl, hmap⟩
    | unread htaken hunread => exact absurd (hreads _ _ _ htaken) hunread
  · rintro ⟨i, a, text, htaken, hunread⟩
    cases hbuilt with
    | map _ hreads => exact absurd (hreads i a text htaken) hunread
    | unread htaken hunread hearlier => exact ⟨_, _, _, htaken, hunread, hearlier, rfl⟩

end Build

/-- An item with two numbers and two names, of which the last name is null. -/
def Item.doubled (first second : Text) : List Aligned :=
  [⟨⟨.text "ID", 4, true⟩, ⟨.absent, .captured first⟩⟩,
    ⟨⟨.text "NAME", 12, false⟩, ⟨.absent, .captured "lamp"⟩⟩,
    ⟨⟨.text "ID", 4, true⟩, ⟨.absent, .captured second⟩⟩,
    ⟨⟨.text "NAME", 12, false⟩, ⟨.absent, .null⟩⟩]

/-- The second number takes the place of the first one, which has to be read even so. -/
theorem Block.build_isMap_doubled :
    (build false (Item.doubled "1" "2") .after false =
        .ok [(.text "ID", .integer 2), (.text "NAME", .text "lamp")] ∧
      IsMap false (Item.doubled "1" "2") .after false
        [(.text "ID", .integer 2), (.text "NAME", .text "lamp")]) ∧
      ∃ i a text,
        TakenAt (Item.doubled "x" "2") .after false i a text ∧
        build false (Item.doubled "x" "2") .after false =
          .error (.coercion ⟨text, a.column.code, a.column.name⟩) := by
  have hnames (first second : Text) :
      ∀ a ∈ Item.doubled first second, ∃ name, a.column.name = .text name := by
    simp [Item.doubled]
  have hreads (i : Nat) (a : Aligned) (text : Text)
      (htaken : TakenAt (Item.doubled "1" "2") .after false i a text) :
      a.Reads false text := by
    obtain ⟨hi, hcaptured, -⟩ := htaken
    have hmem := List.mem_of_getElem? hi
    simp only [Item.doubled, List.mem_cons, List.not_mem_nil, or_false] at hmem
    rcases hmem with rfl | rfl | rfl | rfl <;> cases hcaptured <;> exact ⟨_, rfl⟩
  have hunread :
      ∃ i a text,
        TakenAt (Item.doubled "x" "2") .after false i a text ∧ ¬ a.Reads false text := by
    refine ⟨0, _, "x", ⟨rfl, rfl, by simp⟩, ?_⟩
    rintro ⟨value, hvalue⟩
    contradiction
  refine ⟨?_, ?_⟩
  · obtain ⟨block, hbuild, hmap⟩ := (build_isMap false .after false (hnames "1" "2")).1 hreads
    cases hbuild
    exact ⟨rfl, hmap⟩
  · obtain ⟨i, a, text, htaken, -, -, hbuild⟩ :=
      (build_isMap false .after false (hnames "x" "2")).2.1 hunread
    exact ⟨i, a, text, htaken, hbuild⟩

end ChangeFeed
