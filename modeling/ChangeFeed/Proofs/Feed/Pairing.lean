import ChangeFeed.Proofs.Feed.Output
import ChangeFeed.Proofs.Message.Elements
import ChangeFeed.Proofs.Record.Rows

/-!
# The columns of values

Which column a value that is written is one of. In a run every record comes of a line, and
every value in it, or in its key record, comes of one element under `columns` in that line:
it is the image of that element, on the side of the record, read by the type of that element
and put under its name.

**Results.**

* `exists_isFieldOf_build`: the fields of a block are those of elements.
* `isOfElements_format`: so are those of all records of a change.
* `exists_comesOf_of_mem_emitted`: so are those of all records of a run.
* `paired_run`: columns and images are paired element by element, in messages and in runs.
-/

namespace ChangeFeed

/-- A field has the name that an element describes, and its image read by the type it describes. -/
def IsFieldOf
    (asText : Bool)
    (side : Side)
    (element : Json)
    (field : Json × Value) : Prop :=
  ∃ members column v,
    element = .object members ∧
    Column.IsDescribed column members ∧
    Json.find? members side.name = some v ∧
    v ≠ .null ∧
    column.name.identity? = field.1.identity? ∧
    coerce asText column.code column.name v.captured = .ok field.2

/-- Each field of a record and of its key record is that of one element. -/
def Emitted.IsOfElements
    (asText : Bool)
    (elements : List Json)
    (built : Emitted) : Prop :=
  ∀ field ∈ built.record.block ++ built.key.getD [],
    ∃ element ∈ elements, IsFieldOf asText built.record.side element field

/-- A record comes of a line: its fields are those of the elements of the message in it. -/
def Emitted.ComesOf
    (asText : Bool)
    (line : List Char)
    (built : Emitted) : Prop :=
  ∃ members change table elements columns,
    Json.read line = .ok (.object members) ∧
    Table.ofMessage (.object members) = .ok table ∧
    Change.ofMessage (.object members) = .ok change ∧
    Message.IsPaired members change table elements columns ∧
    built.IsOfElements asText elements

section Record

variable {members : List (Text × Json)}
variable {change : Change}
variable {table : Table}
variable {elements : List Json}
variable {columns : List Aligned}

/-- A field of the block of a side is that of an element, which has its name and its image. -/
theorem exists_isFieldOf_build
    {asText : Bool}
    {side : Side}
    {keysOnly : Bool}
    {block : Block}
    (hpaired : Message.IsPaired members change table elements columns)
    (hbuild : Block.build asText columns side keysOnly = .ok block) :
    ∀ field ∈ block, ∃ element ∈ elements, IsFieldOf asText side element field := by
  intro field hfield
  obtain ⟨⟨column, text⟩, hselect, hname, hvalue⟩ := Block.exists_of_mem_build hbuild hfield
  obtain ⟨a, ha, -, htext, rfl⟩ := mem_select_iff.1 hselect
  have hflipped : List.Forall₂ (fun a element => a.IsOf element) columns elements :=
    hpaired.paired.flip
  obtain ⟨element, helement, fields, rfl, hdescribed, hshows⟩ := exists_match_of_mem hflipped ha
  have hcaptured := (Image.captured?_eq_some_iff _ _).1 htext
  obtain ⟨v, hv, hnull, rfl⟩ := ((hshows side).captured_iff text).1 hcaptured
  exact ⟨_, helement, fields, a.column, v, rfl, hdescribed, hv, hnull, hname, hvalue⟩

namespace Formatter

variable {settings : Settings}
variable {clock : Clock}
variable {state : Formatter}

theorem isOfElements_pair
    {stamp : Instant}
    {hasKey : Bool}
    {emission : Emission}
    {built : Emitted}
    (hpaired : Message.IsPaired members change table elements columns)
    (h : pair settings stamp change table columns hasKey emission = .ok built) :
    built.IsOfElements settings.asText elements := by
  obtain ⟨name, block, -, hblock, hrecord, hkey⟩ := pair_eq_ok h
  rw [Emitted.IsOfElements, List.forall_mem_append, hrecord]
  refine ⟨exists_isFieldOf_build hpaired hblock, ?_⟩
  cases hasKey with
  | false =>
      rw [if_neg Bool.false_ne_true] at hkey
      simp [hkey]
  | true =>
      rw [if_pos rfl] at hkey
      obtain ⟨key, hsome, hbuild⟩ := hkey
      rw [hsome]
      exact exists_isFieldOf_build hpaired hbuild

/-- The records of the change of a message are those of its elements. -/
theorem isOfElements_format
    {pairs : List Emitted}
    (hpaired : Message.IsPaired members change table elements columns)
    (h : (format settings clock state change table).result = .ok pairs) :
    ∀ built ∈ pairs, built.IsOfElements settings.asText elements := by
  obtain ⟨build, aligned, -, halign, -, hemit⟩ := format_eq_ok h
  cases hpaired.aligned.symm.trans halign
  intro built hbuilt
  have hflipped :
      List.Forall₂
        (fun built emission =>
          ∃ stamp,
            pair settings stamp change table columns build.schemas.hasKey emission = .ok built)
        pairs (Plan.ofKind change.kind settings.keyUpdates).emissions :=
    (forall₂_emitAll hemit).flip
  obtain ⟨emission, -, stamp, hpair⟩ := exists_match_of_mem hflipped hbuilt
  exact isOfElements_pair hpaired hpair

end Formatter

end Record

namespace Feed

variable {settings : Settings}
variable {clock : Clock}

/-- The pairs of a line come of it. -/
theorem comesOf_of_mem_pairsOf
    {state : Formatter}
    {line : List Char}
    {built : Emitted}
    (h : built ∈ pairsOf settings clock state line) :
    built.ComesOf settings.asText line := by
  unfold pairsOf at h
  split at h
  · next change table hmessage =>
      split at h
      · next pairs hpairs =>
          obtain ⟨members, hread, hobject⟩ := reads_of_messageOf hmessage
          obtain ⟨htable, hchange⟩ := Message.ofMessage_of_ofObject hobject
          obtain ⟨elements, columns, hpaired⟩ := Message.isPaired_ofMessage htable hchange
          exact
            ⟨members, change, table, elements, columns, hread, htable, hchange, hpaired,
              Formatter.isOfElements_format hpaired hpairs built h⟩
      · contradiction
  · contradiction

/-- The pairs that are emitted in a run come of its lines. -/
theorem exists_comesOf_of_mem_emitted
    {progress : Progress}
    {lines : List (List Char)}
    {built : Emitted}
    (h : built ∈ emitted settings clock progress lines) :
    ∃ line ∈ lines, built.ComesOf settings.asText line := by
  induction lines generalizing progress with
  | nil => contradiction
  | cons line rest ih =>
      have hfirst :
          (built ∈ if isBlankLine line then [] else pairsOf settings clock progress.state line) →
            built.ComesOf settings.asText line := by
        intro hmem
        split at hmem
        · contradiction
        · exact comesOf_of_mem_pairsOf hmem
      simp only [emitted] at h
      split at h
      · exact ⟨line, List.mem_cons_self, hfirst h⟩
      · rcases List.mem_append.1 h with hmem | hrest
        · exact ⟨line, List.mem_cons_self, hfirst hmem⟩
        · obtain ⟨other, hother, hcomes⟩ := ih hrest
          exact ⟨other, List.mem_cons_of_mem _ hother, hcomes⟩

/--
If the table and the change of a message are both taken from it, they are aligned element by
element, each column with the images of its own element. What a run writes are the lines of
the pairs emitted, and each value in these comes of one element in a line, by whose type it
was read and under whose name it stands.
-/
theorem paired_run :
    (∀ members change table,
        Table.ofMessage (.object members) = .ok table →
        Change.ofMessage (.object members) = .ok change →
        ∃ elements columns, Message.IsPaired members change table elements columns) ∧
      ∀ settings warnings clock text,
        (run settings warnings clock text).output =
            (Emitted.lines
              (emitted settings clock { state := .start settings }
                (splitLines text.toList))).1 ∧
          ∀ built ∈ emitted settings clock { state := .start settings } (splitLines text.toList),
            ∃ line ∈ splitLines text.toList, built.ComesOf settings.asText line := by
  refine ⟨fun members change table => Message.isPaired_ofMessage, ?_⟩
  intro settings warnings clock text
  exact
    ⟨output_runLines settings clock { state := .start settings } (splitLines text.toList),
      fun built => exists_comesOf_of_mem_emitted⟩

end Feed

/-- A message about an item whose number was null and whose name was not captured before. -/
def Item.numbered : List (Text × Json) :=
  [("table", .text "SHOP.ITEMS"), ("op_type", .text "U"),
    ("columns", .array
      [.object
        [("name", .text "ID"), ("type", .integer 4), ("key", .bool true), ("before", .null),
          ("after", .integer 3)],
        .object [("name", .text "SOLD"), ("type", .integer 16), ("after", .bool false)]])]

/-- The number is null before the change, and the other column absent. -/
theorem Feed.paired_run_numbered :
    ∃ table change,
      Table.ofMessage (.object Item.numbered) = .ok table ∧
      Change.ofMessage (.object Item.numbered) = .ok change ∧
      change.columns = [⟨.null, .captured "3"⟩, ⟨.absent, .captured "false"⟩] ∧
      ∃ elements columns, Message.IsPaired Item.numbered change table elements columns :=
  ⟨_, _, rfl, rfl, rfl, paired_run.1 _ _ _ rfl rfl⟩

end ChangeFeed
