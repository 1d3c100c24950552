import ChangeFeed.Record.Block
import Mathlib.Data.List.Forall2
import Mathlib.Data.List.Nodup
import Mathlib.Data.Set.List

/-!
# The fields of a side

A block is built of the captured texts that one side of a change has, in the
order of the table. A text gets no place in a block if it cannot be read by the
type of its column, or else if the name of its column has no identity; the first
such text fails the block.

Where the names of a table are distinct texts, the block of a side is described
by positions: it has one field for each column with a captured text on the side,
under the name of the column and with the value of the column's own text.

**Results.**

* `build_eq_error_iff`: a block fails as its first text without a place does.
* `forall₂_build`: the block of a table with distinct names has a field for each of its texts.
* `isSide_build`: the block of a table with distinct names is its side.
-/

namespace ChangeFeed

namespace Table

/-- The columns of a table have texts for names, no two the same. -/
def NamesDistinct (table : Table) : Prop :=
  ∃ names : List Text,
    table.columns.map Column.name = names.map Json.text ∧
    names.Nodup

/-- The columns of a table have texts for names. -/
def NamesAreTexts (table : Table) : Prop :=
  ∀ column ∈ table.columns, ∃ name, column.name = .text name

/-- The columns of a table have whole texts for names. -/
def NamesAreWhole (table : Table) : Prop :=
  ∀ column ∈ table.columns, ∃ name : String, column.name = .text name

end Table

namespace Block

section Place

variable (asText : Bool)

/-- Why a captured text gets no place in a block, if it gets none. -/
def failure? (field : Column × Text) : Option Failure :=
  match coerce asText field.1.code field.1.name field.2 with
  | .error failure => some (.coercion failure)
  | .ok _ =>
      match field.1.name.identity? with
      | none => some (.fault (.unhashable field.1.name.kind))
      | some _ => none

/-- A captured text has a place: it can be read, and the name of its column has an identity. -/
def Placed (field : Column × Text) : Prop :=
  (∃ value, coerce asText field.1.code field.1.name field.2 = .ok value) ∧
    ∃ id, field.1.name.identity? = some id

/-- The first text without a place can be read; it is the name of its column that fails it. -/
def NameFault (fields : List (Column × Text)) : Prop :=
  ∃ placed field rest,
    fields = placed ++ field :: rest ∧
    (∀ earlier ∈ placed, Placed asText earlier) ∧
    (∃ value, coerce asText field.1.code field.1.name field.2 = .ok value) ∧
    field.1.name.identity? = none

theorem failure?_eq_coercion_iff
    (field : Column × Text)
    (failure : Coercion.Failure) :
    failure? asText field = some (.coercion failure)
      ↔
    coerce asText field.1.code field.1.name field.2 = .error failure := by
  unfold failure?
  cases coerce asText field.1.code field.1.name field.2 with
  | error other => simp
  | ok value => cases field.1.name.identity? <;> simp

theorem failure?_eq_fault_iff
    (field : Column × Text)
    (fault : Fault) :
    failure? asText field = some (.fault fault)
      ↔
    (∃ value, coerce asText field.1.code field.1.name field.2 = .ok value)
      ∧
    field.1.name.identity? = none
      ∧
    fault = .unhashable field.1.name.kind := by
  unfold failure?
  cases coerce asText field.1.code field.1.name field.2 with
  | error other => simp
  | ok value =>
      cases field.1.name.identity? with
      | none => simp [eq_comm]
      | some id => simp

theorem failure?_eq_none_iff
    (field : Column × Text) :
    failure? asText field = none ↔ Placed asText field := by
  unfold failure? Placed
  cases coerce asText field.1.code field.1.name field.2 with
  | error other => simp
  | ok value => cases field.1.name.identity? <;> simp

/-- A failing text fails by its reading or by the name of its column, and in no other way. -/
theorem failure?_cases
    {field : Column × Text}
    {failure : Failure}
    (h : failure? asText field = some failure) :
    (∃ cause, failure = .coercion cause) ∨ failure = .fault (.unhashable field.1.name.kind) := by
  unfold failure? at h
  split at h
  · exact Or.inl ⟨_, (Option.some.inj h).symm⟩
  · split at h
    · exact Or.inr (Option.some.inj h).symm
    · contradiction

theorem findSome?_eq_none_iff
    (fields : List (Column × Text)) :
    fields.findSome? (failure? asText) = none
      ↔
    ∀ field ∈ fields, Placed asText field := by
  simp only [List.findSome?_eq_none_iff, failure?_eq_none_iff]

theorem exists_findSome?_fault_iff
    (fields : List (Column × Text)) :
    (∃ fault, fields.findSome? (failure? asText) = some (.fault fault))
      ↔
    NameFault asText fields := by
  constructor
  · rintro ⟨fault, h⟩
    obtain ⟨placed, field, rest, hfields, hfield, hplaced⟩ := List.findSome?_eq_some_iff.1 h
    obtain ⟨hread, hname, -⟩ := (failure?_eq_fault_iff asText field fault).1 hfield
    refine ⟨placed, field, rest, hfields, ?_, hread, hname⟩
    intro earlier hearlier
    exact (failure?_eq_none_iff asText earlier).1 (hplaced earlier hearlier)
  · rintro ⟨placed, field, rest, hfields, hplaced, hread, hname⟩
    refine ⟨.unhashable field.1.name.kind,
      List.findSome?_eq_some_iff.2 ⟨placed, field, rest, hfields, ?_, ?_⟩⟩
    · exact (failure?_eq_fault_iff asText field _).2 ⟨hread, hname, rfl⟩
    · intro earlier hearlier
      exact (failure?_eq_none_iff asText earlier).2 (hplaced earlier hearlier)

theorem extend_eq_error_iff
    (block : Block)
    (fields : List (Column × Text))
    (failure : Failure) :
    extend asText block fields = .error failure
      ↔
    fields.findSome? (failure? asText) = some failure := by
  induction fields generalizing block with
  | nil =>
      simp [extend]
  | cons field rest ih =>
      obtain ⟨column, raw⟩ := field
      simp only [extend, List.findSome?_cons, failure?]
      cases coerce asText column.code column.name raw with
      | error other =>
          simp
      | ok value =>
          cases column.name.identity? with
          | none => simp
          | some id => exact ih (block.insert column.name value)

theorem build_eq_error_iff
    (columns : List Aligned)
    (side : Side)
    (keysOnly : Bool)
    (failure : Failure) :
    build asText columns side keysOnly = .error failure
      ↔
    (select columns side keysOnly).findSome? (failure? asText) = some failure :=
  extend_eq_error_iff asText [] _ failure

/-- A block is built just if all texts that it takes have a place. -/
theorem exists_build_eq_ok_iff
    (columns : List Aligned)
    (side : Side)
    (keysOnly : Bool) :
    (∃ block, build asText columns side keysOnly = .ok block)
      ↔
    ∀ field ∈ select columns side keysOnly, Placed asText field := by
  rw [← findSome?_eq_none_iff]
  have herror := build_eq_error_iff asText columns side keysOnly
  cases hbuild : build asText columns side keysOnly with
  | error failure =>
      simp [(herror failure).1 hbuild]
  | ok block =>
      cases hfind : (select columns side keysOnly).findSome? (failure? asText) with
      | none => simp
      | some failure =>
          rw [(herror failure).2 hfind] at hbuild
          contradiction

/-- Key columns are columns, so once the block of a side is built, so is its key block. -/
theorem exists_build_keys
    (columns : List Aligned)
    (side : Side)
    (block : Block)
    (h : build asText columns side false = .ok block) :
    ∃ key, build asText columns side true = .ok key := by
  have hplaced := (exists_build_eq_ok_iff asText columns side false).1 ⟨block, h⟩
  rw [exists_build_eq_ok_iff, select_true]
  intro field hfield
  exact hplaced field (List.mem_filter.1 hfield).1

end Place

/-- A key record is the block of the key columns, and nothing if there are none. -/
theorem build_keys_eq_ok_iff
    {asText : Bool}
    {columns : List Aligned}
    {side : Side}
    {block : Block} :
    build asText columns side true = .ok block
      ↔
    ∃ key, buildKey asText columns side = .ok key ∧ key.getD [] = block := by
  unfold buildKey
  split
  · cases build asText columns side true <;> simp [Except.map]
  · next hnone =>
      have hselect : select columns side true = [] := by
        unfold select
        have hfilter : (columns.filter fun a => !true || a.column.isKey) = [] := by
          rw [List.filter_eq_nil_iff]
          intro a hmem hkey
          exact hnone (List.any_eq_true.2 ⟨a, hmem, by simpa using hkey⟩)
        rw [hfilter]
        rfl
      simp [build, hselect, extend]

/-- A name that no field has the identity of is put at the end. -/
theorem insert_of_not_mem
    (block : Block)
    (name : Json)
    (value : Value)
    (h : name.identity? ∉ block.map fun field => field.1.identity?) :
    block.insert name value = block ++ [(name, value)] := by
  induction block with
  | nil =>
      rfl
  | cons field rest ih =>
      obtain ⟨key, old⟩ := field
      simp only [List.map_cons, List.mem_cons, not_or] at h
      have hne : key.identity? ≠ name.identity? := fun heq => h.1 heq.symm
      simp only [Block.insert, hne, if_false, List.cons_append]
      rw [ih h.2]

/-- Under a name that is there the value is replaced, and all else stays as it is. -/
theorem insert_of_mem
    {block : Block}
    {name : Json}
    (value : Value)
    (h : name.identity? ∈ block.map fun field => field.1.identity?) :
    ∃ front key old back,
      block = front ++ (key, old) :: back ∧
      key.identity? = name.identity? ∧
      block.insert name value = front ++ (key, value) :: back := by
  induction block with
  | nil =>
      contradiction
  | cons first rest ih =>
      obtain ⟨key, old⟩ := first
      by_cases hkey : key.identity? = name.identity?
      · exact ⟨[], key, old, rest, rfl, hkey, by simp [Block.insert, hkey]⟩
      · have hrest : name.identity? ∈ rest.map fun field => field.1.identity? := by
          simpa [Ne.symm hkey] using h
        obtain ⟨front, other, known, back, rfl, hother, hinsert⟩ := ih hrest
        exact
          ⟨(key, old) :: front, other, known, back, rfl, hother,
            by simp [Block.insert, hkey, hinsert]⟩

/-- A field after an insertion was there, or it has the name and the value that were put in. -/
theorem mem_insert
    {block : Block}
    {name : Json}
    {value : Value}
    {field : Json × Value}
    (h : field ∈ block.insert name value) :
    field ∈ block ∨ name.identity? = field.1.identity? ∧ field.2 = value := by
  by_cases hknown : name.identity? ∈ block.map fun field => field.1.identity?
  · obtain ⟨front, key, old, back, rfl, hkey, hinsert⟩ := insert_of_mem value hknown
    rw [hinsert, List.mem_append, List.mem_cons] at h
    rcases h with hfront | rfl | hback
    · exact Or.inl (List.mem_append_left _ hfront)
    · exact Or.inr ⟨hkey.symm, rfl⟩
    · exact Or.inl (List.mem_append_right _ (List.mem_cons_of_mem _ hback))
  · rw [insert_of_not_mem block name value hknown, List.mem_append, List.mem_singleton] at h
    rcases h with hmem | rfl
    · exact Or.inl hmem
    · exact Or.inr ⟨rfl, rfl⟩

/-- A field of an extended block was there, or it is that of one of the texts, with its value. -/
theorem mem_extend
    {asText : Bool}
    {block extended : Block}
    {fields : List (Column × Text)}
    {placed : Json × Value}
    (h : extend asText block fields = .ok extended)
    (hplaced : placed ∈ extended) :
    placed ∈ block ∨
      ∃ field ∈ fields,
        field.1.name.identity? = placed.1.identity? ∧
        coerce asText field.1.code field.1.name field.2 = .ok placed.2 := by
  induction fields generalizing block with
  | nil =>
      cases h
      exact Or.inl hplaced
  | cons field rest ih =>
      obtain ⟨column, raw⟩ := field
      simp only [extend] at h
      split at h
      · contradiction
      · next value hvalue =>
          split at h
          · contradiction
          · rcases ih h with hmem | ⟨field, hfield, hread⟩
            · rcases mem_insert hmem with hblock | ⟨hname, rfl⟩
              · exact Or.inl hblock
              · exact Or.inr ⟨(column, raw), List.mem_cons_self, hname, hvalue⟩
            · exact Or.inr ⟨field, List.mem_cons_of_mem _ hfield, hread⟩

/-- A field of a block is that of one of the texts that it takes, with its own value. -/
theorem exists_of_mem_build
    {asText : Bool}
    {columns : List Aligned}
    {side : Side}
    {keysOnly : Bool}
    {block : Block}
    {placed : Json × Value}
    (h : build asText columns side keysOnly = .ok block)
    (hplaced : placed ∈ block) :
    ∃ field ∈ select columns side keysOnly,
      field.1.name.identity? = placed.1.identity? ∧
      coerce asText field.1.code field.1.name field.2 = .ok placed.2 :=
  (mem_extend h hplaced).resolve_left List.not_mem_nil

/-- A field has the name of a column and the value that a captured text of it is read as. -/
def IsReading
    (asText : Bool)
    (field : Column × Text)
    (placed : Json × Value) : Prop :=
  placed.1 = field.1.name ∧
    coerce asText field.1.code field.1.name field.2 = .ok placed.2

theorem map_fst_of_isReading
    {asText : Bool}
    {fields : List (Column × Text)}
    {block : Block}
    (h : List.Forall₂ (IsReading asText) fields block) :
    block.map Prod.fst = fields.map fun field => field.1.name := by
  induction h with
  | nil => rfl
  | cons hfirst _ ih => rw [List.map_cons, List.map_cons, hfirst.1, ih]

/-- Texts of columns with different names get a field each, in their order. -/
theorem extend_of_nodup
    (asText : Bool)
    (block extended : Block)
    (fields : List (Column × Text))
    (hnodup :
      ((block.map fun field => field.1.identity?) ++
        fields.map fun field => field.1.name.identity?).Nodup)
    (h : extend asText block fields = .ok extended) :
    ∃ added : Block,
      extended = block ++ added ∧
      List.Forall₂ (IsReading asText) fields added := by
  induction fields generalizing block with
  | nil =>
      cases h
      exact ⟨[], by simp, .nil⟩
  | cons field rest ih =>
      obtain ⟨column, raw⟩ := field
      simp only [extend] at h
      split at h
      · contradiction
      · next value hvalue =>
          split at h
          · contradiction
          · have hnew :
                column.name.identity? ∉ block.map fun field => field.1.identity? := by
              intro hmem
              have hdisjoint := (List.nodup_append.1 hnodup).2.2
              exact hdisjoint _ hmem _ (by simp) rfl
            rw [insert_of_not_mem block column.name value hnew] at h
            have hnodup' :
                (((block ++ [(column.name, value)]).map fun field => field.1.identity?) ++
                  rest.map fun field => field.1.name.identity?).Nodup := by
              simpa [List.append_assoc] using hnodup
            obtain ⟨added, hextended, hadded⟩ := ih _ hnodup' h
            refine ⟨(column.name, value) :: added, ?_, .cons ⟨rfl, hvalue⟩ hadded⟩
            simpa using hextended

end Block

/-- The selection of one column is put before that of the rest. -/
theorem select_cons
    (a : Aligned)
    (rest : List Aligned)
    (side : Side)
    (keysOnly : Bool) :
    select (a :: rest) side keysOnly =
      (if !keysOnly || a.column.isKey then
        ((a.images.on side).captured?.map fun text => (a.column, text)).toList
      else
        []) ++
        select rest side keysOnly := by
  cases hkey : !keysOnly || a.column.isKey <;>
    cases htext : (a.images.on side).captured? <;>
      simp [select, hkey, htext]

/-- The columns that a selection takes are columns of the table, in their order. -/
theorem select_sublist
    (columns : List Aligned)
    (side : Side)
    (keysOnly : Bool) :
    ((select columns side keysOnly).map Prod.fst).Sublist (columns.map Aligned.column) := by
  induction columns with
  | nil =>
      exact List.Sublist.slnil
  | cons a rest ih =>
      rw [select_cons]
      split
      · cases (a.images.on side).captured? with
        | none => simpa using ih.cons a.column
        | some text => simpa using ih
      · simpa using ih.cons a.column

namespace Change

/--
The positions, in order, of the columns with a captured text on a side; with
`keysOnly`, of the key columns among them.
-/
def capturedAt
    (columns : List Column)
    (images : List Images)
    (side : Side)
    (keysOnly : Bool) : List Nat :=
  (List.range columns.length).filter fun i =>
    (columns[i]?.any fun column => !keysOnly || column.isKey) &&
      (images[i]?.any fun image => (image.on side).captured?.isSome)

theorem capturedAt_cons
    (column : Column)
    (columns : List Column)
    (image : Images)
    (images : List Images)
    (side : Side)
    (keysOnly : Bool) :
    capturedAt (column :: columns) (image :: images) side keysOnly =
      (if (!keysOnly || column.isKey) && (image.on side).captured?.isSome then [0] else []) ++
        (capturedAt columns images side keysOnly).map Nat.succ := by
  unfold capturedAt
  rw [List.length_cons, List.range_succ_eq_map, List.filter_cons, List.filter_map]
  split <;> simp_all [Function.comp_def]

/-- A selection takes the columns at these positions, each with its own text. -/
theorem forall₂_select
    (columns : List Column)
    (images : List Images)
    (side : Side)
    (keysOnly : Bool) :
    List.Forall₂
      (fun i field =>
        columns[i]? = some field.1 ∧
        ∃ image, images[i]? = some image ∧ image.on side = .captured field.2)
      (capturedAt columns images side keysOnly)
      (select (List.zipWith Aligned.mk columns images) side keysOnly) := by
  induction columns generalizing images with
  | nil =>
      exact .nil
  | cons column rest ih =>
      cases images with
      | nil =>
          simp [capturedAt, select]
      | cons image images =>
          rw [capturedAt_cons, List.zipWith_cons_cons, select_cons]
          -- A position of the rest is the one after it in the whole lists.
          have hrest :
              List.Forall₂
                (fun i field =>
                  (column :: rest)[i]? = some field.1 ∧
                  ∃ other, (image :: images)[i]? = some other ∧
                    other.on side = .captured field.2)
                ((capturedAt rest images side keysOnly).map Nat.succ)
                (select (List.zipWith Aligned.mk rest images) side keysOnly) :=
            List.forall₂_map_left_iff.2 (ih images)
          cases hkey : !keysOnly || column.isKey with
          | false => simpa [hkey] using hrest
          | true =>
              cases htext : (image.on side).captured? with
              | none => simpa [hkey, htext] using hrest
              | some text =>
                  have himage := (Image.captured?_eq_some_iff _ _).1 htext
                  simpa [hkey, htext, himage] using hrest

/-- A field is that of the column at a position, read from the column's own text on a side. -/
def IsFieldAt
    (asText : Bool)
    (change : Change)
    (table : Table)
    (side : Side)
    (i : Nat)
    (field : Json × Value) : Prop :=
  ∃ column images text,
    table.columns[i]? = some column ∧
    change.columns[i]? = some images ∧
    images.on side = .captured text ∧
    field.1 = column.name ∧
    coerce asText column.code column.name text = .ok field.2

/-- A block has a field for each captured text on a side, or of the key columns on it. -/
def IsSide
    (asText : Bool)
    (change : Change)
    (table : Table)
    (side : Side)
    (keysOnly : Bool)
    (block : Block) : Prop :=
  List.Forall₂
    (IsFieldAt asText change table side)
    (capturedAt table.columns change.columns side keysOnly)
    block

end Change

section Align

variable {change : Change}
variable {table : Table}

/-- As many images as columns are paired by position. -/
theorem align_eq_ok_iff
    {columns : List Aligned} :
    align change table = .ok columns ↔
      change.columns.length = table.columns.length ∧
        columns = List.zipWith Aligned.mk table.columns change.columns := by
  unfold align
  split
  · next hlength => simp [hlength, eq_comm]
  · next hlength => simp [hlength]

/-- Any other number of images is a failure. -/
theorem align_eq_error_iff
    {failure : Failure} :
    align change table = .error failure ↔
      change.columns.length ≠ table.columns.length ∧
        failure = .misaligned table.name change.columns.length table.columns.length := by
  unfold align
  split
  · next hlength => simp [hlength]
  · next hlength => simp [hlength, eq_comm]

/-- An alignment pairs the columns of the table with the images by position. -/
theorem eq_zipWith_align
    {columns : List Aligned}
    (h : align change table = .ok columns) :
    columns = List.zipWith Aligned.mk table.columns change.columns :=
  (align_eq_ok_iff.1 h).2

/-- The columns of an alignment are those of the table. -/
theorem columns_align
    {columns : List Aligned}
    (h : align change table = .ok columns) :
    columns.map Aligned.column = table.columns := by
  obtain ⟨hlength, rfl⟩ := align_eq_ok_iff.1 h
  exact List.ext_getElem (by simp [hlength]) (by simp)

end Align

theorem Table.NamesDistinct.namesAreTexts
    {table : Table}
    (h : table.NamesDistinct) :
    table.NamesAreTexts := by
  obtain ⟨names, heq, -⟩ := h
  intro column hcolumn
  have hmem : column.name ∈ table.columns.map Column.name := List.mem_map_of_mem hcolumn
  rw [heq] at hmem
  obtain ⟨name, -, hname⟩ := List.mem_map.1 hmem
  exact ⟨name, hname.symm⟩

/-- The key columns of a table whose names are texts have texts for names. -/
theorem Table.NamesAreTexts.exists_keyNames
    {table : Table}
    (h : table.NamesAreTexts) :
    ∃ names : List Text, table.keyNames = names.map Json.text := by
  have hrange : table.keyNames ∈ Set.range (List.map Json.text) := by
    rw [Set.range_list_map]
    intro keyName hmem
    obtain ⟨column, hcolumn, rfl⟩ := List.mem_map.1 hmem
    obtain ⟨text, htext⟩ := h column (List.mem_filter.1 hcolumn).1
    exact ⟨text, htext.symm⟩
  obtain ⟨names, hnames⟩ := hrange
  exact ⟨names, hnames.symm⟩

theorem Table.NamesAreTexts.exists_name
    {change : Change}
    {table : Table}
    {columns : List Aligned}
    (h : table.NamesAreTexts)
    (halign : align change table = .ok columns) :
    ∀ a ∈ columns, ∃ name, a.column.name = .text name := by
  intro a ha
  refine h a.column ?_
  rw [← columns_align halign]
  exact List.mem_map_of_mem ha

/-- A selected text is that of a column at a position, captured on the side. -/
theorem exists_position_of_mem_select
    {change : Change}
    {table : Table}
    {columns : List Aligned}
    {side : Side}
    {keysOnly : Bool}
    {field : Column × Text}
    (halign : align change table = .ok columns)
    (hfield : field ∈ select columns side keysOnly) :
    ∃ (i : Nat) (images : Images),
      table.columns[i]? = some field.1 ∧
      change.columns[i]? = some images ∧
      images.on side = .captured field.2 := by
  obtain ⟨a, ha, htext⟩ := List.mem_filterMap.1 hfield
  obtain ⟨text, hcaptured, rfl⟩ := Option.map_eq_some_iff.1 htext
  have hmem := (List.mem_filter.1 ha).1
  rw [eq_zipWith_align halign] at hmem
  obtain ⟨i, hi⟩ := List.mem_iff_getElem?.1 hmem
  obtain ⟨column, images, hcolumn, himages, rfl⟩ := List.getElem?_zipWith_eq_some.1 hi
  exact ⟨i, images, hcolumn, himages, (Image.captured?_eq_some_iff _ _).1 hcaptured⟩

/-- Distinct texts have distinct identities, also among the columns that a selection takes. -/
theorem Table.NamesDistinct.nodup_select
    {change : Change}
    {table : Table}
    {columns : List Aligned}
    (hnames : table.NamesDistinct)
    (halign : align change table = .ok columns)
    (side : Side)
    (keysOnly : Bool) :
    ((select columns side keysOnly).map fun field => field.1.name.identity?).Nodup := by
  obtain ⟨names, heq, hnodup⟩ := hnames
  have hids :
      (table.columns.map fun column => column.name.identity?).Nodup := by
    have hmap :
        (table.columns.map fun column => column.name.identity?) =
          names.map fun name => some (Identity.text name) := by
      calc
        (table.columns.map fun column => column.name.identity?)
            = (table.columns.map Column.name).map Json.identity? := by simp
        _ = names.map fun name => some (Identity.text name) := by
            rw [heq]
            simp
    rw [hmap]
    exact List.Nodup.map (fun a b h => by simpa using h) hnodup
  have hsub := (select_sublist columns side keysOnly).map fun column => column.name.identity?
  rw [columns_align halign, List.map_map] at hsub
  exact hids.sublist hsub

/-- Two lists that each match a third one by place match one another. -/
theorem forall₂_comp
    {α β γ : Type}
    {R : α → β → Prop}
    {S : β → γ → Prop}
    {as : List α}
    {bs : List β}
    {cs : List γ}
    (hR : List.Forall₂ R as bs)
    (hS : List.Forall₂ S bs cs) :
    List.Forall₂ (fun a c => ∃ b, R a b ∧ S b c) as cs := by
  induction hR generalizing cs with
  | nil =>
      cases hS
      exact .nil
  | cons hab _ ih =>
      cases hS with
      | cons hbc hrest => exact .cons ⟨_, hab, hbc⟩ (ih hrest)

/-- Where names are distinct, a block has a field for each text that it takes, in their order. -/
theorem forall₂_build
    {asText : Bool}
    {change : Change}
    {table : Table}
    {columns : List Aligned}
    {side : Side}
    {keysOnly : Bool}
    {block : Block}
    (hnames : table.NamesDistinct)
    (halign : align change table = .ok columns)
    (hbuild : Block.build asText columns side keysOnly = .ok block) :
    List.Forall₂ (Block.IsReading asText) (select columns side keysOnly) block := by
  have hnodup := hnames.nodup_select halign side keysOnly
  obtain ⟨added, hblock, hadded⟩ :=
    Block.extend_of_nodup asText [] block _ (by simpa using hnodup) hbuild
  rw [List.nil_append] at hblock
  rwa [hblock]

/-- The block of a side has the fields of that side by position. -/
theorem isSide_build
    {asText : Bool}
    {change : Change}
    {table : Table}
    {columns : List Aligned}
    {side : Side}
    {keysOnly : Bool}
    {block : Block}
    (hnames : table.NamesDistinct)
    (halign : align change table = .ok columns)
    (hbuild : Block.build asText columns side keysOnly = .ok block) :
    change.IsSide asText table side keysOnly block := by
  have hfields := forall₂_build hnames halign hbuild
  rw [eq_zipWith_align halign] at hfields
  have hselect := Change.forall₂_select table.columns change.columns side keysOnly
  refine (forall₂_comp hselect hfields).imp ?_
  rintro i placed ⟨field, ⟨hcolumn, images, himages, htext⟩, hname, hvalue⟩
  exact ⟨field.1, images, field.2, hcolumn, himages, htext, hname, hvalue⟩

end ChangeFeed
