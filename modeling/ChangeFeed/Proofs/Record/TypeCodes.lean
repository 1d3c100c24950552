import ChangeFeed.Proofs.Record.Repeated

/-!
# The type codes of columns

The code of a column tells the class of its texts and is quoted where one of them cannot be
read. With all columns read as texts it tells nothing. So where columns get other codes, of
the same classes or, read as texts, any, a block takes the same texts and is the same, or it
fails by the same text of the same column, which now quotes the new code.

A block of columns that are read as texts holds these texts. Under a name that several
columns have, it is the text of the last one of them that is taken.

**Results.**

* `coerce_retyped`: a text of a column that got another code.
* `forall₂_select_retyped`: the same texts are taken.
* `build_retyped`, `buildKey_retyped`: the block is the same, or it fails by the same text.
* `isVerbatim_build`: a block of texts.
-/

namespace ChangeFeed

section Results

variable {ε α β : Type}

/-- Two results are the same, or both are errors and these are related. -/
inductive SameResult (R : ε → ε → Prop) : Except ε α → Except ε α → Prop
  | ok (a : α) : SameResult R (.ok a) (.ok a)
  | error
      {e e' : ε}
      (h : R e e') : SameResult R (.error e) (.error e')

theorem SameResult.map
    {R : ε → ε → Prop}
    {result other : Except ε α}
    (f : α → β)
    (h : SameResult R result other) :
    SameResult R (result.map f) (other.map f) := by
  cases h with
  | ok a => exact .ok (f a)
  | error h => exact .error h

/-- Results are the same where related errors are. -/
theorem SameResult.eq
    {R : ε → ε → Prop}
    {result other : Except ε α}
    (hR : ∀ e e', R e e' → e = e')
    (h : SameResult R result other) :
    result = other := by
  cases h with
  | ok a => rfl
  | error h => rw [hR _ _ h]

/-- Results that are related stay so under a weaker relation of the errors. -/
theorem SameResult.imp
    {R S : ε → ε → Prop}
    {result other : Except ε α}
    (hRS : ∀ e e', R e e' → S e e')
    (h : SameResult R result other) :
    SameResult S result other := by
  cases h with
  | ok a => exact .ok a
  | error h => exact .error (hRS _ _ h)

end Results

/--
A column that is another one but for its type code. Both codes are of one class, unless
all columns are read as texts.
-/
structure Column.Retyped
    (asText : Bool)
    (column other : Column) : Prop where
  name_eq : column.name = other.name
  isKey_eq : column.isKey = other.isKey
  class_eq : asText = false → TypeClass.ofCode column.code = TypeClass.ofCode other.code

/-- Columns that are others but for their type codes, column by column. -/
abbrev ColumnsRetyped (asText : Bool) : List Column → List Column → Prop :=
  List.Forall₂ (Column.Retyped asText)

theorem ColumnsRetyped.mono
    {asText typed : Bool}
    {columns others : List Column}
    (hmode : asText = false → typed = false)
    (h : ColumnsRetyped typed columns others) :
    ColumnsRetyped asText columns others :=
  h.imp fun _ _ hcolumn =>
    ⟨hcolumn.name_eq, hcolumn.isKey_eq, fun htyped => hcolumn.class_eq (hmode htyped)⟩

/--
Two failures that are the same, or both are of a text that cannot be read, the same one of
columns at the same place, each with the code of its own column. With all columns read as
texts there are none of the latter.
-/
inductive Failure.SameButCode
    (asText : Bool)
    (columns others : List Column) : Failure → Failure → Prop
  | same
      {failure : Failure}
      (h : ∀ cause, failure ≠ .coercion cause) :
      SameButCode asText columns others failure failure
  | code
      {column other : Column}
      (htyped : asText = false)
      (hmem : (column, other) ∈ columns.zip others)
      (raw : Text) :
      SameButCode asText columns others
        (.coercion ⟨raw, column.code, column.name⟩) (.coercion ⟨raw, other.code, column.name⟩)

/-- Columns of the same classes may be taken for columns that need not be. -/
theorem Failure.SameButCode.mono
    {asText typed : Bool}
    {columns others : List Column}
    {failure failure' : Failure}
    (hmode : asText = false → typed = false)
    (h : failure.SameButCode asText columns others failure') :
    failure.SameButCode typed columns others failure' := by
  cases h with
  | same h => exact .same h
  | code htyped hmem raw => exact .code (hmode htyped) hmem raw

/-- Read as texts, columns do not fail at all, so other codes cannot be told. -/
theorem Failure.SameButCode.eq
    {columns others : List Column}
    {failure failure' : Failure}
    (h : failure.SameButCode true columns others failure') :
    failure = failure' ∧ ∀ cause, failure ≠ .coercion cause := by
  cases h with
  | same h => exact ⟨rfl, h⟩
  | code htyped => contradiction

section Retyped

variable {asText : Bool}
variable {columns others : List Column}
variable {column other : Column}

/-- Two columns of retyped columns that stand at the same place. -/
def Column.Matched
    (asText : Bool)
    (columns others : List Column)
    (column other : Column) : Prop :=
  column.Retyped asText other ∧ (column, other) ∈ columns.zip others

theorem ColumnsRetyped.matched
    (h : ColumnsRetyped asText columns others) :
    List.Forall₂ (Column.Matched asText columns others) columns others := by
  obtain ⟨hlength, hretyped⟩ := List.forall₂_iff_zip.1 h
  exact List.forall₂_iff_zip.2 ⟨hlength, fun hmem => ⟨hretyped hmem, hmem⟩⟩

theorem ColumnsRetyped.map_name_eq
    (h : ColumnsRetyped asText columns others) :
    columns.map Column.name = others.map Column.name := by
  induction h with
  | nil => rfl
  | cons hfirst _ ih => rw [List.map_cons, List.map_cons, hfirst.name_eq, ih]

theorem ColumnsRetyped.filter
    (h : ColumnsRetyped asText columns others) :
    ColumnsRetyped asText (columns.filter Column.isKey) (others.filter Column.isKey) := by
  induction h with
  | nil => exact .nil
  | @cons column other _ _ hfirst _ ih =>
      rw [List.filter_cons, List.filter_cons, ← hfirst.isKey_eq]
      cases column.isKey with
      | false => exact ih
      | true => exact .cons hfirst ih

/-- A text of a column that got another code is read alike, or cannot be read either. -/
theorem coerce_retyped
    (h : column.Retyped asText other)
    (raw : Text) :
    (∃ value,
        coerce asText column.code column.name raw = .ok value ∧
        coerce asText other.code other.name raw = .ok value) ∨
      asText = false ∧
        coerce asText column.code column.name raw = .error ⟨raw, column.code, column.name⟩ ∧
        coerce asText other.code other.name raw = .error ⟨raw, other.code, column.name⟩ := by
  cases asText with
  | true => exact Or.inl ⟨.text raw, rfl, rfl⟩
  | false =>
      cases hread : Coercion.read? (.ofCode column.code) raw with
      | none =>
          have hother := hread
          rw [h.class_eq rfl] at hother
          rw [h.name_eq]
          exact Or.inr ⟨rfl, coerce_eq_error_iff.2 hread, coerce_eq_error_iff.2 hother⟩
      | some value =>
          have hother := hread
          rw [h.class_eq rfl] at hother
          exact Or.inl ⟨value, coerce_eq_ok_iff.2 hread, coerce_eq_ok_iff.2 hother⟩

/-- One text taken of columns at the same place. -/
structure FieldRetyped
    (asText : Bool)
    (columns others : List Column)
    (field other : Column × Text) : Prop where
  matched : field.1.Matched asText columns others other.1
  text_eq : field.2 = other.2

/-- Of columns that got other codes, the same texts are taken. -/
theorem forall₂_select_retyped
    {retyped retypedOthers : List Column}
    (h : List.Forall₂ (Column.Matched asText columns others) retyped retypedOthers)
    (images : List Images)
    (side : Side)
    (keysOnly : Bool) :
    List.Forall₂ (FieldRetyped asText columns others)
      (select (List.zipWith Aligned.mk retyped images) side keysOnly)
      (select (List.zipWith Aligned.mk retypedOthers images) side keysOnly) := by
  induction h generalizing images with
  | nil => exact .nil
  | @cons column other _ _ hfirst _ ih =>
      cases images with
      | nil => exact .nil
      | cons first images =>
          rw [List.zipWith_cons_cons, List.zipWith_cons_cons, select_cons, select_cons]
          refine List.rel_append ?_ (ih images)
          simp only [← hfirst.1.isKey_eq]
          split
          · cases (first.on side).captured? with
            | none => exact .nil
            | some text => exact .cons ⟨hfirst, rfl⟩ .nil
          · exact .nil

/-- The block extended by texts of columns that got other codes. -/
theorem Block.extend_retyped
    {fields otherFields : List (Column × Text)}
    (h : List.Forall₂ (FieldRetyped asText columns others) fields otherFields)
    (block : Block) :
    SameResult (Failure.SameButCode asText columns others)
      (extend asText block fields) (extend asText block otherFields) := by
  induction h generalizing block with
  | nil => exact .ok block
  | @cons field other _ _ hfirst _ ih =>
      obtain ⟨column, raw⟩ := field
      obtain ⟨other, text⟩ := other
      obtain ⟨⟨hretyped, hmem⟩, rfl⟩ := hfirst
      simp only [extend]
      rcases coerce_retyped hretyped raw with ⟨value, hvalue, hother⟩ | ⟨htyped, hcause, hother⟩
      · rw [hvalue, hother, ← hretyped.name_eq]
        cases column.name.identity? with
        | none => exact .error (.same (by simp))
        | some id => exact ih _
      · rw [hcause, hother]
        exact .error (.code htyped hmem raw)

theorem Block.build_retyped
    (h : ColumnsRetyped asText columns others)
    (images : List Images)
    (side : Side)
    (keysOnly : Bool) :
    SameResult (Failure.SameButCode asText columns others)
      (build asText (List.zipWith Aligned.mk columns images) side keysOnly)
      (build asText (List.zipWith Aligned.mk others images) side keysOnly) :=
  extend_retyped (forall₂_select_retyped h.matched images side keysOnly) []

/-- There are key columns among the ones just if there are among the others. -/
theorem any_isKey_retyped
    (h : ColumnsRetyped asText columns others)
    (images : List Images) :
    ((List.zipWith Aligned.mk columns images).any fun a => a.column.isKey) =
      (List.zipWith Aligned.mk others images).any fun a => a.column.isKey := by
  induction h generalizing images with
  | nil => rfl
  | cons hfirst _ ih =>
      cases images with
      | nil => rfl
      | cons first images =>
          rw [List.zipWith_cons_cons, List.zipWith_cons_cons, List.any_cons, List.any_cons,
            ih images, hfirst.isKey_eq]

theorem Block.buildKey_retyped
    (h : ColumnsRetyped asText columns others)
    (images : List Images)
    (side : Side) :
    SameResult (Failure.SameButCode asText columns others)
      (buildKey asText (List.zipWith Aligned.mk columns images) side)
      (buildKey asText (List.zipWith Aligned.mk others images) side) := by
  rw [buildKey, buildKey, any_isKey_retyped h images]
  split
  · exact (build_retyped h images side true).map some
  · exact .ok none

end Retyped

namespace Block

/-- The value of a field is a text: the last one that is taken under its name. -/
def IsLastText
    (fields : List (Column × Text))
    (placed : Json × Value) : Prop :=
  ∃ before field after,
    fields = before ++ field :: after ∧
    field.1.name.identity? = placed.1.identity? ∧
    placed.2 = .text field.2 ∧
    ∀ later ∈ after, later.1.name.identity? ≠ placed.1.identity?

/-- A block holds the texts that are taken, under all their names and as they are. -/
structure IsVerbatim
    (fields : List (Column × Text))
    (block : Block) : Prop where
  lastText : ∀ placed ∈ block, IsLastText fields placed
  named : ∀ field ∈ fields, ∃ placed ∈ block, placed.1.identity? = field.1.name.identity?

section Verbatim

variable {block extended : Block}
variable {fields : List (Column × Text)}
variable {placed : Json × Value}

theorem nodup_insert
    (hnodup : (block.map fun field => field.1.identity?).Nodup)
    (name : Json)
    (value : Value) :
    ((block.insert name value).map fun field => field.1.identity?).Nodup := by
  by_cases hknown : name.identity? ∈ block.map fun field => field.1.identity?
  · obtain ⟨front, key, old, back, rfl, -, hinsert⟩ := insert_of_mem value hknown
    rw [hinsert]
    simpa using hnodup
  · rw [insert_of_not_mem block name value hknown, List.map_append, List.map_singleton]
    refine List.nodup_append.2 ⟨hnodup, List.nodup_singleton _, fun id hid other hother => ?_⟩
    rintro rfl
    rw [List.mem_singleton.1 hother] at hid
    exact hknown hid

/-- After an insertion a field of another name was there, that of the name has the value. -/
theorem mem_insert_of_nodup
    {name : Json}
    {value : Value}
    (hnodup : (block.map fun field => field.1.identity?).Nodup)
    (h : placed ∈ block.insert name value) :
    placed ∈ block ∧ name.identity? ≠ placed.1.identity? ∨
      name.identity? = placed.1.identity? ∧ placed.2 = value := by
  by_cases hname : name.identity? = placed.1.identity?
  · refine Or.inr ⟨hname, ?_⟩
    by_cases hknown : name.identity? ∈ block.map fun field => field.1.identity?
    · obtain ⟨front, key, old, back, rfl, hkey, hinsert⟩ := insert_of_mem value hknown
      have hdistinct := nodup_insert hnodup name value
      rw [hinsert] at h hdistinct
      have hmem : (key, value) ∈ front ++ (key, value) :: back := by simp
      have hsame := List.inj_on_of_nodup_map hdistinct h hmem (hname.symm.trans hkey.symm)
      exact congrArg Prod.snd hsame
    · rw [insert_of_not_mem block name value hknown, List.mem_append, List.mem_singleton] at h
      rcases h with hmem | rfl
      · exact absurd (List.mem_map.2 ⟨placed, hmem, hname.symm⟩) hknown
      · rfl
  · exact Or.inl ⟨(mem_insert h).resolve_right fun hsame => hname hsame.1, hname⟩

/-- A name has a field once it is put in, and none loses its field. -/
theorem exists_insert
    (block : Block)
    (name : Json)
    (value : Value) :
    (∃ placed ∈ block.insert name value, placed.1.identity? = name.identity?) ∧
      ∀ field ∈ block,
        ∃ placed ∈ block.insert name value, placed.1.identity? = field.1.identity? := by
  by_cases hknown : name.identity? ∈ block.map fun field => field.1.identity?
  · obtain ⟨front, key, old, back, rfl, hkey, hinsert⟩ := insert_of_mem value hknown
    rw [hinsert]
    refine ⟨⟨(key, value), by simp, hkey⟩, fun field hfield => ?_⟩
    rcases List.mem_append.1 hfield with hfront | hback
    · exact ⟨field, List.mem_append_left _ hfront, rfl⟩
    · rcases List.mem_cons.1 hback with rfl | hrest
      · exact ⟨(key, value), by simp, rfl⟩
      · exact ⟨field, by simp [hrest], rfl⟩
  · rw [insert_of_not_mem block name value hknown]
    exact
      ⟨⟨(name, value), by simp, rfl⟩,
        fun field hfield => ⟨field, List.mem_append_left _ hfield, rfl⟩⟩

/-- So each of the columns that extend a block has a field in the end. -/
theorem exists_extend
    {asText : Bool}
    (h : extend asText block fields = .ok extended) :
    (∀ field ∈ block, ∃ placed ∈ extended, placed.1.identity? = field.1.identity?) ∧
      ∀ field ∈ fields, ∃ placed ∈ extended, placed.1.identity? = field.1.name.identity? := by
  induction fields generalizing block with
  | nil =>
      cases h
      exact ⟨fun field hfield => ⟨field, hfield, rfl⟩, by simp⟩
  | cons field rest ih =>
      obtain ⟨column, raw⟩ := field
      simp only [extend] at h
      split at h
      · contradiction
      · next value _ =>
          split at h
          · contradiction
          · obtain ⟨hkept, hrest⟩ := ih h
            obtain ⟨⟨placed, hplaced, hname⟩, hblock⟩ := exists_insert block column.name value
            refine ⟨fun field hfield => ?_, List.forall_mem_cons.2 ⟨?_, hrest⟩⟩
            · obtain ⟨inserted, hinserted, hsame⟩ := hblock field hfield
              obtain ⟨last, hlast, heq⟩ := hkept inserted hinserted
              exact ⟨last, hlast, heq.trans hsame⟩
            · obtain ⟨last, hlast, heq⟩ := hkept placed hplaced
              exact ⟨last, hlast, heq.trans hname⟩

/-- What columns that are read as texts add to a block. -/
theorem mem_extend_asText
    (hnodup : (block.map fun field => field.1.identity?).Nodup)
    (h : extend true block fields = .ok extended)
    (hplaced : placed ∈ extended) :
    (placed ∈ block ∧ ∀ field ∈ fields, field.1.name.identity? ≠ placed.1.identity?) ∨
      IsLastText fields placed := by
  -- Column by column: what the block has so far stays unless a later column has the name.
  induction fields generalizing block with
  | nil =>
      cases h
      exact Or.inl ⟨hplaced, by simp⟩
  | cons field rest ih =>
      obtain ⟨column, raw⟩ := field
      simp only [extend, coerce_asText] at h
      split at h
      · contradiction
      · rcases ih (nodup_insert hnodup _ _) h with
          ⟨hmem, hrest⟩ | ⟨before, field, after, rfl, hname, hvalue, hafter⟩
        · rcases mem_insert_of_nodup hnodup hmem with ⟨hblock, hname⟩ | ⟨hname, hvalue⟩
          · exact Or.inl ⟨hblock, List.forall_mem_cons.2 ⟨hname, hrest⟩⟩
          · exact Or.inr ⟨[], (column, raw), rest, rfl, hname, hvalue, hrest⟩
        · exact Or.inr ⟨(column, raw) :: before, field, after, rfl, hname, hvalue, hafter⟩

/-- A block of columns that are read as texts holds the texts that it takes. -/
theorem isVerbatim_build
    {columns : List Aligned}
    {side : Side}
    {keysOnly : Bool}
    (h : build true columns side keysOnly = .ok block) :
    block.IsVerbatim (select columns side keysOnly) where
  lastText placed hplaced :=
    (mem_extend_asText (by simp) h hplaced).resolve_left fun hmem => List.not_mem_nil hmem.1
  named := (exists_extend h).2

end Verbatim

end Block
end ChangeFeed
