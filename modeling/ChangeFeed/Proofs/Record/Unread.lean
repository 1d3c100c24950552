import ChangeFeed.Proofs.Record.Fields
import Mathlib.Data.Nat.Find

/-!
# The first text that cannot be read

Where the columns of a table have texts for names, the blocks of some sides fail only by
a captured text that is no value of the type of its column, and by the first one: the
first in the order of the table on the first of the sides that have one. This is said by
positions in the table and in the change.

**Results.**

* `exists_firstUnread_iff`, `exists_firstUnreadOf_iff`: if there are such texts, one of
  them is the first.
* `findSome?_select_iff`: what fails one side.
* `findSome?_sides_iff`: what fails some sides one after the other.
-/

namespace ChangeFeed

/--
The column at a position has a captured text on a side that is no value of its type;
the text, the type code and the name of the column are those of the failure.
-/
def UnreadAt
    (columns : List Column)
    (images : List Images)
    (side : Side)
    (i : Nat)
    (cause : Coercion.Failure) : Prop :=
  ∃ column image text,
    columns[i]? = some column ∧
    images[i]? = some image ∧
    image.on side = .captured text ∧
    (∀ v, coerce false column.code column.name text ≠ .ok v) ∧
    cause = ⟨text, column.code, column.name⟩

/-- A side has no text that cannot be read. -/
def IsReadable
    (columns : List Column)
    (images : List Images)
    (side : Side) : Prop :=
  ∀ i cause, ¬ UnreadAt columns images side i cause

/-- The first text on a side that cannot be read. -/
def FirstUnread
    (columns : List Column)
    (images : List Images)
    (side : Side)
    (cause : Coercion.Failure) : Prop :=
  ∃ i,
    UnreadAt columns images side i cause ∧
    ∀ j < i, ∀ other, ¬ UnreadAt columns images side j other

/-- The first text that cannot be read on the first of some sides that have one. -/
def FirstUnreadOf
    (columns : List Column)
    (images : List Images)
    (sides : List Side)
    (cause : Coercion.Failure) : Prop :=
  ∃ earlier side later,
    sides = earlier ++ side :: later ∧
    FirstUnread columns images side cause ∧
    ∀ other ∈ earlier, IsReadable columns images other

theorem coerce_eq_error_iff_forall
    {code : Int}
    {column : Json}
    {raw : Text}
    {cause : Coercion.Failure} :
    coerce false code column raw = .error cause ↔
      (∀ v, coerce false code column raw ≠ .ok v) ∧ cause = ⟨raw, code, column⟩ := by
  simp only [ne_eq, coerce]
  cases Coercion.read? (.ofCode code) raw <;> simp [eq_comm]

section Side

variable {column : Column}
variable {columns : List Column}
variable {image : Images}
variable {images : List Images}
variable {side : Side}
variable {cause : Coercion.Failure}

/-- If a side has texts that cannot be read, one of them is the first. -/
theorem exists_firstUnread_iff :
    (∃ cause, FirstUnread columns images side cause) ↔
      ∃ i cause, UnreadAt columns images side i cause := by
  classical
  constructor
  · rintro ⟨cause, i, hunread, -⟩
    exact ⟨i, cause, hunread⟩
  · intro h
    obtain ⟨cause, hcause⟩ := Nat.find_spec h
    exact ⟨cause, Nat.find h, hcause, fun j hj other hother => Nat.find_min h hj ⟨other, hother⟩⟩

theorem isReadable_iff_firstUnread :
    IsReadable columns images side ↔ ∀ cause, ¬ FirstUnread columns images side cause := by
  rw [← not_exists, exists_firstUnread_iff]
  simp only [not_exists]
  rfl

theorem unreadAt_zero_iff :
    UnreadAt (column :: columns) (image :: images) side 0 cause ↔
      ∃ text,
        image.on side = .captured text ∧
        coerce false column.code column.name text = .error cause := by
  simp [UnreadAt, coerce_eq_error_iff_forall]

theorem unreadAt_succ_iff
    {i : Nat} :
    UnreadAt (column :: columns) (image :: images) side (i + 1) cause ↔
      UnreadAt columns images side i cause := by
  simp [UnreadAt]

/-- The first text that cannot be read is that of the first column, or of the rest without it. -/
theorem firstUnread_cons_iff :
    FirstUnread (column :: columns) (image :: images) side cause ↔
      UnreadAt (column :: columns) (image :: images) side 0 cause ∨
        (∀ other, ¬ UnreadAt (column :: columns) (image :: images) side 0 other) ∧
          FirstUnread columns images side cause := by
  constructor
  · rintro ⟨i, hunread, hfirst⟩
    cases i with
    | zero => exact Or.inl hunread
    | succ i =>
        refine Or.inr ⟨hfirst 0 (Nat.succ_pos i), i, unreadAt_succ_iff.1 hunread, ?_⟩
        intro j hj other hother
        exact hfirst (j + 1) (Nat.succ_lt_succ hj) other (unreadAt_succ_iff.2 hother)
  · rintro (hunread | ⟨hreadable, i, hunread, hfirst⟩)
    · exact ⟨0, hunread, fun j hj => absurd hj (Nat.not_lt_zero j)⟩
    · refine ⟨i + 1, unreadAt_succ_iff.2 hunread, fun j hj other hother => ?_⟩
      cases j with
      | zero => exact hreadable other hother
      | succ j =>
          exact hfirst j (Nat.lt_of_succ_lt_succ hj) other (unreadAt_succ_iff.1 hother)

/-- A text of a column with a name is without a place just if it cannot be read. -/
theorem failure?_eq_some_iff
    {asText : Bool}
    {text : Text}
    {failure : Failure}
    (hname : ∃ name, column.name = .text name) :
    Block.failure? asText (column, text) = some failure ↔
      asText = false ∧
        ∃ cause,
          failure = .coercion cause ∧
          coerce false column.code column.name text = .error cause := by
  obtain ⟨name, hname⟩ := hname
  cases asText with
  | true => simp [Block.failure?, coerce_asText, hname]
  | false =>
      simp only [Block.failure?, hname, Json.identity?_text, true_and]
      cases coerce false column.code (.text name) text <;> simp [eq_comm]

/-- What the first column is captured with fails just if it cannot be read. -/
theorem findSome?_captured_iff
    (columns : List Column)
    (images : List Images)
    {asText : Bool}
    {failure : Failure}
    (hname : ∃ name, column.name = .text name) :
    ((image.on side).captured?.map fun text => (column, text)).toList.findSome?
        (Block.failure? asText) = some failure
      ↔
    asText = false ∧
      ∃ cause,
        failure = .coercion cause ∧
        UnreadAt (column :: columns) (image :: images) side 0 cause := by
  simp only [unreadAt_zero_iff]
  cases hcaptured : image.on side with
  | absent => simp [Image.captured?]
  | null => simp [Image.captured?]
  | captured text => simp [Image.captured?, failure?_eq_some_iff hname]

/-- One side fails by the first of its texts that cannot be read. -/
theorem findSome?_select_iff
    {asText : Bool}
    {failure : Failure}
    (hnames : ∀ column ∈ columns, ∃ name, column.name = .text name) :
    (select (List.zipWith Aligned.mk columns images) side false).findSome?
        (Block.failure? asText) = some failure
      ↔
    asText = false ∧
      ∃ cause, failure = .coercion cause ∧ FirstUnread columns images side cause := by
  induction columns generalizing images with
  | nil =>
      simp [select, FirstUnread, UnreadAt]
  | cons column columns ih =>
      rw [List.forall_mem_cons] at hnames
      cases images with
      | nil => simp [select, FirstUnread, UnreadAt]
      | cons image images =>
          rw [List.zipWith_cons_cons, select_cons, List.findSome?_append, Option.or_eq_some_iff,
            ih hnames.2]
          simp only [Bool.not_false, Bool.true_or, if_true, Option.eq_none_iff_forall_ne_some,
            ne_eq, findSome?_captured_iff columns images hnames.1, firstUnread_cons_iff]
          -- Before the rest comes into it, the first column must not have failed.
          constructor
          · rintro (⟨hmode, cause, hfailure, hunread⟩ | ⟨hfirst, hmode, cause, hfailure, hrest⟩)
            · exact ⟨hmode, cause, hfailure, Or.inl hunread⟩
            · refine ⟨hmode, cause, hfailure, Or.inr ⟨fun other hother => ?_, hrest⟩⟩
              exact hfirst (.coercion other) ⟨hmode, other, rfl, hother⟩
          · rintro ⟨hmode, cause, hfailure, hunread | ⟨hreadable, hrest⟩⟩
            · exact Or.inl ⟨hmode, cause, hfailure, hunread⟩
            · refine Or.inr ⟨?_, hmode, cause, hfailure, hrest⟩
              rintro other ⟨-, cause', -, hother⟩
              exact hreadable cause' hother

end Side

section Sides

/-- What is first in lists put together is first in the first of them that has it. -/
theorem findSome?_flatMap
    {α β γ : Type}
    (f : β → Option γ)
    (g : α → List β)
    (as : List α) :
    (as.flatMap g).findSome? f = as.findSome? fun a => (g a).findSome? f := by
  induction as with
  | nil => rfl
  | cons a as ih =>
      rw [List.flatMap_cons, List.findSome?_append, List.findSome?_cons, ih]
      cases (g a).findSome? f <;> rfl

variable {columns : List Column}
variable {images : List Images}

/-- If some sides have texts that cannot be read, one of them is the first. -/
theorem exists_firstUnreadOf_iff
    {sides : List Side} :
    (∃ cause, FirstUnreadOf columns images sides cause) ↔
      ∃ side ∈ sides, ∃ i cause, UnreadAt columns images side i cause := by
  constructor
  · rintro ⟨cause, earlier, side, later, rfl, ⟨i, hunread, -⟩, -⟩
    exact ⟨side, by simp, i, cause, hunread⟩
  · intro h
    induction sides with
    | nil => simp at h
    | cons side sides ih =>
        by_cases hside : ∃ i cause, UnreadAt columns images side i cause
        · obtain ⟨cause, hfirst⟩ := exists_firstUnread_iff.2 hside
          exact ⟨cause, [], side, sides, rfl, hfirst, by simp⟩
        · obtain ⟨other, hother, hunread⟩ := h
          rcases List.mem_cons.1 hother with rfl | hmem
          · exact absurd hunread hside
          · obtain ⟨cause, earlier, found, later, rfl, hfirst, hearlier⟩ :=
              ih ⟨other, hmem, hunread⟩
            have hreadable : IsReadable columns images side :=
              fun i cause hunread => hside ⟨i, cause, hunread⟩
            exact
              ⟨cause, side :: earlier, found, later, rfl, hfirst,
                List.forall_mem_cons.2 ⟨hreadable, hearlier⟩⟩

/-- Sides fail one after the other by the first text on them that cannot be read. -/
theorem findSome?_sides_iff
    {asText : Bool}
    {sides : List Side}
    {failure : Failure}
    (hnames : ∀ column ∈ columns, ∃ name, column.name = .text name) :
    (sides.flatMap fun side =>
        select (List.zipWith Aligned.mk columns images) side false).findSome?
        (Block.failure? asText) = some failure
      ↔
    asText = false ∧
      ∃ cause, failure = .coercion cause ∧ FirstUnreadOf columns images sides cause := by
  have hside {side : Side} {other : Failure} :=
    @findSome?_select_iff columns images side asText other hnames
  rw [findSome?_flatMap, List.findSome?_eq_some_iff]
  constructor
  · rintro ⟨earlier, side, later, hsides, hfailure, hearlier⟩
    obtain ⟨hmode, cause, rfl, hfirst⟩ := hside.1 hfailure
    refine ⟨hmode, cause, rfl, earlier, side, later, hsides, hfirst, fun other hother => ?_⟩
    refine isReadable_iff_firstUnread.2 fun cause' hunread => ?_
    have hsome := hside.2 ⟨hmode, cause', rfl, hunread⟩
    rw [hearlier other hother] at hsome
    contradiction
  · rintro ⟨hmode, cause, rfl, earlier, side, later, hsides, hfirst, hearlier⟩
    refine
      ⟨earlier, side, later, hsides, hside.2 ⟨hmode, cause, rfl, hfirst⟩, fun other hother => ?_⟩
    refine Option.eq_none_iff_forall_ne_some.2 fun failure hfailure => ?_
    obtain ⟨-, cause', -, hunread⟩ := hside.1 hfailure
    exact isReadable_iff_firstUnread.1 (hearlier other hother) cause' hunread

end Sides

end ChangeFeed
