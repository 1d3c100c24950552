import ChangeFeed.Proofs.Message.Extraction
import ChangeFeed.Proofs.Record.Fields

/-!
# The elements of a message

What the columns of a table and the images of a change are to the elements under `columns`
that both are taken from. Each element is an object; it describes one column by its name, its
type and whether it is a key, and has the images of that column and of no other. An image is
absent where the element has no member for its side, null where it has null there, and
anything else is captured as its text.

**Results.**

* `Column.ofMessage_eq_ok_iff`: the objects that describe a column.
* `Images.shows_ofMessage`: the images that an object has.
* `isPaired_ofMessage`: the columns of a message are aligned element by element.
-/

namespace ChangeFeed

/-- The text that a value other than null is captured as. -/
def Json.captured : Json → Text
  | .bool b => ↑(if b then "true" else "false")
  | v => v.display

/-- An image is that of a member which may be missing. -/
structure Image.Shows
    (image : Image)
    (given : Option Json) :
    Prop where
  absent_iff : image = .absent ↔ given = none
  null_iff : image = .null ↔ given = some .null
  captured_iff :
    ∀ text, image = .captured text ↔ ∃ v, given = some v ∧ v ≠ .null ∧ text = v.captured

/-- A column is the one that the members of an object describe. -/
structure Column.IsDescribed
    (column : Column)
    (members : List (Text × Json)) :
    Prop where
  name : Json.find? members "name" = some column.name
  code :
    (Json.find? members "type" = none ∧ column.code = TypeClass.defaultCode) ∨
      ∃ v, Json.find? members "type" = some v ∧ v.toInteger = .ok column.code
  isKey : column.isKey = ((Json.find? members "key").map Json.isTruthy).getD false

/-- A column and its images are both those of one element. -/
def Aligned.IsOf
    (a : Aligned)
    (element : Json) : Prop :=
  ∃ members,
    element = .object members ∧
    a.column.IsDescribed members ∧
    ∀ side : Side, (a.images.on side).Shows (Json.find? members side.name)

/-- The columns of the change and of the table of a message are those of the elements, in order. -/
structure Message.IsPaired
    (members : List (Text × Json))
    (change : Change)
    (table : Table)
    (elements : List Json)
    (columns : List Aligned) :
    Prop where
  read : columnElements (.object members) = .ok elements
  elements_eq : elements = [] ∨ Json.find? members "columns" = some (.array elements)
  aligned : align change table = .ok columns
  paired : List.Forall₂ (fun element a => a.IsOf element) elements columns

section Element

variable {v : Json}
variable {members : List (Text × Json)}

/-- The objects that describe a column are those that it is taken from. -/
theorem Column.ofMessage_eq_ok_iff
    {column : Column} :
    ofMessage v = .ok column ↔ ∃ members, v = .object members ∧ column.IsDescribed members := by
  cases v with
  | object members =>
      simp only [Json.object.injEq, exists_eq_left']
      constructor
      · intro h
        obtain ⟨name, hname, h⟩ := (bind_eq_ok_iff _ _ _).1 h
        obtain ⟨given, hgiven, h⟩ := (bind_eq_ok_iff _ _ _).1 h
        have hname := (Json.member_object_eq_ok_iff _ _ _).1 hname
        cases hgiven
        split at h
        · next v htype =>
            obtain ⟨code, hcode, h⟩ := (bind_eq_ok_iff _ _ _).1 h
            cases h
            exact ⟨hname, Or.inr ⟨v, htype, hcode⟩, rfl⟩
        · next htype =>
            cases h
            exact ⟨hname, Or.inl ⟨htype, rfl⟩, rfl⟩
      · rintro ⟨hname, hcode, hkey⟩
        rcases hcode with ⟨htype, hcode⟩ | ⟨v, htype, hcode⟩
        · simp [ofMessage, Json.member, Json.optionalMember, bind, Except.bind, hname, htype,
            ← hcode, ← hkey]
        · simp [ofMessage, Json.member, Json.optionalMember, bind, Except.bind, hname, htype,
            hcode, ← hkey]
  | _ => simp [ofMessage, Json.member, bind, Except.bind]

/-- The image under a name is that of the member. -/
theorem Image.shows_ofMember
    (members : List (Text × Json))
    (name : String) :
    (Image.ofMember members name).Shows (Json.find? members name) := by
  unfold Image.ofMember
  cases Json.find? members name with
  | none => exact ⟨by simp, by simp, by simp⟩
  | some v =>
      cases v with
      | null => exact ⟨by simp [ofJson], by simp [ofJson], by simp [ofJson]⟩
      | _ =>
          exact
            ⟨by simp [ofJson], by simp [ofJson], by simp [ofJson, Json.captured, eq_comm]⟩

theorem Images.shows_ofMessage
    {images : Images}
    (h : ofMessage (.object members) = .ok images)
    (side : Side) :
    (images.on side).Shows (Json.find? members side.name) := by
  cases h
  cases side <;> exact Image.shows_ofMember members _

end Element

section Message

variable {members : List (Text × Json)}
variable {change : Change}
variable {table : Table}

/-- Columns and images of the same elements, paired by position, are those of the elements. -/
theorem forall₂_isOf_zipWith
    {elements : List Json}
    {columns : List Column}
    {images : List Images}
    (hcolumns : List.Forall₂ (fun v column => Column.ofMessage v = .ok column) elements columns)
    (himages : List.Forall₂ (fun v image => Images.ofMessage v = .ok image) elements images) :
    List.Forall₂ (fun element a => Aligned.IsOf a element) elements
      (List.zipWith Aligned.mk columns images) := by
  induction hcolumns generalizing images with
  | nil => exact .nil
  | cons hcolumn _ ih =>
      cases himages with
      | cons himage hrest =>
          refine .cons ?_ (ih hrest)
          obtain ⟨fields, rfl, hdescribed⟩ := Column.ofMessage_eq_ok_iff.1 hcolumn
          exact ⟨fields, rfl, hdescribed, Images.shows_ofMessage himage⟩

/-- The columns of a message are aligned element by element. -/
theorem Message.isPaired_ofMessage
    (htable : Table.ofMessage (.object members) = .ok table)
    (hchange : Change.ofMessage (.object members) = .ok change) :
    ∃ elements columns, IsPaired members change table elements columns := by
  obtain ⟨elements, helements, hcolumns⟩ := Table.forall₂_columns_ofMessage htable
  obtain ⟨others, hothers, himages⟩ := Change.forall₂_columns_ofMessage hchange
  rw [helements] at hothers
  cases hothers
  refine
    ⟨elements, _, helements, ?_,
      align_eq_ok_iff.2 ⟨Change.length_columns_eq htable hchange, rfl⟩,
      forall₂_isOf_zipWith hcolumns himages⟩
  cases elements with
  | nil => exact Or.inl rfl
  | cons element rest =>
      obtain ⟨column, -, hcolumn, -⟩ := List.forall₂_cons_left_iff.1 hcolumns
      obtain ⟨fields, rfl, -⟩ := Column.ofMessage_eq_ok_iff.1 hcolumn
      exact Or.inr (columnElements_object helements List.mem_cons_self)

end Message

end ChangeFeed
