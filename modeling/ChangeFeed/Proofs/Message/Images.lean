import ChangeFeed.Proofs.Message.Extraction

/-!
# Images in messages

What a message is decoded to depends on an image of a column only through the image
itself. A place for an image in a message is everything else of the message: whatever
value is put there, the message is decoded as it is with null there, and then the image
that the value stands for is put on its side of the images of the column.

**Results.**

* `ofObject_message`: how a message is decoded with a value at a place.
* `on_of_ofObject`: the change of a message has the image of that value at the place.
-/

namespace ChangeFeed

/-- The images of a column with another one on a side. -/
def Images.put
    (images : Images)
    (side : Side)
    (image : Image) : Images :=
  match side with
  | .before => { images with before := image }
  | .after => { images with after := image }

@[simp] theorem Images.on_put
    (images : Images)
    (side : Side)
    (image : Image) :
    (images.put side image).on side = image := by
  cases side <;> rfl

/-- A change with another image of a column on a side. -/
def Change.put
    (change : Change)
    (index : Nat)
    (side : Side)
    (image : Image) : Change :=
  { change with columns := change.columns.modify index (·.put side image) }

/-- A message with another image of a column on a side; a notice has none. -/
def Message.put
    (message : Message)
    (index : Nat)
    (side : Side)
    (image : Image) : Message :=
  match message with
  | .notice asked => .notice asked
  | .change row table => .change (row.put index side image) table

/-- A message without the value of one image of a column. -/
structure ImagePlace where
  /-- The members of the message. -/
  members : List (Text × Json)
  /-- The elements of the columns before and after that of the image. -/
  before : List Json
  after : List Json
  /-- The members of the column of the image. -/
  column : List (Text × Json)
  /-- The side of the image. -/
  side : Side

namespace ImagePlace

variable (p : ImagePlace)

/-- The position of the column of the image. -/
def index : Nat :=
  p.before.length

/-- The elements of the columns with a value for the image. -/
def elements (v : Json) : List Json :=
  p.before ++ .object (Json.insert p.column p.side.name v) :: p.after

/-- The members of the message with a value for the image. -/
def message (v : Json) : List (Text × Json) :=
  Json.insert p.members "columns" (.array (p.elements v))

end ImagePlace

section Members

variable {members : List (Text × Json)}
variable {name other : Text}
variable {v : Json}

theorem find?_insert_self :
    Json.find? (Json.insert members name v) name = some v := by
  simp only [Json.find?]
  induction members with
  | nil => simp [Json.insert]
  | cons member rest ih =>
      obtain ⟨key, old⟩ := member
      rw [Json.insert]
      split
      · next hkey => simp [hkey]
      · next hkey => rwa [List.lookup_cons, beq_eq_false_iff_ne.2 (Ne.symm hkey)]

theorem find?_insert_of_ne
    (h : other ≠ name) :
    Json.find? (Json.insert members name v) other = Json.find? members other := by
  have hother : (other == name) = false := beq_eq_false_iff_ne.2 h
  simp only [Json.find?]
  induction members with
  | nil => simp [Json.insert, List.lookup_cons, hother]
  | cons member rest ih =>
      obtain ⟨key, old⟩ := member
      rw [Json.insert]
      split
      · next hkey => simp [List.lookup_cons, hkey, hother]
      · rw [List.lookup_cons, List.lookup_cons, ih]

end Members

section Elements

variable {α β ε : Type}
variable {f : α → Except ε β}
variable {before after : List α}
variable {a a' : α}

/-- An element that is decoded to another value is decoded so in its place. -/
theorem mapInOrder_modify
    {b : β}
    {g : β → β}
    (ha : f a = .ok b)
    (ha' : f a' = .ok (g b)) :
    mapInOrder f (before ++ a' :: after) =
      (mapInOrder f (before ++ a :: after)).map (·.modify before.length g) := by
  induction before with
  | nil =>
      simp only [List.nil_append, mapInOrder, ha, ha']
      cases mapInOrder f after <;> rfl
  | cons first rest ih =>
      simp only [List.cons_append, mapInOrder, ih]
      cases f first with
      | error e => rfl
      | ok b =>
          cases mapInOrder f (rest ++ a :: after) <;> rfl

theorem mapInOrder_congr
    (h : f a' = f a) :
    mapInOrder f (before ++ a' :: after) = mapInOrder f (before ++ a :: after) := by
  induction before with
  | nil => simp only [List.nil_append, mapInOrder, h]
  | cons first rest ih => simp only [List.cons_append, mapInOrder, ih]

end Elements

namespace ImagePlace

variable (p : ImagePlace)
variable (v : Json)

/-- The members but the columns are those of the message. -/
theorem find?_message
    {name : String}
    (h : name ≠ "columns") :
    Json.find? (p.message v) name = Json.find? p.members name :=
  find?_insert_of_ne (by simpa using h)

theorem columnElements_message :
    columnElements (.object (p.message v)) = .ok (p.elements v) := by
  simp [columnElements, Json.optionalMember, message, find?_insert_self, Json.elements, bind,
    Except.bind]

/-- No image is a part of the description of a column. -/
theorem ofMessage_column :
    Column.ofMessage (.object (Json.insert p.column p.side.name v)) =
      Column.ofMessage (.object p.column) := by
  have hname : ("name" : Text) ≠ p.side.name := by cases p.side <;> decide
  have htype : ("type" : Text) ≠ p.side.name := by cases p.side <;> decide
  have hkey : ("key" : Text) ≠ p.side.name := by cases p.side <;> decide
  simp only [Column.ofMessage, Json.member, Json.optionalMember, find?_insert_of_ne hname,
    find?_insert_of_ne htype, find?_insert_of_ne hkey]

/-- The images of the column, that at the place put on its side. -/
theorem ofMessage_images :
    ∃ images : Images,
      ∀ v,
        Images.ofMessage (.object (Json.insert p.column p.side.name v)) =
          .ok (images.put p.side (Image.ofJson v)) := by
  refine ⟨⟨Image.ofMember p.column "before", Image.ofMember p.column "after"⟩, fun v => ?_⟩
  have hsides : ("before" : Text) ≠ "after" := by decide
  cases hside : p.side <;>
    simp [Images.ofMessage, Image.ofMember, Images.put, Side.name, find?_insert_self,
      find?_insert_of_ne hsides, find?_insert_of_ne hsides.symm]

theorem table_message :
    Table.ofMessage (.object (p.message v)) = Table.ofMessage (.object (p.message .null)) := by
  have hcolumns :
      mapInOrder Column.ofMessage (p.elements v) =
        mapInOrder Column.ofMessage (p.elements .null) :=
    mapInOrder_congr (by rw [p.ofMessage_column, p.ofMessage_column])
  have hname (w : Json) :
      (Json.object (p.message w)).member "table" = (Json.object p.members).member "table" := by
    simp only [Json.member, p.find?_message w (by decide : "table" ≠ "columns")]
  simp only [Table.ofMessage, hname, p.columnElements_message, bind, Except.bind, hcolumns]

theorem change_message :
    Change.ofMessage (.object (p.message v)) =
      (Change.ofMessage (.object (p.message .null))).map
        (·.put p.index p.side (Image.ofJson v)) := by
  obtain ⟨images, himages⟩ := p.ofMessage_images
  have hput (image : Image) :
      (images.put p.side .null).put p.side image = images.put p.side image := by
    cases p.side <;> rfl
  have hcolumns :
      mapInOrder Images.ofMessage (p.elements v) =
        (mapInOrder Images.ofMessage (p.elements .null)).map
          (·.modify p.index (·.put p.side (Image.ofJson v))) :=
    mapInOrder_modify (himages .null) (by rw [himages v]; exact congrArg _ (hput _).symm)
  have hmember {name : String} (hname : name ≠ "columns") (w : Json) :
      (Json.object (p.message w)).member name = (Json.object p.members).member name := by
    simp only [Json.member, p.find?_message w hname]
  have hoptional {name : String} (hname : name ≠ "columns") (w : Json) :
      (Json.object (p.message w)).optionalMember name =
        (Json.object p.members).optionalMember name := by
    simp only [Json.optionalMember, p.find?_message w hname]
  have htext {name : String} (hname : name ≠ "columns") (w : Json) :
      Change.textMember (.object (p.message w)) name =
        Change.textMember (.object p.members) name := by
    simp only [Change.textMember, hoptional hname]
  simp only [Change.ofMessage, hmember (by decide : "table" ≠ "columns"),
    htext (by decide : "op_type" ≠ "columns"), htext (by decide : "op_ts" ≠ "columns"),
    htext (by decide : "pos" ≠ "columns"), hoptional (by decide : "tokens" ≠ "columns"),
    p.columnElements_message, bind, Except.bind, hcolumns]
  -- Whatever fails before and after the columns fails with both values.
  cases Change.textMember (.object p.members) "op_type" with
  | error fault => rfl
  | ok code =>
  cases (Json.object p.members).member "table" with
  | error fault => rfl
  | ok table =>
  cases mapInOrder Images.ofMessage (p.elements .null) with
  | error fault => rfl
  | ok columns =>
  cases Change.textMember (.object p.members) "op_ts" with
  | error fault => rfl
  | ok time =>
  cases Change.textMember (.object p.members) "pos" with
  | error fault => rfl
  | ok position =>
  cases (Json.object p.members).optionalMember "tokens" with
  | error fault => rfl
  | ok tokens =>
  simp only
  cases (tokens.getD .null).membersIfAny <;> rfl

/-- A message with a value at a place is decoded as with null there, the image of the value put. -/
theorem ofObject_message :
    Message.ofObject (p.message v) =
      (Message.ofObject (p.message .null)).map (·.put p.index p.side (Image.ofJson v)) := by
  simp only [Message.ofObject, p.find?_message _ (by decide : "ddl" ≠ "columns"),
    p.table_message v, p.change_message v]
  cases (Json.find? p.members "ddl").getD .null with
  | null =>
      simp only [bind, Except.bind]
      cases Table.ofMessage (.object (p.message .null)) with
      | error fault => rfl
      | ok table => cases Change.ofMessage (.object (p.message .null)) <;> rfl
  | _ =>
      simp only [bind, Except.bind]
      split <;> rfl

/-- The change of a message has the image of the value at the place, for a column of the table. -/
theorem on_of_ofObject
    {change : Change}
    {table : Table}
    (h : Message.ofObject (p.message v) = .ok (.change change table)) :
    ∃ column images,
      table.columns[p.index]? = some column ∧
        change.columns[p.index]? = some images ∧
        images.on p.side = Image.ofJson v := by
  have hlength := Message.length_columns_ofObject h
  rw [p.ofObject_message] at h
  cases hnull : Message.ofObject (p.message .null) with
  | error fault =>
      rw [hnull] at h
      contradiction
  | ok message =>
      rw [hnull] at h
      cases message with
      | notice asked => cases h
      | change row described =>
          cases h
          obtain ⟨elements, helements, hrow⟩ :=
            Change.forall₂_columns_ofMessage (Message.ofMessage_of_ofObject hnull).2
          rw [p.columnElements_message] at helements
          cases helements
          have hindex : p.index < row.columns.length := by
            rw [← hrow.length_eq, elements, List.length_append, List.length_cons, index]
            omega
          rw [Change.put, List.length_modify] at hlength
          refine
            ⟨_, _, List.getElem?_eq_getElem (hlength ▸ hindex),
              (List.getElem?_modify_eq ..).trans
                (congrArg (Option.map _) (List.getElem?_eq_getElem hindex)), ?_⟩
          exact Images.on_put _ _ _

end ImagePlace

end ChangeFeed
