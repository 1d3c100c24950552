import ChangeFeed.Change
import ChangeFeed.Json.Display
import ChangeFeed.Message.Fields
import ChangeFeed.Table
import ChangeFeed.Column.TypeClass

/-!
# Tables and changes in messages

A message describes a table under `table` and `columns`, and the change of a row
of it under `op_type`, `op_ts`, `pos`, `tokens` and the same `columns`, whose
elements carry the images under `before` and `after`. A missing image was not
captured and a null one was captured as null; every other value is kept as its
text.
-/

namespace ChangeFeed

/-- Applies `f` to each element in order, up to the first that fails. -/
def mapInOrder {α β ε : Type} (f : α → Except ε β) : List α → Except ε (List β)
  | [] => .ok []
  | a :: rest =>
      match f a with
      | .error e => .error e
      | .ok b =>
          match mapInOrder f rest with
          | .error e => .error e
          | .ok bs => .ok (b :: bs)

/-- The elements of the member `columns`, none if it is missing. -/
def columnElements (message : Json) : Except Fault (List Json) := do
  match ← message.optionalMember "columns" with
  | some columns => columns.elements
  | none => .ok []

namespace Column

/-- The description of a column in a message. -/
def ofMessage (v : Json) : Except Fault Column := do
  let name ← v.member "name"
  let code ←
    match ← v.optionalMember "type" with
    | some code => code.toInteger
    | none => .ok TypeClass.defaultCode
  let key ← v.optionalMember "key"
  .ok
    { name := name
      code := code
      isKey := (key.map Json.isTruthy).getD false }

end Column

namespace Table

/-- The description of a table in a message. -/
def ofMessage (message : Json) : Except Fault Table := do
  let name ← message.member "table"
  let elements ← columnElements message
  let columns ← mapInOrder Column.ofMessage elements
  .ok
    { name := name
      columns := columns }

end Table

namespace Image

/-- The image that a value stands for. -/
def ofJson : Json → Image
  | .null => .null
  | .bool b => .captured ↑(if b then "true" else "false")
  | v => .captured v.display

/-- The image under a name of an object. -/
def ofMember (members : List (Text × Json)) (name : String) : Image :=
  match Json.find? members name with
  | some v => ofJson v
  | none => .absent

end Image

namespace Images

/-- Whether a text occurs in another. -/
def occursIn (part : List Char) : List Char → Bool
  | [] => part.isEmpty
  | c :: rest => part.isPrefixOf (c :: rest) || occursIn part rest

/-- Whether a value is a given text. -/
def isText (s : String) : Json → Bool
  | .text t => t = s
  | _ => false

/--
The images of a column in a message. An array or a text that does not contain
the name of a side has no images; one that does cannot be asked for it.
-/
def ofMessage (v : Json) : Except Fault Images :=
  match v with
  | .object members =>
      .ok
        { before := Image.ofMember members "before"
          after := Image.ofMember members "after" }
  | .array items =>
      if items.any (isText "before") || items.any (isText "after") then
        .error (.notSubscriptable v.kind)
      else
        .ok ⟨.absent, .absent⟩
  | .text s =>
      if occursIn "before".toList s.shown.toList || occursIn "after".toList s.shown.toList then
        .error (.notSubscriptable v.kind)
      else
        .ok ⟨.absent, .absent⟩
  | _ => .error (.notContainer v.kind)

end Images

namespace Change

/-- The text of an optional member, empty if it is missing. -/
def textMember (message : Json) (name : String) : Except Fault Text := do
  match ← message.optionalMember name with
  | some v => .ok v.display
  | none => .ok ""

/-- The change of a row in a message. -/
def ofMessage (message : Json) : Except Fault Change := do
  let code ← textMember message "op_type"
  let table ← message.member "table"
  let elements ← columnElements message
  let columns ← mapInOrder Images.ofMessage elements
  let time ← textMember message "op_ts"
  let position ← textMember message "pos"
  let tokens ← ((← message.optionalMember "tokens").getD .null).membersIfAny
  .ok
    { kind := ChangeKind.ofCode code
      code := code
      table := table
      columns := columns
      time := time
      position := position
      tokens := tokens.map fun token => (token.1, token.2.display) }

end Change

end ChangeFeed
