import ChangeFeed.Record.Row

/-!
# Rows as they are observed

A way of making rows that does what Arrow was seen to do, also where values do not
fit their fields as they are: an integer field takes numbers without their fraction
but no booleans, a floating-point field takes booleans and the integers that its
significand can hold, and texts stand only in fields of texts, if they are whole. A
value that has no field is dropped. In the row of a key record a repeated name has one
place; in that of a record the columns of a side cannot be told apart if a name repeats.
-/

namespace ChangeFeed
namespace Observed

open Schema (ScalarType ScalarField FieldType Field)

/-- The number of a value without its fraction. -/
def wholePart? : Value → Option Int
  | .integer n => some n
  | .double x => x.truncate?
  | .single x => x.truncate?
  | _ => none

/-- A number in a field of integers. -/
def fitInteger (low high : Int) (v : Value) : Except Misfit Value :=
  match v with
  | .boolean _ => .error .wrongKind
  | _ =>
      match wholePart? v with
      | some n => if low ≤ n ∧ n ≤ high then .ok (.integer n) else .error .invalid
      | none => .error .invalid

/-- An integer as a floating-point value, if the significand can hold it. -/
def exactFloating (f : Number.Format) (n : Int) : Except Misfit (Number.Floating f) :=
  if n.natAbs ≤ Nat.pow 2 f.precision then
    .ok (f.nearest (n < 0) n.natAbs)
  else
    .error .invalid

/-- A number or a boolean in a field of floating-point values. -/
def fitFloating (f : Number.Format) (v : Value) : Except Misfit (Number.Floating f) :=
  match v with
  | .double x => .ok (x.convert f)
  | .single x => .ok (x.convert f)
  | .integer n => exactFloating f n
  | .boolean b => exactFloating f (if b then 1 else 0)
  | .text _ => .error .invalid

/-- A text in a field of texts. -/
def fitText (s : Text) : Except Misfit Text :=
  if s.string?.isSome then .ok s else .error .unencodable

/-- The value as it stands in a field of a type. -/
def fit (type : ScalarType) (v : Value) : Except Misfit Value :=
  match type with
  | .float64 => (fitFloating .binary64 v).map .double
  | .float32 => (fitFloating .binary32 v).map .single
  | .int32 => fitInteger (-2147483648) 2147483647 v
  | .int64 => fitInteger (-9223372036854775808) 9223372036854775807 v
  | .bool =>
      match v with
      | .boolean b => .ok (.boolean b)
      | _ => .error .invalid
  | .string =>
      match v with
      | .text s => (fitText s).map .text
      | _ => .error .wrongKind

/-- A block in the fields of a row. -/
def rowOf (block : Block) : List ScalarField → Except Misfit (List (String × Option Value))
  | [] => .ok []
  | field :: rest =>
      match block.find? field.name with
      | none => do
          let others ← rowOf block rest
          .ok ((field.name, none) :: others)
      | some v => do
          let fitted ← fit field.type v
          let others ← rowOf block rest
          .ok ((field.name, some fitted) :: others)

/-- The fields with `cell` under `name`, in place if the name is there. -/
def putCell
    (row : List (String × Option Value))
    (name : String)
    (cell : Option Value) : List (String × Option Value) :=
  match row with
  | [] => [(name, cell)]
  | (key, old) :: rest =>
      if key = name then
        (key, cell) :: rest
      else
        (key, old) :: putCell rest name cell

/-- A key record in the fields of a key schema; a repeated name has one place. -/
def keyRowOf
    (fields : List ScalarField)
    (block : Block) : Except Misfit (List (String × Option Value)) :=
  (rowOf block fields).map fun row => row.foldl (fun acc cell => putCell acc cell.1 cell.2) []

/-- The value of a JSON value that is no array and no object. -/
def scalar? : Json → Option Value
  | .bool b => some (.boolean b)
  | .integer n => some (.integer n)
  | .number x => some (.double x)
  | .text s => some (.text s)
  | _ => none

/-- A JSON value in a scalar field. -/
def scalarCell (type : ScalarType) (v : Json) : Except Misfit Cell :=
  match scalar? v with
  | some value => (fit type value).map .value
  | none => .error .wrongKind

/-- JSON values in a field of lists of texts. -/
def textsOf : List Json → Except Misfit (List (Option Text))
  | [] => .ok []
  | .null :: rest => do
      let others ← textsOf rest
      .ok (none :: others)
  | .text s :: rest => do
      let first ← fitText s
      let others ← textsOf rest
      .ok (some first :: others)
  | _ :: _ => .error .wrongKind

/-- Pairs of texts in a field of maps of texts. -/
def pairsOf : List (Text × Text) → Except Misfit (List (Text × Text))
  | [] => .ok []
  | (name, text) :: rest => do
      let name ← fitText name
      let text ← fitText text
      let others ← pairsOf rest
      .ok ((name, text) :: others)

/-- What stands in a field for a member of a record. -/
def cellOf (type : FieldType) (datum : Datum) : Except Misfit Cell :=
  match type, datum with
  | _, .json .null => .ok .null
  | .scalar type, .json v => scalarCell type v
  | .textList, .json (.array items) => (textsOf items).map .texts
  | .textMap, .pairs items => (pairsOf items).map .pairs
  | .row fields, .block block => (rowOf block fields).map .row
  | _, _ => .error .wrongKind

/-- Whether the names of all rows inside a row differ, so that they can be read back. -/
def distinctNames (fields : List Field) : Bool :=
  fields.all fun field =>
    match field.type with
    | .row columns => decide (columns.map ScalarField.name).Nodup
    | _ => true

/-- The cells of members in the fields of a schema. -/
def cellsOf (members : List (String × Datum)) :
    List Field → Except Misfit (List (String × Cell))
  | [] => .ok []
  | field :: rest =>
      match members.lookup field.name with
      | none => do
          let others ← cellsOf members rest
          .ok ((field.name, .null) :: others)
      | some datum => do
          let cell ← cellOf field.type datum
          let others ← cellsOf members rest
          .ok ((field.name, cell) :: others)

/-- The row of members in the fields of a schema. -/
def recordRowOf
    (fields : List Field)
    (members : List (String × Datum)) : Except Misfit (List (String × Cell)) := do
  let cells ← cellsOf members fields
  if distinctNames fields then .ok cells else .error .repeatedName

/-- Arrow as it is observed. -/
def arrow : Arrow where
  record := recordRowOf
  key := keyRowOf

end Observed
end ChangeFeed
