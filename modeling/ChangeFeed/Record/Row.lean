import ChangeFeed.Record.Basic
import ChangeFeed.Schema.Build

/-!
# Records as rows

A record is put into the fields of a schema of its table, which may have been built
from an earlier description. This is the work of Arrow, and nothing is said here
about how it does it: an `Arrow` is any way of making rows of the members of a record
or of a key record. It is faithful if it keeps what fits the fields as it is, makes
null of what is missing, and fails where something does not fit.
-/

namespace ChangeFeed

/-- The text that a JSON value is, if it is one. -/
def Json.text? : Json → Option Text
  | .text s => some s
  | _ => none

/-- What a record has under the name of a member. -/
inductive Datum where
  | json (v : Json)
  | pairs (items : List (Text × Text))
  | block (block : Block)

/-- The content of a field of a row. -/
inductive Cell where
  | null
  | value (v : Value)
  | texts (items : List (Option Text))
  | pairs (items : List (Text × Text))
  | row (fields : List (String × Option Value))

/-- Why a record cannot be made a row. -/
inductive Misfit where
  /-- A value cannot be converted to the type of its field. -/
  | invalid
  /-- A field takes no value of this kind: a text takes texts only, an integer no booleans. -/
  | wrongKind
  /-- A text is torn. -/
  | unencodable
  /-- Two columns of one side have the same name. -/
  | repeatedName
deriving DecidableEq

/-- The wording of a misfit, for those that have one of their own. -/
def Misfit.message : Misfit → Option String
  | .repeatedName =>
      some
        ("Converting to Python dictionary is not supported when duplicate field names " ++
          "are present")
  | _ => none

namespace Record

/-- The members of a record, which its rows are made of. -/
def members (record : Record) : List (String × Datum) :=
  let side (side : Side) : Datum := ((record.on side).map Datum.block).getD (.json .null)
  [("table", .json (.text record.table)), ("op_type", .json record.key),
    ("op_ts", .json (.text record.time)), ("current_ts", .json (.text record.stamp)),
    ("pos", .json (.text record.position)),
    ("primary_keys", .json ((record.keyNames.map Json.array).getD .null)),
    ("tokens", (record.tokens.map Datum.pairs).getD (.json .null)),
    ("source", .block (record.source.map fun entry => (.text entry.1, entry.2))),
    ("before", side .before), ("after", side .after)]

end Record

/-- A way of making rows in the fields of a schema, and of reading them back. -/
structure Arrow where
  /-- The row of the members of a record. -/
  record : List Schema.Field → List (String × Datum) → Except Misfit (List (String × Cell))
  /-- The row of a key record. -/
  key : List Schema.ScalarField → Block → Except Misfit (List (String × Option Value))

namespace Schema

/-- Whether a value is of another kind than a type, or of the kind and out of its range. -/
def ScalarType.refuses : ScalarType → Value → Bool
  | .string, .text s => s.string?.isNone
  | .string, _ => true
  | _, .text _ => true
  | .int32, .integer n => n < -2147483648 || 2147483647 < n
  | .int64, .integer n => n < -9223372036854775808 || 9223372036854775807 < n
  | _, _ => false

/-- The cell that a field makes of what it holds, as it is. -/
def FieldType.cell : FieldType → Datum → Cell
  | .scalar _, .json (.text s) => .value (.text s)
  | .textList, .json (.array items) => .texts (items.map Json.text?)
  | .textMap, .pairs items => .pairs items
  | .row fields, .block block => .row (fields.map fun field => (field.name, block.find? field.name))
  | _, _ => .null

/-- Whether the names inside a field are distinct, as they have to be to be read back. -/
def FieldType.NamesDistinct : FieldType → Prop
  | .row fields => (fields.map ScalarField.name).Nodup
  | _ => True

/-- What a field holds as it is: null, and values of the kind and in the range of its type. -/
def FieldType.Holds : FieldType → Datum → Prop
  | _, .json .null => True
  | .scalar type, .json (.text s) => type.holds (.text s) = true
  | .textList, .json (.array items) => ∀ item ∈ items, ∃ s : String, item = .text s
  | .textMap, .pairs items => ∀ pair ∈ items, pair.1.string?.isSome ∧ pair.2.string?.isSome
  | .row fields, .block block =>
      ∀ field ∈ fields, ∀ v, block.find? field.name = some v → field.type.holds v = true
  | _, _ => False

/-- What does not fit a field: it has a value that the type of its place refuses. -/
def FieldType.Refuses : FieldType → Datum → Prop
  | .scalar type, .json (.text s) => type.refuses (.text s) = true
  | .textList, .json (.array items) => ∃ s : Text, .text s ∈ items ∧ s.string? = none
  | .textMap, .pairs items => ∃ pair ∈ items, pair.1.string? = none ∨ pair.2.string? = none
  | .row fields, .block block =>
      ∃ field ∈ fields, ∃ v, block.find? field.name = some v ∧ field.type.refuses v = true
  | _, _ => False

end Schema

end ChangeFeed
