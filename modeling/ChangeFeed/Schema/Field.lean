import ChangeFeed.Column.Value

/-!
# Fields of schemas

A schema is a list of named fields, of the types of Arrow. The columns of a table
are scalar fields; a record has texts, a list of texts, a map of texts and rows of
scalar fields. The type of the field of a column depends on the class of its code
and is looked up here, apart from how the texts of the class are read.
-/

namespace ChangeFeed
namespace Schema

/-- The types of scalar fields. -/
inductive ScalarType where
  | float64
  | int32
  | int64
  | float32
  | bool
  | string
deriving DecidableEq

namespace ScalarType

/-- The word for a type. -/
def name : ScalarType → String
  | .float64 => "double"
  | .int32 => "int32"
  | .int64 => "int64"
  | .float32 => "float"
  | .bool => "bool"
  | .string => "string"

/-- The type of the fields of a class. -/
def ofClass : TypeClass → ScalarType
  | .double => .float64
  | .int32 => .int32
  | .int64 => .int64
  | .single => .float32
  | .boolean => .bool
  | .text => .string

/-- The type of the field of a code, a text whatever the code if all columns are kept as texts. -/
def ofCode (asText : Bool) (code : Int) : ScalarType :=
  if asText then .string else ofClass (.ofCode code)

/-- Whether a value is of the kind of the type and in its range. Torn texts are out of range. -/
def holds : ScalarType → Value → Bool
  | .float64, .double _ => true
  | .float32, .single _ => true
  | .int32, .integer n => -2147483648 ≤ n && n ≤ 2147483647
  | .int64, .integer n => -9223372036854775808 ≤ n && n ≤ 9223372036854775807
  | .bool, .boolean _ => true
  | .string, .text s => s.string?.isSome
  | _, _ => false

end ScalarType

/-- A named field of a row of columns. -/
structure ScalarField where
  name : String
  type : ScalarType
  nullable : Bool
deriving DecidableEq

/-- A field that may be null. -/
def ScalarField.of (name : String) (type : ScalarType) : ScalarField :=
  { name := name
    type := type
    nullable := true }

/-- The type of a field of a record. -/
inductive FieldType where
  | scalar (type : ScalarType)
  | textList
  | textMap
  | row (fields : List ScalarField)
deriving DecidableEq

/-- A named field of a record. -/
structure Field where
  name : String
  type : FieldType
  nullable : Bool
deriving DecidableEq

/-- A field of a record that may be null. -/
def Field.of (name : String) (type : FieldType) : Field :=
  { name := name
    type := type
    nullable := true }

end Schema
end ChangeFeed
