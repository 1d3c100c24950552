/-!
# Classes of column types

The capture layer reports the type of a column as an integer code. Each code
falls into one of six classes, which decides how the texts of the column are
read; a code that is not known means text.
-/

namespace ChangeFeed

/-- The kind of value that the texts of a column are read as. -/
inductive TypeClass where
  | double
  | int32
  | int64
  | single
  | boolean
  | text
deriving DecidableEq

namespace TypeClass

/-- The word for a class. -/
def name : TypeClass → String
  | .double => "double"
  | .int32 => "int32"
  | .int64 => "int64"
  | .single => "float32"
  | .boolean => "boolean"
  | .text => "string"

/-- The codes that are read otherwise than as texts, by class. -/
def codes : TypeClass → List Int
  | .double => [2, 8]
  | .int32 => [-7, -6, 4, 5]
  | .int64 => [-5]
  | .single => [6, 7]
  | .boolean => [16]
  | .text => []

/-- The class of a type code. -/
def ofCode (code : Int) : TypeClass :=
  if code ∈ codes .double then .double
  else if code ∈ codes .int32 then .int32
  else if code ∈ codes .int64 then .int64
  else if code ∈ codes .single then .single
  else if code ∈ codes .boolean then .boolean
  else .text

/-- The code of a column whose type is not given. -/
def defaultCode : Int := 12

end TypeClass
end ChangeFeed
