import ChangeFeed.Column.TypeClass
import ChangeFeed.Json.Basic

/-!
# Values of columns

A value that the text of a column was read as. Singles are kept as singles and
widened only where they are written.
-/

namespace ChangeFeed

/-- A typed value of a column. -/
inductive Value where
  | text (s : Text)
  | integer (n : Int)
  | double (x : Number.Double)
  | single (x : Number.Single)
  | boolean (b : Bool)
deriving DecidableEq

namespace Value

/-- The JSON value that a value is written as. -/
def toJson : Value → Json
  | .text s => .text s
  | .integer n => .integer n
  | .double x => .number x
  | .single x => .number (x.convert .binary64)
  | .boolean b => .bool b

end Value
end ChangeFeed
