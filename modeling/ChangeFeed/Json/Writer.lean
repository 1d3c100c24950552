import ChangeFeed.Json.Basic
import ChangeFeed.Number.Shortest
import ChangeFeed.Text.Quoted

/-!
# Writing JSON

The written form of a value is ASCII on one line: items and members are
separated by a comma and a space, a name is followed by a colon and a space, and
every character outside the printable ASCII ones is escaped, those beyond the
basic plane as a pair and a half of a pair as it stands. Numbers have the shortest
text that reads back; the ones that are not finite are written as words, which
strict JSON does not know. `strict` puts texts in their place.
-/

namespace ChangeFeed
namespace Json

namespace Writer

/-- One code unit as an escape. -/
def unitEscape (unit : UInt16) : List Char :=
  Text.backslash :: 'u' :: Text.hex 4 unit.toNat

/-- The written form of a character inside a string. -/
def escapeChar (c : Char) : List Char :=
  if c = Text.doubleQuote || c = Text.backslash then [Text.backslash, c]
  else if c = '\n' then [Text.backslash, 'n']
  else if c = '\r' then [Text.backslash, 'r']
  else if c = '\t' then [Text.backslash, 't']
  else if c = '\x08' then [Text.backslash, 'b']
  else if c = '\x0c' then [Text.backslash, 'f']
  else if 0x20 ≤ c.toNat && c.toNat < 0x7F then [c]
  else (Symbol.unitsOfChar c).flatMap unitEscape

/-- The written form of a symbol inside a string. -/
def escapeSymbol : Symbol → List Char
  | .char c => escapeChar c
  | .half unit => unitEscape unit

/-- The written form of a string. -/
def string (s : Text) : List Char :=
  Text.doubleQuote :: (s.symbols.flatMap escapeSymbol ++ [Text.doubleQuote])

theorem string_whole (s : String) :
    string (.whole s) =
      Text.doubleQuote :: (s.toList.flatMap escapeChar ++ [Text.doubleQuote]) := by
  rw [string, Text.symbols, List.flatMap_map]
  rfl

/-- The written form of an integer. -/
def integer (n : Int) : List Char :=
  let digits := Nat.toDigits 10 n.natAbs
  if n < 0 then '-' :: digits else digits

/-- The word for a number that is not finite. -/
def nonFiniteWord? : Number.Double → Option String
  | .nan => some "NaN"
  | .infinite negative => some (if negative then "-Infinity" else "Infinity")
  | .finite .. => none

/-- The written form of a number. -/
def number (x : Number.Double) : List Char :=
  ((nonFiniteWord? x).getD x.text).toList

end Writer

mutual

/-- The written form of a value. -/
def write : Json → List Char
  | .null => "null".toList
  | .bool b => if b then "true".toList else "false".toList
  | .integer n => Writer.integer n
  | .number x => Writer.number x
  | .text s => Writer.string s
  | .array items => '[' :: writeItems items
  | .object members => '\x7b' :: writeMembers members

/-- The written form of the items of an array, closing bracket included. -/
def writeItems : List Json → List Char
  | [] => [']']
  | [item] => write item ++ [']']
  | item :: rest => write item ++ ',' :: ' ' :: writeItems rest

/-- The written form of the members of an object, closing brace included. -/
def writeMembers : List (Text × Json) → List Char
  | [] => ['\x7d']
  | [(name, v)] => Writer.string name ++ ':' :: ' ' :: (write v ++ ['\x7d'])
  | (name, v) :: rest =>
      Writer.string name ++ ':' :: ' ' :: (write v ++ ',' :: ' ' :: writeMembers rest)

end

mutual

/-- The value with texts in place of the numbers that are not finite. -/
def strict : Json → Json
  | .number x =>
      match Writer.nonFiniteWord? x with
      | some word => .text word
      | none => .number x
  | .array items => .array (strictItems items)
  | .object members => .object (strictMembers members)
  | v => v

/-- The items with texts in place of the numbers that are not finite. -/
def strictItems : List Json → List Json
  | [] => []
  | item :: rest => strict item :: strictItems rest

/-- The members with texts in place of the numbers that are not finite. -/
def strictMembers : List (Text × Json) → List (Text × Json)
  | [] => []
  | (name, v) :: rest => (name, strict v) :: strictMembers rest

end

end Json
end ChangeFeed
