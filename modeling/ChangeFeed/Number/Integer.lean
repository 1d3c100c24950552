import ChangeFeed.Number.Digits
import ChangeFeed.Text.Blank
import ChangeFeed.Text.DecimalDigit

/-!
# Integers in texts

Two grammars of decimal integers. The strict one reads an optional sign and
ASCII digits and nothing else; captured images use it. The lenient one also
allows blanks around, single underscores between digits and the digits of all
scripts; type codes written as texts use it. Both refuse more than
`digitLimit` digits.
-/

namespace ChangeFeed
namespace Number
namespace Integer

/-- The greatest number of digits that is read, leading zeros included. -/
def digitLimit : Nat := 4300

/-- The integer that an optional sign and decimal digits spell. -/
def ofChars? (text : List Char) : Option Int :=
  let (negative, digits) := takeSign text
  if digits.isEmpty || !digits.all isDigit || digitLimit < digits.length then
    none
  else
    some (signedInt negative (ofDigits 10 digits))

/-- Why a text is no integer in the lenient grammar. -/
inductive Fault where
  | malformed
  | tooLong (digits : Nat)
deriving DecidableEq

/--
A blank that may surround a lenient integer. The information separators, which
are blank elsewhere, may not.
-/
def isMargin (c : Char) : Bool :=
  Text.isBlank c && !('\x1c' ≤ c && c ≤ '\x1f')

/-- Whether each underscore of a run stands between two digits, the first excepted. -/
def separates : List Char → Bool
  | [] => true
  | ['_'] => false
  | '_' :: '_' :: _ => false
  | _ :: rest => separates rest

/-- The integer that a text spells in the lenient grammar. -/
def read (text : String) : Except Fault Int :=
  let (negative, body) := takeSign (text.toList.dropWhile isMargin)
  let inRun (c : Char) : Bool := c = '_' || (Text.decimalValue? c).isSome
  let run := body.takeWhile inRun
  let digits := run.filterMap Text.decimalValue?
  let after := (body.dropWhile inRun).dropWhile isMargin
  if run.head? = some '_' || !separates run then
    .error .malformed
  else if digitLimit < digits.length then
    .error (.tooLong digits.length)
  else if run.isEmpty || !after.isEmpty then
    .error .malformed
  else
    .ok (signedInt negative (digits.foldl (fun n d => n * 10 + d) 0))

end Integer
end Number
end ChangeFeed
