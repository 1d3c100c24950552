import ChangeFeed.Json.Basic
import ChangeFeed.Number.Integer
import ChangeFeed.Number.Literal
import ChangeFeed.Text.Quoted

/-!
# Reading JSON

The reader takes one value from the front of a text and hands back the rest; a
whole text is one value between spaces. Beside the standard grammar it reads the
words `NaN`, `Infinity` and `-Infinity`. Control characters inside strings are
refused, and so is a byte order mark. A number without point and exponent is an
integer, which is refused with a cause of its own when it has too many digits; so is
an array or object inside too many others. The first cause from the left counts.
-/

namespace ChangeFeed
namespace Json

open Number (Literal isDigit ofDigits signedInt signedRun?)

/-- What is wrong where a text stops being JSON. -/
inductive Problem where
  | value
  | memberName
  | colon
  | comma
  | unterminated
  | control
  | escape
  | unitEscape
  | excess
  | byteOrderMark
deriving DecidableEq

/-- The wording of a problem. -/
def Problem.wording : Problem → String
  | .value => "Expecting value"
  | .memberName => "Expecting property name enclosed in double quotes"
  | .colon => "Expecting ':' delimiter"
  | .comma => "Expecting ',' delimiter"
  | .unterminated => "Unterminated string starting at"
  | .control => "Invalid control character at"
  | .escape => "Invalid \\escape"
  | .unitEscape => "Invalid \\uXXXX escape"
  | .excess => "Extra data"
  | .byteOrderMark => "Unexpected UTF-8 BOM (decode using utf-8-sig)"

/-- Why a text is no JSON value. -/
inductive ReadFault where
  /-- The text is not JSON; `left` characters are left at the place that shows it. -/
  | malformed (problem : Problem) (left : Nat)
  | integerTooLong (digits : Nat)
  | tooDeep
deriving DecidableEq

/-- What a reader returns: the value and the text after it. -/
abbrev Reading (α : Type) := Except ReadFault (α × List Char)

/-- The four characters that may stand between tokens. -/
def isSpace (c : Char) : Bool :=
  c = ' ' || c = '\t' || c = '\n' || c = '\r'

/-- The text after its leading spaces. -/
def skipSpace (cs : List Char) : List Char :=
  cs.dropWhile isSpace

namespace Reader

/-- The character that a one-letter escape stands for. -/
def simpleEscape? (c : Char) : Option Char :=
  if c = Text.doubleQuote || c = Text.backslash || c = '/' then some c
  else if c = 'b' then some '\x08'
  else if c = 'f' then some '\x0c'
  else if c = 'n' then some '\n'
  else if c = 'r' then some '\r'
  else if c = 't' then some '\t'
  else none

/-- The code unit that four hexadecimal digits stand for. -/
def codeUnit? (digits : List Char) : Option UInt16 :=
  if digits.all Number.isHexDigit then some (.ofNat (ofDigits 16 digits)) else none

/-- What is read after these code units were. -/
def prepend (front : List UInt16) : Reading (List UInt16) → Reading (List UInt16)
  | .ok (units, after) => .ok (front ++ units, after)
  | .error fault => .error fault

/--
Reads the code units of a string up to its closing quote. At the opening quote there
were `start` characters left. After the four digits of a code unit the text has to go on.
-/
def units (start : Nat) : List Char → Reading (List UInt16)
  | [] => .error (.malformed .unterminated start)
  | c :: rest =>
      if c = Text.doubleQuote then
        .ok ([], rest)
      else if c = Text.backslash then
        match rest with
        | [] => .error (.malformed .unterminated start)
        | 'u' :: h₃ :: h₂ :: h₁ :: h₀ :: next :: rest =>
            match codeUnit? [h₃, h₂, h₁, h₀] with
            | some unit => prepend [unit] (units start (next :: rest))
            | none => .error (.malformed .unitEscape (rest.length + 6))
        | 'u' :: rest => .error (.malformed .unitEscape (rest.length + 1))
        | e :: rest =>
            match simpleEscape? e with
            | some c => prepend (Symbol.unitsOfChar c) (units start rest)
            | none => .error (.malformed .escape (rest.length + 2))
      else if c.toNat < 0x20 then
        .error (.malformed .control (rest.length + 1))
      else
        prepend (Symbol.unitsOfChar c) (units start rest)

/-- Reads a string whose opening quote has been taken. -/
def string (cs : List Char) : Reading Text :=
  match units (cs.length + 1) cs with
  | .ok (units, after) => .ok (Text.ofUnits units, after)
  | .error fault => .error fault

/-- The digits before the point: one zero, or digits that start with another. -/
def wholeDigits (cs : List Char) : List Char :=
  match cs with
  | '0' :: _ => ['0']
  | _ => cs.takeWhile isDigit

/-- The digits after a point, if a digit follows the point, and the text after them. -/
def fractionDigits (cs : List Char) : List Char × List Char :=
  match cs with
  | '.' :: rest =>
      if (rest.takeWhile isDigit).isEmpty then
        ([], cs)
      else
        (rest.takeWhile isDigit, rest.dropWhile isDigit)
  | _ => ([], cs)

/-- The exponent, if there is one. -/
def exponentRun? (cs : List Char) : Option Number.SignedRun :=
  match cs with
  | 'e' :: rest | 'E' :: rest => signedRun? rest
  | _ => none

/-- Reads a number after its minus sign. -/
def number (negative : Bool) (cs : List Char) : Reading Json :=
  let whole := wholeDigits cs
  let (fraction, after) := fractionDigits (cs.drop whole.length)
  let float (exponent : Int) (length : Nat) : Json :=
    let literal : Literal :=
      { form := .decimal
        negative := negative
        coefficient := ofDigits 10 (whole ++ fraction)
        exponent := exponent - fraction.length
        exponentDigits := length }
    .number (literal.nearest .binary64)
  if whole.isEmpty then
    .error (.malformed .value (if negative then cs.length + 1 else cs.length))
  else
    match exponentRun? after with
    | some run => .ok (float run.value run.length, run.rest)
    | none =>
        if !fraction.isEmpty then
          .ok (float 0 0, after)
        else if Number.Integer.digitLimit < whole.length then
          .error (.integerTooLong whole.length)
        else
          .ok (.integer (signedInt negative (ofDigits 10 whole)), after)

/-- The words that stand for a value. -/
def words : List (List Char × Json) :=
  [("null".toList, .null),
    ("true".toList, .bool true),
    ("false".toList, .bool false),
    ("NaN".toList, .number .nan),
    ("Infinity".toList, .number (.infinite false)),
    ("-Infinity".toList, .number (.infinite true))]

/-- Reads a word or a number. -/
def scalar (cs : List Char) : Reading Json :=
  match words.find? fun word => word.1.isPrefixOf cs with
  | some word => .ok (word.2, cs.drop word.1.length)
  | none =>
      match cs with
      | '-' :: rest => number true rest
      | _ => number false cs

mutual

/--
Reads a value from the front of a text that starts with no space; arrays and
objects may be nested to `depth` levels.
-/
def value : Nat → Nat → List Char → Reading Json
  | 0, _, cs => .error (.malformed .value cs.length)
  | fuel + 1, depth, cs =>
      match cs with
      | '\x22' :: rest =>
          match string rest with
          | .ok (s, after) => .ok (.text s, after)
          | .error fault => .error fault
      | '[' :: rest =>
          match depth with
          | 0 => .error .tooDeep
          | depth + 1 =>
              match skipSpace rest with
              | ']' :: after => .ok (.array [], after)
              | first =>
                  match items fuel depth first with
                  | .ok (values, after) => .ok (.array values, after)
                  | .error fault => .error fault
      | '\x7b' :: rest =>
          match depth with
          | 0 => .error .tooDeep
          | depth + 1 =>
              match skipSpace rest with
              | '\x7d' :: after => .ok (.object [], after)
              | first =>
                  match members fuel depth first with
                  | .ok (pairs, after) => .ok (ofMembers pairs, after)
                  | .error fault => .error fault
      | _ => scalar cs

/-- Reads the values of an array and its closing bracket. -/
def items : Nat → Nat → List Char → Reading (List Json)
  | 0, _, cs => .error (.malformed .value cs.length)
  | fuel + 1, depth, cs =>
      match value fuel depth cs with
      | .error fault => .error fault
      | .ok (v, after) =>
          match skipSpace after with
          | ']' :: rest => .ok ([v], rest)
          | ',' :: rest =>
              match items fuel depth (skipSpace rest) with
              | .ok (vs, after) => .ok (v :: vs, after)
              | .error fault => .error fault
          | other => .error (.malformed .comma other.length)

/-- Reads the members of an object and its closing brace. -/
def members : Nat → Nat → List Char → Reading (List (Text × Json))
  | 0, _, cs => .error (.malformed .memberName cs.length)
  | fuel + 1, depth, cs =>
      match cs with
      | '\x22' :: rest =>
          match string rest with
          | .error fault => .error fault
          | .ok (name, after) =>
              match skipSpace after with
              | ':' :: rest =>
                  match value fuel depth (skipSpace rest) with
                  | .error fault => .error fault
                  | .ok (v, after) =>
                      match skipSpace after with
                      | '\x7d' :: rest => .ok ([(name, v)], rest)
                      | ',' :: rest =>
                          match members fuel depth (skipSpace rest) with
                          | .ok (pairs, after) => .ok ((name, v) :: pairs, after)
                          | .error fault => .error fault
                      | other => .error (.malformed .comma other.length)
              | other => .error (.malformed .colon other.length)
      | _ => .error (.malformed .memberName cs.length)

end

end Reader

/-- The character that marks the order of bytes at the front of a text. -/
def byteOrderMark : Char := '\uFEFF'

/--
The value that a whole text spells, nested to at most `depth` levels. Every two
readings nested in one another take a character, so twice the length is fuel
enough.
-/
def readWithin (depth : Nat) (cs : List Char) : Except ReadFault Json :=
  if cs.head? = some byteOrderMark then
    .error (.malformed .byteOrderMark cs.length)
  else
    match Reader.value (2 * cs.length + 2) depth (skipSpace cs) with
    | .error fault => .error fault
    | .ok (v, after) =>
        if (skipSpace after).isEmpty then
          .ok v
        else
          .error (.malformed .excess (skipSpace after).length)

/--
The greatest number of arrays and objects inside one another that a message may have.
Each of them takes one of the thousand calls that may be made inside one another, and
the ten calls that lead to the reader take theirs.
-/
def nestingLimit : Nat := 1000 - 10

/-- The value that a whole text spells, nested within the limit. -/
def read (cs : List Char) : Except ReadFault Json :=
  readWithin nestingLimit cs

/--
The wording of a problem of a text, with its place: the line and the column, counted from
one, and the number of characters before it.
-/
def Problem.message (problem : Problem) (cs : List Char) (left : Nat) : String :=
  let before := cs.take (cs.length - left)
  let column := (before.reverse.takeWhile (· ≠ '\n')).length + 1
  problem.wording ++ ": line " ++ toString (before.count '\n' + 1) ++ " column " ++
    toString column ++ " (char " ++ toString before.length ++ ")"

end Json
end ChangeFeed
