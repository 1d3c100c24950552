import ChangeFeed.Json.Basic
import ChangeFeed.Number.Integer
import ChangeFeed.Text.Quoted

/-!
# Faults

The ways in which a message can fail to be what the feed expects: a member is
missing, a value is of the wrong kind, a text or a number is no integer. A fault
is named by its cause; `message` gives its wording and `summary` the form in which
it is reported for a malformed message.
-/

namespace ChangeFeed

/-- What was wrong with a value of a message, or kept an operation from ending. -/
inductive Fault where
  /-- An object lacks a member. -/
  | missingMember (name : String)
  /-- A value without named members was asked for one. -/
  | notSubscriptable (kind : Json.Kind)
  /-- A value of another kind was used as an object or a text. -/
  | noAttribute (kind : Json.Kind) (asked : String)
  /-- A value without elements was gone through. -/
  | notIterable (kind : Json.Kind)
  /-- A value that contains nothing was searched for a name. -/
  | notContainer (kind : Json.Kind)
  /-- A value that is neither a number nor a text was to be an integer. -/
  | notNumber (kind : Json.Kind)
  /-- An array or an object was looked up as a name. -/
  | unhashable (kind : Json.Kind)
  /-- A value that is no text was to name a field. -/
  | notName (kind : Json.Kind)
  /-- A torn text was to name a field. -/
  | unencodable (name : Text)
  /-- A text is no integer. -/
  | notInteger (text : Text)
  /-- An integer has more digits than are read. -/
  | tooManyDigits (digits : Nat)
  /-- NaN was to be an integer. -/
  | integerFromNaN
  /-- An infinity was to be an integer. -/
  | integerFromInfinity
  /-- The next stamp lies past the last instant. -/
  | stampsExhausted
  /-- A name that is a number and not finite was to be written. -/
  | nonFiniteName
  /-- Arrays and objects are nested too deeply. -/
  | tooDeep
deriving DecidableEq

namespace Fault

/-- The greatest length of a quoted text inside a message. -/
def quotedLimit : Nat := 200

/-- What cannot be asked for a member by its name, in words. -/
def subscriptMessage : Json.Kind → String
  | .text => "string indices must be integers, not 'str'"
  | .array => "list indices must be integers or slices, not str"
  | kind => "'" ++ kind.word ++ "' object is not subscriptable"

/--
What keeps a torn text from being encoded, in words: the first of its halves, with
all that follow it at once, and their places.
-/
def encodingMessage (text : Text) : String :=
  let before := text.symbols.takeWhile Symbol.isChar
  let halves := (text.symbols.dropWhile Symbol.isChar).takeWhile fun symbol => !symbol.isChar
  let start := before.length
  match halves with
  | [.half unit] =>
      "'utf-8' codec can't encode character '\\u" ++ String.ofList (Text.hex 4 unit.toNat) ++
        "' in position " ++ toString start ++ ": surrogates not allowed"
  | _ =>
      "'utf-8' codec can't encode characters in position " ++ toString start ++ "-" ++
        toString (start + halves.length - 1) ++ ": surrogates not allowed"

/-- The wording of a fault. -/
def message : Fault → String
  | .missingMember name => Text.quoted name
  | .notSubscriptable kind => subscriptMessage kind
  | .noAttribute kind asked =>
      "'" ++ kind.word ++ "' object has no attribute '" ++ asked ++ "'"
  | .notIterable kind => "'" ++ kind.word ++ "' object is not iterable"
  | .notContainer kind => "argument of type '" ++ kind.word ++ "' is not iterable"
  | .notNumber kind =>
      "int() argument must be a string, a bytes-like object or a real number, not '" ++
        kind.word ++ "'"
  | .unhashable kind => "unhashable type: '" ++ kind.word ++ "'"
  | .notName kind => "expected bytes, " ++ kind.word ++ " found"
  | .unencodable name => encodingMessage name
  | .notInteger text =>
      "invalid literal for int() with base 10: " ++
        String.ofList ((Text.quotedChars text).take quotedLimit)
  | .tooManyDigits digits =>
      "Exceeds the limit (4300 digits) for integer string conversion: value has " ++
        toString digits ++ " digits; use sys.set_int_max_str_digits() to increase the limit"
  | .integerFromNaN => "cannot convert float NaN to integer"
  | .integerFromInfinity => "cannot convert float infinity to integer"
  | .stampsExhausted => "date value out of range"
  | .nonFiniteName => "Out of range float values are not JSON compliant"
  | .tooDeep => "maximum recursion depth exceeded"

/-- Whether the fault makes a message malformed; the others end the feed. -/
def isMalformed : Fault → Bool
  | .integerFromInfinity => false
  | .stampsExhausted => false
  | .tooDeep => false
  | _ => true

/-- The word for the kind of a fault. -/
def kind : Fault → String
  | .missingMember _ => "KeyError"
  | .notSubscriptable _ => "TypeError"
  | .noAttribute .. => "AttributeError"
  | .notIterable _ => "TypeError"
  | .notContainer _ => "TypeError"
  | .notNumber _ => "TypeError"
  | .unhashable _ => "TypeError"
  | .notName _ => "TypeError"
  | .unencodable _ => "UnicodeEncodeError"
  | .notInteger _ => "ValueError"
  | .tooManyDigits _ => "ValueError"
  | .integerFromNaN => "ValueError"
  | .integerFromInfinity => "OverflowError"
  | .stampsExhausted => "OverflowError"
  | .nonFiniteName => "ValueError"
  | .tooDeep => "RecursionError"

/--
The form in which a fault is reported for a malformed message: its kind and, in
brackets, its wording in quotes, which a missing name has already.
-/
def summary (fault : Fault) : String :=
  match fault with
  | .missingMember _ => fault.kind ++ "(" ++ fault.message ++ ")"
  | _ => fault.kind ++ "(" ++ Text.quoted fault.message ++ ")"

end Fault
end ChangeFeed
