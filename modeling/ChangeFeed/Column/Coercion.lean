import ChangeFeed.Column.Value
import ChangeFeed.Number.Integer
import ChangeFeed.Number.Literal
import ChangeFeed.Text.Blank
import ChangeFeed.Text.Letters

/-!
# Reading texts of columns

How the captured text of a column becomes a value of the class of its type code.

* Doubles: a literal between blanks, rounded to the nearest double, which has to
  be finite; its exact value is then rounded to sixteen decimal places, a half
  away from zero, and the result to the nearest double. The decimal may have no
  more than 400 digits. The sign stays, also that of a zero.
* Integers: a sign and digits without blanks, in the range of the class.
* Singles: a word for NaN or an infinity, or a literal. The literal is rounded
  to a double and that to a single; only when the double lies halfway between
  two singles does the exact value of the literal decide.
* Booleans: `true` or `false` in any case.
* Texts: as they are.

**Results.**

* `coerce_asText`: with all columns read as texts, every text is its own value.
* `coerce_eq_ok_iff`, `coerce_eq_error_iff`: otherwise it is what the class reads.
-/

namespace ChangeFeed

open Number (Double Single Format Floating Literal decimalLength roundInt roundPlaces)

namespace Coercion

/-- The number of decimal places that doubles are rounded to. -/
def places : Nat := 16

/-- The number of digits that a number rounded to these places may have. -/
def digitsKept : Nat := 400

/-- A magnitude rounded to the decimal places kept, unless that takes too many digits. -/
def quantize? (x : Rat) : Option Rat :=
  if decimalLength (roundInt .upward (x * 10 ^ places)).natAbs ≤ digitsKept then
    some (roundPlaces .upward places x)
  else
    none

/-- A finite double rounded to the decimal places kept; others are refused. -/
def toPlaces? : Double → Option Double
  | .finite negative m q _ =>
      (quantize? (m * 2 ^ q)).map (Format.binary64.nearest negative)
  | _ => none

/-- The double that a text is read as. -/
def double? (raw : String) : Option Double := do
  let literal ← Literal.ofChars? (Text.stripChars raw.toList)
  toPlaces? (literal.nearest .binary64)

/-- The integer between two bounds that a text is read as. -/
def integer? (low high : Int) (raw : String) : Option Int := do
  let n ← Number.Integer.ofChars? raw.toList
  if low ≤ n ∧ n ≤ high then some n else none

/-- The words for singles that are not finite. -/
def singleWords : List (String × Single) :=
  [("NaN", .nan), ("+NaN", .nan), ("-NaN", .nan), ("Infinity", .infinite false),
    ("+Infinity", .infinite false), ("-Infinity", .infinite true)]

/--
The exact value of a literal, where the digits of its exponent can be read: a
hexadecimal exponent may have too many.
-/
def exactValue? (literal : Literal) : Option Rat :=
  if literal.form = .hexadecimal ∧ Number.Integer.digitLimit < literal.exponentDigits then
    none
  else
    some literal.value

/-- The middle of two singles, computed with doubles. -/
def middleOf (x y : Single) : Double :=
  ((x.convert .binary64).add (y.convert .binary64)).half

/--
The single nearest to a literal whose nearest double is `x`. If `x` is halfway
between two singles, it may itself have been rounded there, and the exact value
of the literal tells the side.
-/
def singleFrom? (literal : Literal) (x : Double) : Option Single :=
  let near := x.convert .binary32
  match x.toRat?, near.toRat? with
  | some v, some s =>
      let up : Bool := s < v
      let other := near.neighbor up
      if v ≠ s ∧ (middleOf near other).toRat? = some v then do
        let exact ← exactValue? literal
        if v < exact then
          some (if up then other else near)
        else if exact < v then
          some (if up then near else other)
        else
          some near
      else
        some near
  | _, _ => some near

/-- The single that a text is read as. -/
def single? (raw : String) : Option Single :=
  let stripped := Text.stripChars raw.toList
  match singleWords.lookup (String.ofList stripped) with
  | some x => some x
  | none => do
      let literal ← Literal.ofChars? stripped
      singleFrom? literal (literal.nearest .binary64)

/-- The truth value that a text is read as. -/
def boolean? (raw : String) : Option Bool :=
  let word := Text.lower raw
  if word = "true" then some true
  else if word = "false" then some false
  else none

/-- The value that a text is read as in a class of types. -/
def read? : TypeClass → Text → Option Value
  | .double, raw => (double? raw.shown).map .double
  | .int32, raw => (integer? (-2147483648) 2147483647 raw.shown).map .integer
  | .int64, raw => (integer? (-9223372036854775808) 9223372036854775807 raw.shown).map .integer
  | .single, raw => (single? raw.shown).map .single
  | .boolean, raw => (boolean? raw.shown).map .boolean
  | .text, raw => some (.text raw)

/-- A text that could not be read: the text, the type code and the column, null if none. -/
structure Failure where
  raw : Text
  code : Int
  column : Json

end Coercion

/-- The value of a column for its captured text. -/
def coerce
    (asText : Bool)
    (code : Int)
    (column : Json)
    (raw : Text) : Except Coercion.Failure Value :=
  if asText then
    .ok (.text raw)
  else
    match Coercion.read? (.ofCode code) raw with
    | some v => .ok v
    | none => .error ⟨raw, code, column⟩

theorem coerce_asText
    (code : Int)
    (column : Json)
    (raw : Text) :
    coerce true code column raw = .ok (.text raw) := rfl

theorem coerce_eq_ok_iff
    {code : Int}
    {column : Json}
    {raw : Text}
    {v : Value} :
    coerce false code column raw = .ok v ↔ Coercion.read? (.ofCode code) raw = some v := by
  rw [coerce, if_neg Bool.false_ne_true]
  cases Coercion.read? (.ofCode code) raw <;> simp

theorem coerce_eq_error_iff
    {code : Int}
    {column : Json}
    {raw : Text} :
    coerce false code column raw = .error ⟨raw, code, column⟩ ↔
      Coercion.read? (.ofCode code) raw = none := by
  rw [coerce, if_neg Bool.false_ne_true]
  cases Coercion.read? (.ofCode code) raw <;> simp

end ChangeFeed
