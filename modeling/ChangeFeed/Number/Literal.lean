import ChangeFeed.Number.Digits
import ChangeFeed.Number.Floating

/-!
# Floating-point literals

A literal is a sign, a coefficient and a power of its radix: ten for decimal
literals and two for hexadecimal ones. Its exact value is a rational, and
`nearest` takes that value into a format in one rounding, without computing
powers that lie far outside the format.

The grammar of a literal is

* `[sign] (digits [. digits*] | . digits) [(e|E) [sign] digits] [suffix]`, or
* `[sign] 0(x|X) hex* [.] hex* (p|P) [sign] digits [suffix]` with a hexadecimal
  digit,

where the suffix is one of `f F d D` and has no meaning.
-/

namespace ChangeFeed
namespace Number

/-- The two ways to write a floating-point literal. -/
inductive LiteralForm where
  | decimal
  | hexadecimal
deriving DecidableEq

/-- The base of the exponent. -/
def LiteralForm.radix : LiteralForm → Nat
  | .decimal => 10
  | .hexadecimal => 2

/-- A floating-point literal as written. -/
structure Literal where
  /-- How it is written. -/
  form : LiteralForm
  /-- Whether it starts with a minus sign. -/
  negative : Bool
  /-- All its digits, read without the point. -/
  coefficient : Nat
  /-- The power of the radix, the places after the point taken off. -/
  exponent : Int
  /-- The number of digits that its exponent is written with. -/
  exponentDigits : Nat

namespace Literal

/-- The exact magnitude. -/
def magnitude (l : Literal) : Rat :=
  l.coefficient * (l.form.radix : Rat) ^ l.exponent

/-- The exact value. -/
def value (l : Literal) : Rat :=
  signed l.negative l.magnitude

/--
The value of a format nearest to the literal. An exponent above all those of the
format makes any coefficient but zero infinite, and one so low that the
coefficient cannot reach half the least value makes it zero; in between the
exact magnitude is rounded.
-/
def nearest (f : Format) (l : Literal) : Floating f :=
  if l.coefficient = 0 then
    .zero l.negative
  else if f.maxExponent + f.precision < l.exponent then
    .infinite l.negative
  else if l.exponent + l.coefficient.log2 + 2 < f.minExponent then
    .zero l.negative
  else
    f.nearest l.negative l.magnitude

/-- What may follow a complete literal: nothing, or a suffix. -/
def endsLiteral : List Char → Bool
  | [] => true
  | [c] => c = 'f' || c = 'F' || c = 'd' || c = 'D'
  | _ => false

/-- Digits before and after an optional point, and the text that follows. -/
structure Mantissa where
  whole : List Char
  fraction : List Char
  rest : List Char

/-- Reads digits around an optional point from the front. -/
def mantissa (isDigit : Char → Bool) (text : List Char) : Mantissa :=
  let whole := text.takeWhile isDigit
  match text.dropWhile isDigit with
  | '.' :: rest =>
      { whole := whole
        fraction := rest.takeWhile isDigit
        rest := rest.dropWhile isDigit }
  | rest =>
      { whole := whole
        fraction := []
        rest := rest }

/-- Reads the decimal form after the sign. -/
def ofDecimal? (negative : Bool) (text : List Char) : Option Literal :=
  let m := mantissa isDigit text
  let coefficient := ofDigits 10 (m.whole ++ m.fraction)
  if m.whole.isEmpty && m.fraction.isEmpty then
    none
  else
    match m.rest with
    | 'e' :: after | 'E' :: after => do
        let run ← signedRun? after
        if endsLiteral run.rest then
          some
            { form := .decimal
              negative := negative
              coefficient := coefficient
              exponent := run.value - m.fraction.length
              exponentDigits := run.length }
        else
          none
    | after =>
        if endsLiteral after then
          some
            { form := .decimal
              negative := negative
              coefficient := coefficient
              exponent := -m.fraction.length
              exponentDigits := 0 }
        else
          none

/-- Reads the hexadecimal form after the sign and its leading `0x`. -/
def ofHexadecimal? (negative : Bool) (text : List Char) : Option Literal :=
  let m := mantissa isHexDigit text
  if m.whole.isEmpty && m.fraction.isEmpty then
    none
  else
    match m.rest with
    | 'p' :: after | 'P' :: after => do
        let run ← signedRun? after
        if endsLiteral run.rest then
          some
            { form := .hexadecimal
              negative := negative
              coefficient := ofDigits 16 (m.whole ++ m.fraction)
              exponent := run.value - 4 * m.fraction.length
              exponentDigits := run.length }
        else
          none
    | _ => none

/-- The literal that a text without surrounding blanks spells. -/
def ofChars? (text : List Char) : Option Literal :=
  let (negative, body) := takeSign text
  match body with
  | '0' :: 'x' :: rest | '0' :: 'X' :: rest => ofHexadecimal? negative rest
  | _ => ofDecimal? negative body

end Literal

end Number
end ChangeFeed
