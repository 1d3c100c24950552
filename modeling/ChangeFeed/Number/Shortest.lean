import ChangeFeed.Number.Digits
import ChangeFeed.Number.Floating

/-!
# Shortest decimal texts of floating-point values

The text of a finite value has the fewest digits that read back as the value;
of several such digit strings the nearest to the value is taken, and the even
one halfway. It is written positionally from `0.0001` up to sixteen digits
before the point, and with an exponent of at least two digits outside.
-/

namespace ChangeFeed
namespace Number

/-- A number `coefficient * 10 ^ exponent`. -/
structure Decimal where
  coefficient : Nat
  exponent : Int
deriving DecidableEq

/-- The exact value of a decimal. -/
def Decimal.value (d : Decimal) : Rat :=
  d.coefficient * 10 ^ d.exponent

namespace Format

/-- A number of decimal digits that is enough to tell all values of the format apart. -/
def enoughDigits (f : Format) : Nat :=
  f.precision * 30103 / 100000 + 2

end Format

namespace Shortest

variable {f : Format}

/-- Whether a decimal is nearer to the value than to all others of the format. -/
def readsBack (x : Floating f) (d : Decimal) : Bool :=
  f.nearest false d.value = x

/-- Of two decimals on one grid, the one nearer to `x`; the even one halfway. -/
def nearer (x : Rat) (below above : Decimal) : Decimal :=
  let lower := x - below.value
  let upper := above.value - x
  if lower < upper then
    below
  else if upper < lower then
    above
  else if below.coefficient % 2 = 0 then
    below
  else
    above

/--
The decimal of `count + 1` digits that reads back as the magnitude `x`, whose
exact value is `v`: only the two neighbours of `v` on the grid of that many
digits can be the nearest.
-/
def ofLength?
    (x : Floating f)
    (v : Rat)
    (count : Nat) : Option Decimal :=
  let exponent := decimalExponent v - count
  let coefficient := (v / 10 ^ exponent).floor.toNat
  let below : Decimal := ⟨coefficient, exponent⟩
  let above : Decimal := ⟨coefficient + 1, exponent⟩
  match readsBack x below, readsBack x above with
  | true, true => some (nearer v below above)
  | true, false => some below
  | false, true => some above
  | false, false => none

/-- The shortest decimal that reads back as the magnitude `x` of exact value `v`. -/
def decimal (x : Floating f) (v : Rat) : Decimal :=
  ((List.range f.enoughDigits).findSome? (ofLength? x v)).getD ⟨0, 0⟩

end Shortest

/-- A run of zeros. -/
def zeros (count : Nat) : List Char :=
  List.replicate count '0'

/-- The exponent part of a number text: a sign and at least two digits. -/
def exponentText (e : Int) : List Char :=
  let digits := Nat.toDigits 10 e.natAbs
  'e' :: (if e < 0 then '-' else '+') :: (zeros (2 - digits.length) ++ digits)

/-- The text of `d.ddd * 10 ^ e`, given the digits without trailing zeros. -/
def layout (digits : List Char) (e : Int) : List Char :=
  if -4 ≤ e ∧ e < 0 then
    '0' :: '.' :: (zeros (-e - 1).toNat ++ digits)
  else if 0 ≤ e ∧ e < 16 then
    let before := e.toNat + 1
    if digits.length ≤ before then
      digits ++ zeros (before - digits.length) ++ ['.', '0']
    else
      digits.take before ++ '.' :: digits.drop before
  else
    match digits with
    | [] => exponentText e
    | [d] => d :: exponentText e
    | d :: rest => d :: '.' :: (rest ++ exponentText e)

/-- The digits of a decimal without its trailing zeros. -/
def Decimal.digits (d : Decimal) : List Char :=
  ((Nat.toDigits 10 d.coefficient).reverse.dropWhile (· = '0')).reverse

/-- The exponent of the first digit of a decimal. -/
def Decimal.leadingExponent (d : Decimal) : Int :=
  d.exponent + decimalLength d.coefficient - 1

namespace Floating

variable {f : Format}

/-- The text of a value: the shortest that reads back, or a word. -/
def text : Floating f → String
  | .nan => "nan"
  | .infinite negative => if negative then "-inf" else "inf"
  | .finite negative m q h =>
      let digits :=
        if m = 0 then
          ['0', '.', '0']
        else
          let d := Shortest.decimal (.finite false m q h) (m * 2 ^ q)
          layout d.digits d.leadingExponent
      String.ofList (if negative then '-' :: digits else digits)

end Floating

end Number
end ChangeFeed
