/-!
# Rounding rationals

The one rounding primitive of the library: a rational goes to the nearest
integer, and a value halfway between two integers goes as a tie rule says.
Readers of number texts, conversions between floating formats and the rounding
to decimal places all call it on exact values, so nothing is rounded twice by
accident.

Beside it stand the exponents of the largest powers of two and of ten below a
positive rational, which choose the unit to round to.

**Results.**

* `roundInt_intCast`: an integer stays as it is.
-/

namespace ChangeFeed
namespace Number

/-- Where a value halfway between two integers goes. -/
inductive Tie where
  | toEven
  | upward
deriving DecidableEq

/-- The integer nearest to `x`; `tie` decides halfway between two. -/
def roundInt (tie : Tie) (x : Rat) : Int :=
  let below := x.floor
  let excess := x - below
  if excess < 1 / 2 then
    below
  else if 1 / 2 < excess then
    below + 1
  else
    match tie with
    | .toEven => if below % 2 = 0 then below else below + 1
    | .upward => below + 1

/-- The multiple of `10 ^ -places` nearest to `x`. -/
def roundPlaces (tie : Tie) (places : Nat) (x : Rat) : Rat :=
  roundInt tie (x * 10 ^ places) / 10 ^ places

/-- The exponent `e` if the power `base ^ e` is at most `x`, else the one below. -/
def exponentAtMost (base : Rat) (e : Int) (x : Rat) : Int :=
  if base ^ e ≤ x then e else e - 1

/-- The largest `e` with `2 ^ e ≤ x`, for a positive `x`. -/
def binaryExponent (x : Rat) : Int :=
  exponentAtMost 2 (x.num.natAbs.log2 - x.den.log2) x

/-- The number of decimal digits of `n`. -/
def decimalLength (n : Nat) : Nat :=
  (Nat.toDigits 10 n).length

/-- The largest `e` with `10 ^ e ≤ x`, for a positive `x`. -/
def decimalExponent (x : Rat) : Int :=
  exponentAtMost 10 (decimalLength x.num.natAbs - decimalLength x.den) x

theorem roundInt_intCast (tie : Tie) (n : Int) :
    roundInt tie n = n := by
  have h : ((n : Rat) - n) < 1 / 2 := by
    rw [Rat.sub_self]
    decide +kernel
  simp only [roundInt, Rat.floor_intCast, h, if_true]

end Number
end ChangeFeed
