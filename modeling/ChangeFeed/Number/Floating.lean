import ChangeFeed.Number.Rounding

/-!
# Binary floating-point values

A format fixes how many binary digits a significand has and which exponents it
may carry. A value is a NaN, an infinity or a finite number
`± significand * 2 ^ exponent`; the finite ones carry the proof that significand
and exponent are canonical, so that two finite values are equal exactly when
they have the same sign and the same magnitude. Zero keeps its sign.

`nearest` is the only way from a rational into a format: to the nearest value,
ties to the even significand, and past the largest one to an infinity.

**Results.**

* `Format.canonical_zero`: zero is canonical in every format.
* `toRat?_finite`: a finite value is its signed magnitude.
* `neg_neg`: negation undoes itself.
-/

namespace ChangeFeed
namespace Number

/-- A binary floating-point format. -/
structure Format where
  /-- The number of binary digits of a significand. -/
  precision : Nat
  /-- The exponent of the unit of the smallest values. -/
  minExponent : Int
  /-- The exponent of the unit of the largest values. -/
  maxExponent : Int
  /-- A significand has at least one digit. -/
  precision_pos : 0 < precision := by decide
  /-- There is a finite value. -/
  min_le_max : minExponent ≤ maxExponent := by decide
deriving DecidableEq

namespace Format

/-- The double-precision format. -/
def binary64 : Format where
  precision := 53
  minExponent := -1074
  maxExponent := 971

/-- The single-precision format. -/
def binary32 : Format where
  precision := 24
  minExponent := -149
  maxExponent := 104

/--
Significand and exponent of the one finite value they stand for: the significand
is full unless the exponent is the least one.
-/
def Canonical
    (f : Format)
    (significand : Nat)
    (exponent : Int) : Prop :=
  significand < Nat.pow 2 f.precision ∧
    f.minExponent ≤ exponent ∧
    exponent ≤ f.maxExponent ∧
    (exponent = f.minExponent ∨ Nat.pow 2 (f.precision - 1) ≤ significand)

instance
    (f : Format)
    (significand : Nat)
    (exponent : Int) :
    Decidable (f.Canonical significand exponent) :=
  inferInstanceAs (Decidable (_ ∧ _ ∧ _ ∧ _))

theorem canonical_zero (f : Format) :
    f.Canonical 0 f.minExponent :=
  ⟨Nat.pow_pos (by decide), Int.le_refl _, f.min_le_max, Or.inl rfl⟩

theorem canonical_full (f : Format) :
    f.Canonical (Nat.pow 2 f.precision - 1) f.maxExponent := by
  have hpos : 0 < Nat.pow 2 f.precision := Nat.pow_pos (by decide)
  have hlt : Nat.pow 2 (f.precision - 1) < Nat.pow 2 f.precision :=
    Nat.pow_lt_pow_right (by decide) (Nat.sub_lt f.precision_pos Nat.one_pos)
  exact ⟨Nat.sub_lt hpos Nat.one_pos, f.min_le_max, Int.le_refl _, Or.inr (Nat.le_pred_of_lt hlt)⟩

end Format

/-- A value of the format `f`. -/
inductive Floating (f : Format) where
  | nan
  | infinite (negative : Bool)
  | finite
      (negative : Bool)
      (significand : Nat)
      (exponent : Int)
      (canonical : f.Canonical significand exponent)
deriving DecidableEq

/-- Double-precision values. -/
abbrev Double := Floating .binary64

/-- Single-precision values. -/
abbrev Single := Floating .binary32

/-- The rational `x` or its negation. -/
def signed (negative : Bool) (x : Rat) : Rat :=
  if negative then -x else x

namespace Floating

variable {f : Format}

/-- Zero, with a sign. -/
def zero (negative : Bool) : Floating f :=
  .finite negative 0 f.minExponent f.canonical_zero

/-- The largest finite magnitude, with a sign. -/
def largest (negative : Bool) : Floating f :=
  .finite negative (Nat.pow 2 f.precision - 1) f.maxExponent f.canonical_full

/-- The exact value of a finite number. -/
def toRat? : Floating f → Option Rat
  | .nan => none
  | .infinite _ => none
  | .finite negative m q _ => some (signed negative (m * 2 ^ q))

@[simp] theorem toRat?_finite
    (negative : Bool)
    (m : Nat)
    (q : Int)
    (h : f.Canonical m q) :
    (Floating.finite negative m q h).toRat? = some (signed negative (m * 2 ^ q)) := rfl

/-- Whether the value is neither NaN nor infinite. -/
def isFinite : Floating f → Bool
  | .finite .. => true
  | _ => false

/-- Whether the value is a zero of either sign. -/
def isZero : Floating f → Bool
  | .finite _ m _ _ => m == 0
  | _ => false

/-- The same magnitude with the other sign. -/
def neg : Floating f → Floating f
  | .nan => .nan
  | .infinite negative => .infinite (!negative)
  | .finite negative m q h => .finite (!negative) m q h

@[simp] theorem neg_neg (x : Floating f) :
    x.neg.neg = x := by
  cases x <;> simp [neg]

end Floating

namespace Format

/-- The exponent of the unit in which the positive `x` is written. -/
def unitExponent (f : Format) (x : Rat) : Int :=
  max f.minExponent (binaryExponent x - (f.precision - 1))

/--
Significand and exponent of the multiple of the unit of `x` nearest to `x`. A
significand that rounds up to one digit more moves to the next exponent.
-/
def roundMagnitude (f : Format) (x : Rat) : Nat × Int :=
  let q := f.unitExponent x
  let m := (roundInt .toEven (x / 2 ^ q)).toNat
  if m = Nat.pow 2 f.precision then
    (Nat.pow 2 (f.precision - 1), q + 1)
  else
    (m, q)

/--
The value nearest to the non-negative `x`, with the given sign: ties go to the
even significand, and what rounds past the largest exponent is infinite.
-/
def nearest
    (f : Format)
    (negative : Bool)
    (x : Rat) : Floating f :=
  if x = 0 then
    .zero negative
  else
    let (m, q) := f.roundMagnitude x
    if h : f.Canonical m q then
      .finite negative m q h
    else
      .infinite negative

/-- The value nearest to `v`; a zero is given the sign `negative`. -/
def round
    (f : Format)
    (negative : Bool)
    (v : Rat) : Floating f :=
  if v = 0 then
    .zero negative
  else
    f.nearest (v < 0) (signed (v < 0) v)

end Format

namespace Floating

variable {f : Format}

/-- The value of the format `g` nearest to a value of another format. -/
def convert (g : Format) : Floating f → Floating g
  | .nan => .nan
  | .infinite negative => .infinite negative
  | .finite negative m q _ => g.nearest negative (m * 2 ^ q)

/-- A finite value without its fraction. -/
def truncate? : Floating f → Option Int
  | .finite negative m q _ =>
      let whole : Int := ((m : Rat) * 2 ^ q).floor
      some (if negative then -whole else whole)
  | _ => none

/-- The sum of two values, rounded; a sum of zero is negative only if both values are. -/
def add : Floating f → Floating f → Floating f
  | .finite negative m q _, .finite negative' m' q' _ =>
      f.round (negative && negative')
        (signed negative (m * 2 ^ q) + signed negative' (m' * 2 ^ q'))
  | .infinite negative, .infinite negative' =>
      if negative = negative' then .infinite negative else .nan
  | .infinite negative, .finite .. => .infinite negative
  | .finite .., .infinite negative => .infinite negative
  | .nan, _ => .nan
  | _, .nan => .nan

/-- Half of a value, rounded. -/
def half : Floating f → Floating f
  | .finite negative m q _ => f.nearest negative (m * 2 ^ q / 2)
  | x => x

/-- The next value away from zero; past an infinity there is no number. -/
def outward : Floating f → Floating f
  | .finite negative m q _ =>
      if h' : f.Canonical (m + 1) q then
        .finite negative (m + 1) q h'
      else if h' : f.Canonical (Nat.pow 2 (f.precision - 1)) (q + 1) then
        .finite negative (Nat.pow 2 (f.precision - 1)) (q + 1) h'
      else
        .infinite negative
  | _ => .nan

/-- The next value toward zero; a zero stays. -/
def inward : Floating f → Floating f
  | .nan => .nan
  | .infinite negative => .largest negative
  | .finite negative m q h =>
      if h' : f.Canonical (m - 1) q then
        .finite negative (m - 1) q h'
      else if h' : f.Canonical (Nat.pow 2 f.precision - 1) (q - 1) then
        .finite negative (Nat.pow 2 f.precision - 1) (q - 1) h'
      else
        .finite negative m q h

/-- The adjacent value above or below; both zeros have the same. -/
def neighbor (up : Bool) (x : Floating f) : Floating f :=
  match x with
  | .nan => .nan
  | .infinite negative => if negative = !up then x.outward else x.inward
  | .finite negative m _ _ =>
      if m = 0 then
        (Floating.zero (!up)).outward
      else if negative = !up then
        x.outward
      else
        x.inward

end Floating

namespace Format

/-- The number of exponent codes of the format, those of zeros and infinities included. -/
def exponentCodes (f : Format) : Nat :=
  (f.maxExponent - f.minExponent).toNat + 3

end Format

namespace Floating

variable {f : Format}

/--
The interchange encoding of a value as a number: sign, exponent code and the
digits of the significand below the leading one. A NaN is the quiet one without
further digits.
-/
def toBits (x : Floating f) : Nat :=
  let hidden := Nat.pow 2 (f.precision - 1)
  let top := f.exponentCodes - 1
  let sign (negative : Bool) : Nat :=
    if negative then f.exponentCodes * hidden else 0
  match x with
  | .nan => top * hidden + hidden / 2
  | .infinite negative => sign negative + top * hidden
  | .finite negative m q _ =>
      sign negative + (q - f.minExponent).toNat * hidden + m

end Floating

end Number
end ChangeFeed
