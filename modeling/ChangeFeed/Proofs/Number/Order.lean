import ChangeFeed.Proofs.Number.Correct

/-!
# The order of values

The values of a format are in the order of their numbers, with the infinities at the
two ends and the two zeros at one place; a NaN has none. A rounding of magnitudes that
keeps their order and leaves zero a zero keeps the order of numbers of both signs, if
it carries the sign along: what is negative is the reflection of what is positive.

**Results.**

* `AtMost.trans`, `AtMost.neg`: the order, and its reflection.
* `SignedRounding.atMost`: roundings of magnitudes keep the order of numbers.
* `signedRounding_nearest`: taking the nearest value is such a rounding.
-/

namespace ChangeFeed
namespace Number

@[simp] theorem signed_not
    (negative : Bool)
    (v : Rat) :
    signed (!negative) v = -signed negative v := by
  cases negative with
  | false => rfl
  | true => exact (neg_neg v).symm

namespace Floating

variable {f : Format}
variable {x y z : Floating f}

/-- Whether a value is not above another; the zeros are not above each other. -/
def AtMost : Floating f → Floating f → Prop
  | .nan, _ => False
  | _, .nan => False
  | .infinite negative, .infinite negative' => negative = true ∨ negative' = false
  | .infinite negative, .finite .. => negative = true
  | .finite .., .infinite negative => negative = false
  | .finite negative m q _, .finite negative' m' q' _ =>
      signed negative (m * 2 ^ q) ≤ signed negative' (m' * 2 ^ q')

theorem AtMost.trans
    (hxy : x.AtMost y)
    (hyz : y.AtMost z) :
    x.AtMost z := by
  cases x <;> cases y <;> cases z <;> grind [AtMost]

/-- The other sign turns the order around. -/
theorem AtMost.neg
    (h : x.AtMost y) :
    y.neg.AtMost x.neg := by
  cases x <;> cases y <;> simp_all [AtMost, Floating.neg]
  exact h.symm

/-- What is in the order is not above the positive infinity. -/
theorem AtMost.infinite
    (h : x.AtMost y) :
    x.AtMost (.infinite false) := by
  cases x <;> cases y <;> simp_all [AtMost]

/-- The two zeros are at one place. -/
theorem zero_atMost_zero
    {negative negative' : Bool} :
    (zero negative : Floating f).AtMost (zero negative') := by
  cases negative <;> cases negative' <;> simp [zero, AtMost, signed]

end Floating

/-- A rounding of magnitudes that keeps their order, with the sign carried along. -/
structure SignedRounding
    {f : Format}
    (round : Bool → Rat → Floating f) : Prop where
  reflects :
    ∀ x, round true x = (round false x).neg
  zero :
    round false 0 = .zero false
  mono :
    ∀ {x y},
      0 ≤ x →
      x ≤ y →
      (round false x).AtMost (round false y)

section Roundings

variable {f : Format}
variable {round : Bool → Rat → Floating f}
variable {negative negative' : Bool}
variable {x y : Rat}

/-- What is rounded with a sign is on its side of the zeros. -/
theorem SignedRounding.side
    (h : SignedRounding round)
    (hx : 0 ≤ x) :
    (Floating.zero false).AtMost (round false x) ∧
      (round true x).AtMost (Floating.zero true) := by
  have hpos := h.mono le_rfl hx
  rw [h.zero] at hpos
  exact ⟨hpos, h.reflects x ▸ hpos.neg⟩

/-- The order of numbers of both signs is kept. -/
theorem SignedRounding.atMost
    (h : SignedRounding round)
    (hx : 0 ≤ x)
    (hy : 0 ≤ y)
    (hle : signed negative x ≤ signed negative' y) :
    (round negative x).AtMost (round negative' y) := by
  cases negative with
  | false =>
      cases negative' with
      | false => exact h.mono hx hle
      | true =>
          -- Both are zeros.
          have hneg : x ≤ -y := hle
          obtain rfl : x = 0 := by linarith
          obtain rfl : y = 0 := by linarith
          rw [h.reflects, h.zero]
          exact Floating.zero_atMost_zero
  | true =>
      cases negative' with
      | false =>
          exact ((h.side hx).2.trans Floating.zero_atMost_zero).trans (h.side hy).1
      | true =>
          rw [h.reflects, h.reflects]
          exact (h.mono hy (neg_le_neg_iff.1 hle)).neg

theorem nearest_true
    (f : Format)
    (x : Rat) :
    f.nearest true x = (f.nearest false x).neg := by
  simp only [Format.nearest]
  split_ifs <;> rfl

/-- The nearest values keep the order, infinite ones included. -/
theorem signedRounding_nearest
    (hprecision : 1 < f.precision) :
    SignedRounding f.nearest where
  reflects := nearest_true f
  zero := if_pos rfl
  mono {x y} hx hxy := by
    by_cases hy : f.overflow ≤ y
    · rw [Format.nearest_of_overflow_le hy]
      by_cases hover : f.overflow ≤ x
      · rw [Format.nearest_of_overflow_le hover]
        exact Or.inr rfl
      · obtain ⟨m, q, hnearest, hfinite⟩ :=
          Format.exists_nearest_eq hprecision hx (not_le.1 hover) false
        rw [hfinite]
        rfl
    · obtain ⟨m, q, hnearest, hfinite⟩ :=
        Format.exists_nearest_eq hprecision hx (hxy.trans_lt (not_le.1 hy)) false
      obtain ⟨m', q', hnearest', hfinite'⟩ :=
        Format.exists_nearest_eq hprecision (hx.trans hxy) (not_le.1 hy) false
      rw [hfinite, hfinite']
      exact hnearest.mono hprecision hnearest' hxy

end Roundings

end Number
end ChangeFeed
