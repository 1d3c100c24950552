import ChangeFeed.Proofs.Number.Narrowing

/-!
# Sums and halves that are exact

A sum and a half are rounded like everything else that is computed, so they are exact
where the number is a value of the format. Singles are doubles, and adjacent singles are
so close to each other that their sum is a double as well, with a digit more than they
have, and so is the half of it.

**Results.**

* `toRat?_round`, `toRat?_add`, `toRat?_half`: a number that is a value is not changed.
* `toRat?_widened`: a single has the same value as a double.
* `Adjacent.exists_sum`: the sum of adjacent singles is a double.
-/

namespace ChangeFeed
namespace Number

theorem signed_decide_neg (v : Rat) :
    signed (decide (v < 0)) v = |v| := by
  by_cases hneg : v < 0
  · simp [signed, hneg, abs_of_neg hneg]
  · simp [signed, hneg, abs_of_nonneg (not_lt.1 hneg)]

namespace Floating

variable {f : Format}
variable {x y : Floating f}
variable {k : Nat}
variable {i : Int}
variable {v w : Rat}

/-- A number that is a value, but for its sign, is rounded to itself. -/
theorem toRat?_round
    (negative : Bool)
    (h : f.Canonical k i)
    (hv : |v| = k * 2 ^ i) :
    (f.round negative v).toRat? = some v := by
  unfold Format.round
  split
  · next hzero => cases negative <;> simp [zero, toRat?, signed, hzero]
  · rw [signed_decide_neg, hv, Format.nearest_of_canonical _ h, toRat?, ← hv,
      ← signed_decide_neg, signed_signed]

theorem toRat?_add
    (hx : x.toRat? = some v)
    (hy : y.toRat? = some w)
    (h : f.Canonical k i)
    (hsum : |v + w| = k * 2 ^ i) :
    (x.add y).toRat? = some (v + w) := by
  obtain ⟨negative, m, q, hm, rfl, rfl⟩ := exists_finite_of_toRat? hx
  obtain ⟨negative', m', q', hm', rfl, rfl⟩ := exists_finite_of_toRat? hy
  exact toRat?_round _ h hsum

theorem toRat?_half
    (hx : x.toRat? = some v)
    (h : f.Canonical k i)
    (hhalf : |v| = 2 * (k * 2 ^ i)) :
    x.half.toRat? = some (v / 2) := by
  obtain ⟨negative, m, q, hm, rfl, rfl⟩ := exists_finite_of_toRat? hx
  rw [abs_signed, abs_of_nonneg (Format.value_nonneg m q)] at hhalf
  have hvalue : (m : Rat) * 2 ^ q / 2 = k * 2 ^ i := by linarith
  rw [half, hvalue, Format.nearest_of_canonical negative h, toRat?, ← hvalue]
  cases negative with
  | false => rfl
  | true => exact congrArg some (neg_div 2 _).symm

/-- Singles are widened without a change. -/
theorem toRat?_widened (x : Single) :
    (x.convert .binary64).toRat? = x.toRat? := by
  cases x with
  | nan => rfl
  | infinite negative => rfl
  | finite negative m q h =>
      obtain ⟨m', q', h', hwide, hvalue⟩ := exists_widened negative h
      rw [hwide, toRat?, toRat?, hvalue]

end Floating

namespace Format

variable {m m' : Nat}
variable {q q' : Int}

/-- The sum of adjacent singles is a double. -/
theorem Adjacent.exists_sum
    (h : binary32.Adjacent m q m' q') :
    ∃ n e, binary64.Canonical n e ∧
      (n : Rat) * 2 ^ e = m * 2 ^ q + m' * 2 ^ q' := by
  obtain ⟨hfits, hmin, hmax, -⟩ := h.left
  have hfits' : 2 * m + 1 < 2 ^ 53 := by
    have hlt : m < 2 ^ 24 := hfits
    omega
  have hmin' : -149 ≤ q := hmin
  have hmax' : q ≤ 104 := hmax
  obtain ⟨n, e, hcanonical, hvalue⟩ := exists_double (q := q) hfits' (by omega) (by omega)
  refine ⟨n, e, hcanonical, ?_⟩
  rw [hvalue, h.step]
  push_cast
  ring

end Format
end Number
end ChangeFeed
