import ChangeFeed.Proofs.Number.Correct

/-!
# Decimal places and doubles

A magnitude rounded to decimal places is the multiple of the last place nearest to
it, and a multiple stays as it is. In general it is no double, so it is rounded
once more to be one.

Sixteen places are kept. Beyond one half doubles are farther apart than the last of
them, and both roundings together lead back to the double they started from. Below
one half doubles are so close together that the second rounding does not leave the
surroundings in which everything is rounded to the same multiple. Either way nothing
is changed by rounding again.

**Results.**

* `isNearestMultiple_roundPlaces`: what a magnitude is rounded to.
* `eq_of_half_le`: from one half on both roundings change nothing.
* `roundPlaces_eq_of_lt_half`, `abs_sub_lt_of_lt_half`: below it they are repeatable
  and stay near.
-/

namespace ChangeFeed
namespace Number

section Multiple

variable {tie : Tie}
variable {places : Nat}
variable {x y h : Rat}
variable {n : Int}

theorem ten_pow_pos (places : Nat) :
    (0 : Rat) < 10 ^ places :=
  pow_pos (by norm_num) places

/-- The distance of a multiple of the last place, counted in places. -/
theorem abs_div_sub
    (places : Nat)
    (n : Int)
    (x : Rat) :
    |(n : Rat) / 10 ^ places - x| = |(n : Rat) - x * 10 ^ places| / 10 ^ places := by
  have hpower := ten_pow_pos places
  rw [← abs_of_pos hpower, ← abs_div, abs_of_pos hpower, sub_div,
    mul_div_cancel_right₀ _ hpower.ne']

theorem abs_roundPlaces_sub_le
    (tie : Tie)
    (places : Nat)
    (x : Rat) :
    |roundPlaces tie places x - x| ≤ 1 / 2 / 10 ^ places := by
  rw [roundPlaces, abs_div_sub]
  exact div_le_div_of_nonneg_right (abs_roundInt_sub_le tie _) (ten_pow_pos places).le

theorem roundPlaces_mono
    (tie : Tie)
    (places : Nat)
    (hxy : x ≤ y) :
    roundPlaces tie places x ≤ roundPlaces tie places y := by
  have hpower := (ten_pow_pos places).le
  refine div_le_div_of_nonneg_right ?_ hpower
  exact_mod_cast roundInt_mono tie (mul_le_mul_of_nonneg_right hxy hpower)

theorem roundPlaces_nonneg
    (hx : 0 ≤ x) :
    0 ≤ roundPlaces tie places x := by
  have hpower := (ten_pow_pos places).le
  refine div_nonneg ?_ hpower
  exact_mod_cast roundInt_nonneg tie (mul_nonneg hx hpower)

/-- What is less than half a last place from a multiple is rounded to it. -/
theorem roundPlaces_of_abs_lt
    (hclose : |n / 10 ^ places - x| < 1 / 2 / 10 ^ places) :
    roundPlaces tie places x = n / 10 ^ places := by
  rw [abs_div_sub, div_lt_div_iff_of_pos_right (ten_pow_pos places), abs_sub_comm] at hclose
  rw [roundPlaces, roundInt_eq_of_abs_lt tie hclose]

/-- A multiple of the last place stays as it is. -/
theorem roundPlaces_multiple
    (tie : Tie)
    (places : Nat)
    (n : Int) :
    roundPlaces tie places (n / 10 ^ places) = n / 10 ^ places := by
  rw [roundPlaces, div_mul_cancel₀ _ (ten_pow_pos places).ne', roundInt_intCast]

/--
The multiple `h` of the last of some decimal places nearest to `x`; of two that are
as near, the one away from zero.
-/
structure IsNearestMultiple
    (places : Nat)
    (x h : Rat) : Prop where
  isMultiple : ∃ n : Int, h = n / 10 ^ places
  nearest : ∀ n : Int, |h - x| ≤ |n / 10 ^ places - x|
  away :
    ∀ n : Int,
      n / 10 ^ places ≠ h →
      |h - x| = |n / 10 ^ places - x| →
      |(n : Rat) / 10 ^ places| < |h|

/-- A magnitude is rounded to the nearest multiple. -/
theorem isNearestMultiple_roundPlaces
    (places : Nat)
    (hx : 0 ≤ x) :
    IsNearestMultiple places x (roundPlaces .upward places x) where
  isMultiple := ⟨_, rfl⟩
  nearest n := by
    rw [roundPlaces, abs_div_sub, abs_div_sub]
    exact div_le_div_of_nonneg_right (roundInt_nearest .upward _ n) (ten_pow_pos places).le
  away n hne htie := by
    have hpower := ten_pow_pos places
    rw [roundPlaces, abs_div_sub, abs_div_sub, div_left_inj' hpower.ne'] at htie
    have hne' : n ≠ roundInt .upward (x * 10 ^ places) := by
      rintro rfl
      exact hne rfl
    obtain ⟨below, hhalf, -, hn⟩ := exists_half_of_tie hne' htie
    have hscaled : (0 : Rat) ≤ below + 1 / 2 := hhalf ▸ mul_nonneg hx hpower.le
    have hbelow : 0 ≤ below := by
      have hlow : ((-1 : Int) : Rat) < below := by
        push_cast
        linarith
      have hlow' : -1 < below := by exact_mod_cast hlow
      omega
    have hpos : (0 : Rat) ≤ n := by
      have hpos' : 0 ≤ n := by omega
      exact_mod_cast hpos'
    rw [abs_of_nonneg (div_nonneg hpos hpower.le), abs_of_nonneg (roundPlaces_nonneg hx),
      roundPlaces, div_lt_div_iff_of_pos_right hpower]
    exact_mod_cast lt_roundInt_of_tie hne' htie

/-- The nearest multiple of the opposite is the opposite. -/
theorem IsNearestMultiple.signed
    (hnearest : IsNearestMultiple places x h)
    (negative : Bool) :
    IsNearestMultiple places (signed negative x) (signed negative h) := by
  cases negative with
  | false => exact hnearest
  | true =>
      have hopposite (n : Int) : ((-n : Int) : Rat) / 10 ^ places = -(n / 10 ^ places) := by
        rw [Int.cast_neg, neg_div]
      have hresult : |-h - -x| = |h - x| := by
        rw [neg_sub_neg, abs_sub_comm]
      have hother (n : Int) :
          |(n : Rat) / 10 ^ places - -x| = |((-n : Int) : Rat) / 10 ^ places - x| := by
        rw [hopposite, sub_neg_eq_add, ← neg_add', abs_neg]
      obtain ⟨k, hk⟩ := hnearest.isMultiple
      refine ⟨⟨-k, ?_⟩, fun n => ?_, fun n hne htie => ?_⟩
      · rw [hopposite, ← hk]
        rfl
      · exact (hresult.trans_le (hnearest.nearest (-n))).trans_eq (hother n).symm
      · have hne' : ((-n : Int) : Rat) / 10 ^ places ≠ h := by
          rintro rfl
          exact hne ((neg_eq_iff_eq_neg.2 (hopposite n)).symm)
        have haway := hnearest.away (-n) hne' (hresult.symm.trans (htie.trans (hother n)))
        rw [hopposite, abs_neg] at haway
        exact haway.trans_eq (abs_neg h).symm

end Multiple

section Double

open Format (binary64)

variable {tie : Tie}
variable {m n : Nat}
variable {q e : Int}

theorem canonical_half :
    binary64.Canonical (2 ^ (binary64.precision - 1)) (-53) := by
  decide

theorem value_half :
    (2 : Rat) ^ (binary64.precision - 1) * 2 ^ (-53 : Int) = 1 / 2 := by
  norm_num [Format.binary64]

/-- One half is a multiple of the last place. -/
theorem roundPlaces_half (tie : Tie) :
    roundPlaces tie 16 (1 / 2) = 1 / 2 := by
  have hmultiple := roundPlaces_multiple tie 16 5000000000000000
  norm_num at hmultiple
  exact hmultiple

/-- From one half on a double is the nearest to itself rounded to sixteen places. -/
theorem eq_of_half_le
    (h : binary64.Canonical m q)
    (hhalf : 1 / 2 ≤ (m : Rat) * 2 ^ q)
    (hnearest : binary64.IsNearest (roundPlaces tie 16 (m * 2 ^ q)) n e) :
    n = m ∧ e = q := by
  have hclose := hnearest.nearest h
  refine Format.canonical_unique hnearest.canonical h ?_
  rcases hhalf.eq_or_lt with heq | hlt
  · rw [← heq, roundPlaces_half, sub_self, abs_zero, abs_nonpos_iff, sub_eq_zero] at hclose
    exact hclose.trans heq
  · -- Another double would be farther away than both roundings reach.
    by_contra hne
    have hapart := Format.unit_le_abs_sub canonical_half h hnearest.canonical
      (value_half.trans_lt hlt) hne
    have hmultiple := abs_roundPlaces_sub_le tie 16 ((m : Rat) * 2 ^ q)
    have htriangle :=
      abs_sub_le ((n : Rat) * 2 ^ e) (roundPlaces tie 16 (m * 2 ^ q)) (m * 2 ^ q)
    rw [abs_sub_comm ((m : Rat) * 2 ^ q)] at hclose
    norm_num at hapart hmultiple
    linarith

/-- Below one half a double is at most a quarter of its unit there from the multiple. -/
theorem abs_sub_roundPlaces_le
    (hhalf : (m : Rat) * 2 ^ q < 1 / 2)
    (hnearest : binary64.IsNearest (roundPlaces tie 16 (m * 2 ^ q)) n e) :
    |(n : Rat) * 2 ^ e - roundPlaces tie 16 (m * 2 ^ q)| ≤ 1 / 2 ^ 55 := by
  have hpos := Format.value_nonneg m q
  have hle := roundPlaces_mono tie 16 hhalf.le
  rw [roundPlaces_half] at hle
  rcases hle.eq_or_lt with heq | hlt
  · have hclose := hnearest.nearest canonical_half
    push_cast at hclose
    rw [value_half, heq, sub_self, abs_zero] at hclose
    rw [heq]
    exact hclose.trans (by norm_num)
  · have hover : roundPlaces tie 16 ((m : Rat) * 2 ^ q) < binary64.overflow := by
      refine hlt.trans (lt_of_le_of_lt ?_ (Format.largest_lt_overflow _))
      have hvalue := Format.value_le_largest canonical_half
      push_cast at hvalue
      rwa [value_half] at hvalue
    have hbound :=
      hnearest.abs_sub_le (e := -54) (by decide) (roundPlaces_nonneg hpos) hover (by decide)
        (hlt.trans_le (by norm_num [Format.binary64]))
    exact hbound.trans (by norm_num)

/-- Below one half the double is rounded to the same multiple. -/
theorem roundPlaces_eq_of_lt_half
    (hhalf : (m : Rat) * 2 ^ q < 1 / 2)
    (hnearest : binary64.IsNearest (roundPlaces tie 16 (m * 2 ^ q)) n e) :
    roundPlaces tie 16 ((n : Rat) * 2 ^ e) = roundPlaces tie 16 (m * 2 ^ q) := by
  have hclose := abs_sub_roundPlaces_le hhalf hnearest
  rw [abs_sub_comm] at hclose
  exact roundPlaces_of_abs_lt (hclose.trans_lt (by norm_num))

/-- Below one half both roundings together stay within a last place. -/
theorem abs_sub_lt_of_lt_half
    (hhalf : (m : Rat) * 2 ^ q < 1 / 2)
    (hnearest : binary64.IsNearest (roundPlaces tie 16 (m * 2 ^ q)) n e) :
    |(n : Rat) * 2 ^ e - m * 2 ^ q| < 1 / 10 ^ 16 := by
  have hdouble := abs_sub_roundPlaces_le hhalf hnearest
  have hmultiple := abs_roundPlaces_sub_le tie 16 ((m : Rat) * 2 ^ q)
  have htriangle :=
    abs_sub_le ((n : Rat) * 2 ^ e) (roundPlaces tie 16 (m * 2 ^ q)) (m * 2 ^ q)
  refine (htriangle.trans (add_le_add hdouble hmultiple)).trans_lt ?_
  norm_num

/-- Rounded to sixteen places a double stays below the overflow. -/
theorem roundPlaces_lt_overflow
    (tie : Tie)
    (h : binary64.Canonical m q) :
    roundPlaces tie 16 ((m : Rat) * 2 ^ q) < binary64.overflow := by
  have hmultiple := (abs_le.1 (abs_roundPlaces_sub_le tie 16 ((m : Rat) * 2 ^ q))).2
  have hlargest := Format.value_le_largest h
  have hunit : (2 : Rat) ^ (0 : Int) ≤ 2 ^ binary64.maxExponent :=
    zpow_le_zpow_right₀ (by norm_num) (by decide)
  have hplace : (1 : Rat) / 2 / 10 ^ 16 < 1 / 2 := by norm_num
  have hgap : binary64.overflow = binary64.largest + 1 / 2 * 2 ^ binary64.maxExponent := by
    rw [Format.overflow, Format.largest]
    ring
  rw [zpow_zero] at hunit
  linarith

end Double

end Number
end ChangeFeed
