import ChangeFeed.Number.Literal
import ChangeFeed.Proofs.Number.Rounding

/-!
# The nearest value of a format

A rational that is close to a value of a format, in comparison to the value, is
rounded to it. A power of two needs the greater care of its two sides: below it
the unit is half of that above. That a value is rounded to itself is a case of
this, so a value stays the same in its own format.

A literal whose exponent is out of reach is given its value without computing a
power. The value is the nearest one nevertheless.

**Results.**

* `nearest_of_close`: what is close to a value is rounded to it.
* `convert_self`: a value converted to its own format is the same.
* `exists_widened`: a single is widened to the double of its value and sign.
* `Literal.nearest_eq_nearest_magnitude`: a literal is given the value nearest to
  its magnitude.
-/

namespace ChangeFeed
namespace Number
namespace Format

section Close

variable {f : Format}
variable {m : Nat}
variable {q : Int}
variable {x : Rat}

/-- The least number that needs all digits of a significand, in units. -/
theorem zpow_precision
    (f : Format)
    (q : Int) :
    (2 : Rat) ^ (f.precision - 1 + q) = 2 ^ (f.precision - 1) * 2 ^ q := by
  rw [zpow_add₀ (by norm_num), ← Nat.cast_pred f.precision_pos, zpow_natCast]

theorem two_pow_precision (f : Format) :
    2 ^ f.precision = 2 * 2 ^ (f.precision - 1) := by
  rw [← Nat.pow_succ']
  exact congrArg _ (Nat.sub_add_cancel f.precision_pos).symm

/-- The unit of numbers that need all digits of a significand. -/
theorem unitExponent_of_bounds
    (hq : f.minExponent ≤ q)
    (hlow : 2 ^ (f.precision - 1 + q) ≤ x)
    (hhigh : x < 2 ^ (f.precision - 1 + q + 1)) :
    f.unitExponent x = q := by
  rw [unitExponent, binaryExponent_eq hlow hhigh]
  omega

/-- The unit of the numbers below those. -/
theorem unitExponent_of_lt
    (hx : 0 < x)
    (hhigh : x < 2 ^ (f.precision - 1 + f.minExponent + 1)) :
    f.unitExponent x = f.minExponent := by
  have hexponent : binaryExponent x < f.precision - 1 + f.minExponent + 1 :=
    (zpow_lt_zpow_iff_right₀ (by norm_num)).1 ((binaryExponent_spec hx).1.trans_lt hhigh)
  rw [unitExponent]
  omega

theorem roundInt_div_unit
    (h : |x - m * 2 ^ q| < 2 ^ q / 2) :
    (roundInt .toEven (x / 2 ^ q)).toNat = m := by
  have hunit : (0 : Rat) < 2 ^ q := zpow_pos (by norm_num) q
  have hdiv : x / 2 ^ q - (m : Int) = (x - m * 2 ^ q) / 2 ^ q := by
    rw [sub_div, mul_div_assoc, div_self hunit.ne', mul_one, Int.cast_natCast]
  have hclose : |x / 2 ^ q - (m : Int)| < 1 / 2 := by
    rw [hdiv, abs_div, abs_of_pos hunit, div_lt_iff₀ hunit]
    linarith
  rw [roundInt_eq_of_abs_lt .toEven hclose]
  exact Int.toNat_natCast m

/-- What is close to a value is less than half a unit away, below a power less than a quarter. -/
theorem abs_sub_lt_of_close
    (h : f.Canonical m q)
    (hclose : |x - m * 2 ^ q| * 2 ^ (f.precision + 1) < m * 2 ^ q) :
    |x - m * 2 ^ q| < 2 ^ q / 2 ∧
      (m = 2 ^ (f.precision - 1) → |x - m * 2 ^ q| < 2 ^ q / 4) := by
  have hunit : (0 : Rat) < 2 ^ q := zpow_pos (by norm_num) q
  have hfull : (0 : Rat) < 2 ^ (f.precision - 1) := by positivity
  have hpow : (2 : Rat) ^ (f.precision + 1) = 4 * 2 ^ (f.precision - 1) := by
    rw [pow_succ, show (2 : Rat) ^ f.precision = 2 * 2 ^ (f.precision - 1) by
      exact_mod_cast two_pow_precision f]
    ring
  have hm : (m : Rat) < 2 * 2 ^ (f.precision - 1) := by
    have hlt : m < 2 ^ f.precision := h.1
    rw [two_pow_precision f] at hlt
    exact_mod_cast hlt
  rw [hpow] at hclose
  constructor
  · by_contra hge
    have hge' := mul_le_mul_of_nonneg_right (not_lt.1 hge) (mul_pos four_pos hfull).le
    nlinarith
  · rintro hmeq
    by_contra hge
    have hge' := mul_le_mul_of_nonneg_right (not_lt.1 hge) (mul_pos four_pos hfull).le
    have hcast : (m : Rat) = 2 ^ (f.precision - 1) := by
      rw [hmeq]
      push_cast
      rfl
    rw [hcast] at hclose hge'
    linarith

/-- Just below a power of two the unit is half of that above; what is rounded up has the power. -/
theorem roundMagnitude_of_lt_power
    (hq : f.minExponent < q)
    (hlow : x < 2 ^ (f.precision - 1) * 2 ^ q)
    (hnear : |x - 2 ^ (f.precision - 1) * 2 ^ q| < 2 ^ q / 4) :
    f.roundMagnitude x = (2 ^ (f.precision - 1), q) := by
  have hunit : (0 : Rat) < 2 ^ q := zpow_pos (by norm_num) q
  have hunithalf : (2 : Rat) ^ (q - 1) = 2 ^ q / 2 := zpow_sub_one₀ (by norm_num) q
  have hhalfunit : f.unitExponent x = q - 1 := by
    have hone : (1 : Rat) ≤ 2 ^ (f.precision - 1) := one_le_pow₀ (by norm_num)
    have hnear' := (abs_lt.1 hnear).1
    refine unitExponent_of_bounds (by omega) ?_ ?_
    · rw [zpow_precision, hunithalf]
      nlinarith
    · rw [zpow_add_one₀ (by norm_num), zpow_precision, hunithalf]
      linarith
  have hcarry : (roundInt .toEven (x / 2 ^ (q - 1))).toNat = 2 ^ f.precision := by
    refine roundInt_div_unit ?_
    have hsame :
        ((2 ^ f.precision : Nat) : Rat) * 2 ^ (q - 1) = 2 ^ (f.precision - 1) * 2 ^ q := by
      rw [two_pow_precision, hunithalf]
      push_cast
      ring
    rw [hsame, hunithalf]
    linarith
  simp only [roundMagnitude, hhalfunit, hcarry, Nat.pow_eq, if_true]
  rw [sub_add_cancel]

theorem roundMagnitude_of_close
    (h : f.Canonical m q)
    (hx : 0 < x)
    (hclose : |x - m * 2 ^ q| * 2 ^ (f.precision + 1) < m * 2 ^ q) :
    f.roundMagnitude x = (m, q) := by
  obtain ⟨hhalf, hquarter⟩ := abs_sub_lt_of_close h hclose
  obtain ⟨hfits, hmin, -, hfull⟩ := h
  simp only [Nat.pow_eq] at hfits hfull
  have hunit : (0 : Rat) < 2 ^ q := zpow_pos (by norm_num) q
  have hround := roundInt_div_unit hhalf
  obtain ⟨hbelow, habove⟩ := abs_lt.1 hhalf
  have hhigh : x < 2 ^ (f.precision - 1 + q + 1) := by
    have hm : (m : Rat) + 1 ≤ 2 * 2 ^ (f.precision - 1) := by
      rw [two_pow_precision f] at hfits
      exact_mod_cast hfits
    rw [zpow_add_one₀ (by norm_num), zpow_precision]
    nlinarith
  -- In its own unit `x` is rounded to `m`.
  have hown (hsame : f.unitExponent x = q) : f.roundMagnitude x = (m, q) := by
    simp only [roundMagnitude, hsame, hround, Nat.pow_eq]
    rw [if_neg hfits.ne]
  by_cases hlow : 2 ^ (f.precision - 1 + q) ≤ x
  · exact hown (unitExponent_of_bounds hmin hlow hhigh)
  · by_cases hleast : q = f.minExponent
    · subst hleast
      exact hown (unitExponent_of_lt hx hhigh)
    · -- Then `m` is a power of two and `x` is below it.
      replace hfull : 2 ^ (f.precision - 1) ≤ m := hfull.resolve_left hleast
      rw [zpow_precision, not_le] at hlow
      have hpower : m = 2 ^ (f.precision - 1) := by
        refine le_antisymm ?_ hfull
        by_contra hless
        have hcast : (2 : Rat) ^ (f.precision - 1) + 1 ≤ m := by exact_mod_cast not_le.1 hless
        nlinarith
      have hcast : (m : Rat) = 2 ^ (f.precision - 1) := by
        rw [hpower]
        push_cast
        rfl
      have hnear := hquarter hpower
      rw [hcast] at hnear
      rw [hpower]
      exact roundMagnitude_of_lt_power (lt_of_le_of_ne hmin (Ne.symm hleast)) hlow hnear

/-- What is close to a value is rounded to it. -/
theorem nearest_of_close
    (negative : Bool)
    (h : f.Canonical m q)
    (hclose : |x - m * 2 ^ q| * 2 ^ (f.precision + 1) < m * 2 ^ q) :
    f.nearest negative x = .finite negative m q h := by
  have hunit : (0 : Rat) < 2 ^ q := zpow_pos (by norm_num) q
  have hx : 0 < x := by
    have hhalf := (abs_lt.1 (abs_sub_lt_of_close h hclose).1).1
    have hm : (1 : Rat) ≤ m := by
      have hpos : 0 < (m : Rat) * 2 ^ q := lt_of_le_of_lt (by positivity) hclose
      have hm : 0 < m := by exact_mod_cast (pos_iff_pos_of_mul_pos hpos).2 hunit
      exact_mod_cast hm
    nlinarith
  rw [nearest, if_neg hx.ne', roundMagnitude_of_close h hx hclose]
  exact dif_pos h

/-- A value is rounded to itself. -/
theorem nearest_of_canonical
    (negative : Bool)
    (h : f.Canonical m q) :
    f.nearest negative (m * 2 ^ q) = .finite negative m q h := by
  by_cases hm : m = 0
  · subst hm
    have hq : q = f.minExponent := by
      rcases h.2.2.2 with hleast | hfull
      · exact hleast
      · exact absurd hfull (by simp)
    subst hq
    simp [nearest, Floating.zero]
  · refine nearest_of_close negative h ?_
    rw [sub_self, abs_zero, zero_mul]
    have hpos : (0 : Rat) < m := by exact_mod_cast Nat.pos_of_ne_zero hm
    exact mul_pos hpos (zpow_pos (by norm_num) q)

/-- The sign of a value is apart from its magnitude. -/
theorem nearest_of_nearest_false
    {h : f.Canonical m q}
    (hnearest : f.nearest false x = .finite false m q h)
    (negative : Bool) :
    f.nearest negative x = .finite negative m q h := by
  unfold nearest at hnearest ⊢
  by_cases hzero : x = 0
  · rw [if_pos hzero] at hnearest ⊢
    cases hnearest
    rfl
  · rw [if_neg hzero] at hnearest ⊢
    by_cases hcanonical : f.Canonical (f.roundMagnitude x).1 (f.roundMagnitude x).2
    · simp only [dif_pos hcanonical] at hnearest ⊢
      cases hnearest
      rfl
    · simp only [dif_neg hcanonical] at hnearest
      contradiction

/-- A number with few enough digits is a value, if the format has exponents for it. -/
theorem exists_canonical_of_lt
    (hm : 0 < m)
    (hfits : m < 2 ^ f.precision)
    (hmin : f.minExponent + f.precision ≤ q)
    (hmax : q ≤ f.maxExponent) :
    ∃ m' q',
      f.Canonical m' q' ∧
      (m' : Rat) * 2 ^ q' = m * 2 ^ q := by
  have hlog : m.log2 < f.precision := (Nat.log2_lt hm.ne').2 hfits
  obtain ⟨shift, hshift⟩ := Nat.exists_eq_add_of_lt hlog
  refine ⟨m * 2 ^ shift, q - shift, ⟨?_, by omega, by omega, Or.inr ?_⟩, ?_⟩
  · calc
      m * 2 ^ shift < 2 ^ (m.log2 + 1) * 2 ^ shift :=
        Nat.mul_lt_mul_of_pos_right Nat.lt_log2_self (Nat.two_pow_pos shift)
      _ = 2 ^ f.precision := by rw [← pow_add, hshift]; congr 1; omega
  · calc
      2 ^ (f.precision - 1) = 2 ^ m.log2 * 2 ^ shift := by
        rw [← pow_add, hshift]
        rfl
      _ ≤ m * 2 ^ shift := Nat.mul_le_mul_right _ (Nat.log2_self_le hm.ne')
  · have hpow : (2 : Rat) ^ (q - shift) = 2 ^ q / 2 ^ shift := by
      rw [zpow_sub₀ (by norm_num), zpow_natCast]
    rw [hpow]
    push_cast
    field_simp

/-- What is not below the values of a format is infinite in it. -/
theorem nearest_of_le
    (negative : Bool)
    (h : 2 ^ (f.maxExponent + f.precision) ≤ x) :
    f.nearest negative x = .infinite negative := by
  have hx : 0 < x := (zpow_pos (by norm_num) _).trans_le h
  have hexponent : f.maxExponent + f.precision < binaryExponent x + 1 :=
    (zpow_lt_zpow_iff_right₀ (by norm_num)).1 (h.trans_lt (binaryExponent_spec hx).2)
  have hunit : f.maxExponent < f.unitExponent x := by
    rw [unitExponent]
    omega
  have hmagnitude : f.maxExponent < (f.roundMagnitude x).2 := by
    simp only [roundMagnitude]
    split
    · exact hunit.trans (Int.lt_succ _)
    · exact hunit
  rw [nearest, if_neg hx.ne']
  exact dif_neg fun hcanonical => absurd hcanonical.2.2.1 (not_le.2 hmagnitude)

/-- What is less than half the least value is zero. -/
theorem nearest_of_lt
    (negative : Bool)
    (hx : 0 < x)
    (h : x < 2 ^ (f.minExponent - 1)) :
    f.nearest negative x = .zero negative := by
  have hunit : f.unitExponent x = f.minExponent := by
    have hprecision := f.precision_pos
    exact unitExponent_of_lt hx (h.trans_le (zpow_le_zpow_right₀ (by norm_num) (by omega)))
  have hround : (roundInt .toEven (x / 2 ^ f.minExponent)).toNat = 0 := by
    refine roundInt_div_unit ?_
    rw [Nat.cast_zero, zero_mul, sub_zero, abs_of_pos hx, div_eq_mul_inv,
      ← zpow_sub_one₀ (by norm_num)]
    exact h
  have hmagnitude : f.roundMagnitude x = (0, f.minExponent) := by
    simp only [roundMagnitude, hunit, hround, Nat.pow_eq]
    rw [if_neg (by positivity)]
  rw [nearest, if_neg hx.ne', hmagnitude]
  exact dif_pos f.canonical_zero

end Close

end Format

namespace Floating

variable {f : Format}

@[simp] theorem convert_self (x : Floating f) :
    x.convert f = x := by
  cases x with
  | nan => rfl
  | infinite negative => rfl
  | finite negative m q h => exact Format.nearest_of_canonical negative h

/-- A single is widened to the double of its value and sign. -/
theorem exists_widened
    (negative : Bool)
    {m : Nat}
    {q : Int}
    (h : Format.binary32.Canonical m q) :
    ∃ m' q' h',
      (Floating.finite negative m q h).convert .binary64 =
        (.finite negative m' q' h' : Double) ∧
      (m' : Rat) * 2 ^ q' = m * 2 ^ q := by
  by_cases hm : m = 0
  · subst hm
    refine ⟨0, Format.binary64.minExponent, Format.canonical_zero _, ?_, by simp⟩
    simp [convert, Format.nearest, zero]
  · obtain ⟨hfits, hmin, hmax, -⟩ := h
    have hfits' : m < 2 ^ Format.binary64.precision :=
      hfits.trans_le (Nat.pow_le_pow_right (by decide) (by decide))
    have hmin' : Format.binary64.minExponent + Format.binary64.precision ≤ q :=
      le_trans (by decide) hmin
    have hmax' : q ≤ Format.binary64.maxExponent := hmax.trans (by decide)
    obtain ⟨m', q', h', hvalue⟩ :=
      Format.exists_canonical_of_lt (Nat.pos_of_ne_zero hm) hfits' hmin' hmax'
    refine ⟨m', q', h', ?_, hvalue⟩
    simp only [convert, ← hvalue]
    exact Format.nearest_of_canonical negative h'

end Floating

namespace Literal

theorem two_le_radix (form : LiteralForm) :
    (2 : Rat) ≤ form.radix := by
  cases form <;> norm_num [LiteralForm.radix]

/-- The shortcuts for exponents out of reach change nothing. -/
theorem nearest_eq_nearest_magnitude
    {f : Format}
    (hmin : f.minExponent ≤ 0)
    (hmax : 0 ≤ f.maxExponent + f.precision)
    (l : Literal) :
    l.nearest f = f.nearest l.negative l.magnitude := by
  have hradix := two_le_radix l.form
  unfold nearest
  split
  · next hzero => simp [magnitude, hzero, Format.nearest]
  · next hne =>
      have hcoefficient : (1 : Rat) ≤ l.coefficient := by
        exact_mod_cast Nat.one_le_iff_ne_zero.2 hne
      split
      · next hlarge =>
          refine (Format.nearest_of_le _ ?_).symm
          calc
            (2 : Rat) ^ (f.maxExponent + f.precision) ≤ 2 ^ l.exponent :=
              zpow_le_zpow_right₀ (by norm_num) hlarge.le
            _ ≤ (l.form.radix : Rat) ^ l.exponent :=
              zpow_le_zpow_left₀ (by omega) (by norm_num) hradix
            _ ≤ l.magnitude := le_mul_of_one_le_left (zpow_nonneg (by linarith) _) hcoefficient
      · split
        · next hsmall =>
            have hpos : 0 < l.magnitude :=
              mul_pos (by linarith) (zpow_pos (by linarith) _)
            refine (Format.nearest_of_lt _ hpos ?_).symm
            have hlog := (zpow_log2_le_and_lt hne).2
            have hradixpow : (l.form.radix : Rat) ^ l.exponent ≤ 2 ^ l.exponent := by
              have hnonneg : 0 ≤ -l.exponent := by omega
              rw [← inv_le_inv₀ (zpow_pos (by norm_num) _) (zpow_pos (by linarith) _),
                ← zpow_neg, ← zpow_neg]
              exact zpow_le_zpow_left₀ hnonneg (by norm_num) hradix
            calc
              l.magnitude ≤ l.coefficient * 2 ^ l.exponent :=
                mul_le_mul_of_nonneg_left hradixpow (by linarith)
              _ < 2 ^ ((l.coefficient.log2 : Int) + 1) * 2 ^ l.exponent :=
                mul_lt_mul_of_pos_right hlog (zpow_pos (by norm_num) _)
              _ = 2 ^ ((l.coefficient.log2 : Int) + 1 + l.exponent) :=
                (zpow_add₀ (by norm_num) _ _).symm
              _ ≤ 2 ^ (f.minExponent - 1) :=
                zpow_le_zpow_right₀ (by norm_num) (by omega)
        · rfl

theorem nearest_double (l : Literal) :
    l.nearest .binary64 = Format.binary64.nearest l.negative l.magnitude :=
  l.nearest_eq_nearest_magnitude (by decide) (by decide)

theorem nearest_single (l : Literal) :
    l.nearest .binary32 = Format.binary32.nearest l.negative l.magnitude :=
  l.nearest_eq_nearest_magnitude (by decide) (by decide)

end Literal
end Number
end ChangeFeed
