import ChangeFeed.Proofs.Number.Nearest

/-!
# The grid of a format

The finite values of a format lie on a grid: multiples of a unit that doubles with
every power of two. A value has no other between itself and one unit more, and a
magnitude is rounded to the multiple of its unit that is nearest to it, so no value
is nearer, be its unit larger or smaller.

A magnitude leaves the grid half a unit above the largest value: that tie goes to
the power of two, which is out of reach.

**Results.**

* `succ_mul_le_of_lt`: there is no value between a value and one unit more.
* `unit_le_abs_sub`: how far apart values are above a power of two.
* `abs_significand_sub_le_value`: no value is nearer than the rounded magnitude.
* `exponent_le_of_lt_overflow`, `not_canonical_of_overflow_le`: where magnitudes are
  rounded to finite values.
-/

namespace ChangeFeed
namespace Number
namespace Format

/-- The largest finite value. -/
def largest (f : Format) : Rat :=
  (2 ^ f.precision - 1) * 2 ^ f.maxExponent

/-- Half a unit above the largest value; from there on values are infinite. -/
def overflow (f : Format) : Rat :=
  (2 ^ f.precision - 1 / 2) * 2 ^ f.maxExponent

section Grid

variable {f : Format}
variable {m m' : Nat}
variable {q q' : Int}

theorem two_zpow_pos (q : Int) :
    (0 : Rat) < 2 ^ q :=
  zpow_pos (by norm_num) q

theorem value_nonneg
    (m : Nat)
    (q : Int) :
    (0 : Rat) ≤ m * 2 ^ q :=
  mul_nonneg (Nat.cast_nonneg m) (two_zpow_pos q).le

/-- Of two numbers the lower one is as near just up to their middle. -/
theorem abs_lower_sub_le_iff
    {s t x : Rat}
    (h : s < t) :
    |s - x| ≤ |t - x| ↔ 2 * x ≤ s + t := by
  rw [← sq_le_sq]
  constructor
  · intro hsq
    nlinarith
  · intro hmiddle
    nlinarith

/-- And the upper one just from their middle on. -/
theorem abs_upper_sub_le_iff
    {s t x : Rat}
    (h : s < t) :
    |t - x| ≤ |s - x| ↔ s + t ≤ 2 * x := by
  rw [← sq_le_sq]
  constructor
  · intro hsq
    nlinarith
  · intro hmiddle
    nlinarith

/-- A value has only one significand and exponent. -/
theorem canonical_unique
    (h : f.Canonical m q)
    (h' : f.Canonical m' q')
    (hvalue : (m : Rat) * 2 ^ q = m' * 2 ^ q') :
    m = m' ∧ q = q' := by
  have hsame := nearest_of_canonical false h
  rw [hvalue, nearest_of_canonical false h'] at hsame
  cases hsame
  exact ⟨rfl, rfl⟩

theorem succ_le_of_canonical
    (h : f.Canonical m q) :
    (m : Rat) + 1 ≤ 2 ^ f.precision := by
  exact_mod_cast h.1

theorem power_le_of_canonical
    (h : f.Canonical m q)
    (hq : q ≠ f.minExponent) :
    (2 : Rat) ^ (f.precision - 1) ≤ m := by
  exact_mod_cast h.2.2.2.resolve_left hq

theorem cast_two_pow_precision (f : Format) :
    (2 : Rat) ^ f.precision = 2 * 2 ^ (f.precision - 1) := by
  exact_mod_cast two_pow_precision f

/-- A multiple of a unit is a multiple of all units below. -/
theorem exists_multiple
    (h : q ≤ q')
    (k : Nat) :
    ∃ n : Nat, (k : Rat) * 2 ^ q' = n * 2 ^ q := by
  obtain ⟨shift, hshift⟩ := Int.le.dest h
  refine ⟨k * 2 ^ shift, ?_⟩
  rw [← hshift, zpow_add₀ (by norm_num), zpow_natCast]
  push_cast
  ring

/-- Values of smaller units are below those that need all digits of a significand. -/
theorem value_lt_of_exponent_lt
    (h : f.Canonical m q)
    (hq : q < q') :
    (m : Rat) * 2 ^ q < 2 ^ (f.precision - 1) * 2 ^ q' := by
  have hm := succ_le_of_canonical h
  have hunit : (2 : Rat) ^ (q + 1) ≤ 2 ^ q' :=
    zpow_le_zpow_right₀ (by norm_num) (by omega)
  calc
    (m : Rat) * 2 ^ q < 2 ^ f.precision * 2 ^ q :=
      mul_lt_mul_of_pos_right (by linarith) (two_zpow_pos q)
    _ = 2 ^ (f.precision - 1) * 2 ^ (q + 1) := by
      rw [cast_two_pow_precision, zpow_add_one₀ (by norm_num)]
      ring
    _ ≤ 2 ^ (f.precision - 1) * 2 ^ q' :=
      mul_le_mul_of_nonneg_left hunit (by positivity)

/-- There is no value between a value and one unit more. -/
theorem succ_mul_le_of_lt
    (h : f.Canonical m q)
    (h' : f.Canonical m' q')
    (hlt : (m : Rat) * 2 ^ q < m' * 2 ^ q') :
    ((m : Rat) + 1) * 2 ^ q ≤ m' * 2 ^ q' := by
  have hunit := two_zpow_pos q
  by_cases hexponent : q ≤ q'
  · obtain ⟨n, hn⟩ := exists_multiple hexponent m'
    rw [hn] at hlt ⊢
    have hmn : m < n := by
      exact_mod_cast lt_of_mul_lt_mul_right hlt hunit.le
    have hcast : (m : Rat) + 1 ≤ n := by exact_mod_cast hmn
    exact mul_le_mul_of_nonneg_right hcast hunit.le
  · exfalso
    have hleast := h'.2.1
    have hbelow := value_lt_of_exponent_lt h' (not_le.1 hexponent)
    have hfull := mul_le_mul_of_nonneg_right (power_le_of_canonical h (by omega)) hunit.le
    linarith

/-- A value that is not below those needing all digits in a unit has no smaller unit. -/
theorem exponent_le_of_le_value
    {e : Int}
    (h : f.Canonical m q)
    (hlow : 2 ^ (f.precision - 1) * 2 ^ e ≤ (m : Rat) * 2 ^ q) :
    e ≤ q := by
  by_contra hless
  exact absurd (value_lt_of_exponent_lt h (not_le.1 hless)) (not_lt.2 hlow)

/-- From there on, what is above a value is at least that unit above it. -/
theorem unit_le_sub_of_lt
    {e : Int}
    (h : f.Canonical m q)
    (h' : f.Canonical m' q')
    (hlow : 2 ^ (f.precision - 1) * 2 ^ e ≤ (m : Rat) * 2 ^ q)
    (hlt : (m : Rat) * 2 ^ q < m' * 2 ^ q') :
    2 ^ e ≤ (m' : Rat) * 2 ^ q' - m * 2 ^ q := by
  have hstep := succ_mul_le_of_lt h h' hlt
  have hunit : (2 : Rat) ^ e ≤ 2 ^ q :=
    zpow_le_zpow_right₀ (by norm_num) (exponent_le_of_le_value h hlow)
  linarith

/-- Above a power of two no value is nearer to another than by the unit of the power. -/
theorem unit_le_abs_sub
    {e : Int}
    (hpower : f.Canonical (2 ^ (f.precision - 1)) e)
    (h : f.Canonical m q)
    (h' : f.Canonical m' q')
    (habove : 2 ^ (f.precision - 1) * 2 ^ e < (m : Rat) * 2 ^ q)
    (hne : (m' : Rat) * 2 ^ q' ≠ m * 2 ^ q) :
    2 ^ e ≤ |(m' : Rat) * 2 ^ q' - m * 2 ^ q| := by
  rcases hne.lt_or_gt with hbelow | hbeyond
  · rw [abs_sub_comm]
    refine le_trans ?_ (le_abs_self _)
    by_cases hlow : 2 ^ (f.precision - 1) * 2 ^ e ≤ (m' : Rat) * 2 ^ q'
    · exact unit_le_sub_of_lt h' h hlow hbelow
    · -- The power itself is between the two.
      have hcast : ((2 ^ (f.precision - 1) : Nat) : Rat) = 2 ^ (f.precision - 1) := by
        push_cast
        rfl
      have hstep := unit_le_sub_of_lt hpower h (by rw [hcast]) (by rwa [hcast])
      rw [hcast] at hstep
      linarith
  · exact (unit_le_sub_of_lt h h' habove.le hbeyond).trans (le_abs_self _)

theorem value_le_largest
    (h : f.Canonical m q) :
    (m : Rat) * 2 ^ q ≤ f.largest := by
  have hm := succ_le_of_canonical h
  calc
    (m : Rat) * 2 ^ q ≤ (2 ^ f.precision - 1) * 2 ^ q :=
      mul_le_mul_of_nonneg_right (by linarith) (two_zpow_pos q).le
    _ ≤ f.largest :=
      mul_le_mul_of_nonneg_left (zpow_le_zpow_right₀ (by norm_num) h.2.2.1) (by linarith)

theorem largest_lt_overflow (f : Format) :
    f.largest < f.overflow := by
  rw [largest, overflow]
  exact mul_lt_mul_of_pos_right (by linarith) (two_zpow_pos _)

/-- A value below another has a value one unit above it. -/
theorem reach_of_lt
    (h : f.Canonical m q)
    (h' : f.Canonical m' q')
    (hlt : (m : Rat) * 2 ^ q < m' * 2 ^ q') :
    m + 1 < 2 ^ f.precision ∨ q < f.maxExponent := by
  by_contra hreach
  obtain ⟨hfits, hmax⟩ := not_or.1 hreach
  have hq : q = f.maxExponent := le_antisymm h.2.2.1 (not_lt.1 hmax)
  have hm : (2 : Rat) ^ f.precision ≤ m + 1 := by exact_mod_cast not_lt.1 hfits
  have hstep := succ_mul_le_of_lt h h' hlt
  have hlargest := value_le_largest h'
  have hunit := two_zpow_pos f.maxExponent
  rw [hq] at hstep
  rw [largest] at hlargest
  nlinarith

/-- One unit more than a value is a value, with another parity, unless it is out of reach. -/
theorem exists_next
    (hprecision : 1 < f.precision)
    (h : f.Canonical m q)
    (hreach : m + 1 < 2 ^ f.precision ∨ q < f.maxExponent) :
    ∃ m' q',
      f.Canonical m' q' ∧
      (m' : Rat) * 2 ^ q' = (m + 1) * 2 ^ q ∧
      (m' % 2 = 0 ↔ m % 2 = 1) := by
  obtain ⟨hfits, hmin, hmax, hfull⟩ := h
  simp only [Nat.pow_eq] at hfits hfull
  by_cases hcarry : m + 1 < 2 ^ f.precision
  · refine ⟨m + 1, q, ⟨hcarry, hmin, hmax, ?_⟩, by push_cast; rfl, by omega⟩
    exact hfull.imp_right fun hle => Nat.le_succ_of_le hle
  · have hmeq : m + 1 = 2 ^ f.precision := by omega
    have hcast : (m : Rat) + 1 = 2 ^ f.precision := by exact_mod_cast hmeq
    have hpower := two_pow_precision f
    have heven : 2 ^ (f.precision - 1) % 2 = 0 := by
      rw [show f.precision - 1 = f.precision - 2 + 1 by omega, pow_succ]
      exact Nat.mul_mod_left _ _
    have hfits' : 2 ^ (f.precision - 1) < 2 ^ f.precision :=
      Nat.pow_lt_pow_right (by decide) (by omega)
    refine ⟨2 ^ (f.precision - 1), q + 1, ⟨hfits', by omega, by omega, Or.inr le_rfl⟩, ?_, ?_⟩
    · rw [hcast, cast_two_pow_precision, zpow_add_one₀ (by norm_num)]
      push_cast
      ring
    · omega

end Grid

section Significand

variable {f : Format}
variable {m' : Nat}
variable {q' : Int}
variable {x : Rat}

/-- The significand of a magnitude in its own unit, which may have a digit too many. -/
def significand (f : Format) (x : Rat) : Nat :=
  (roundInt .toEven (x / 2 ^ f.unitExponent x)).toNat

/-- The unit is the smallest in which a significand does. -/
theorem unitExponent_spec
    (f : Format)
    (hx : 0 < x) :
    f.minExponent ≤ f.unitExponent x ∧
      x < 2 ^ f.precision * 2 ^ f.unitExponent x ∧
      (f.unitExponent x = f.minExponent ∨
        2 ^ (f.precision - 1) * 2 ^ f.unitExponent x ≤ x) := by
  obtain ⟨hlow, hhigh⟩ := binaryExponent_spec hx
  refine ⟨le_max_left _ _, ?_, ?_⟩
  · rw [← zpow_natCast, ← zpow_add₀ (by norm_num)]
    refine hhigh.trans_le (zpow_le_zpow_right₀ (by norm_num) ?_)
    rw [unitExponent]
    omega
  · by_cases hleast : f.unitExponent x = f.minExponent
    · exact Or.inl hleast
    · refine Or.inr ?_
      rw [← zpow_precision]
      refine le_trans (zpow_le_zpow_right₀ (by norm_num) ?_) hlow
      rw [unitExponent] at hleast ⊢
      omega

theorem natCast_significand
    (hx : 0 < x) :
    (f.significand x : Int) = roundInt .toEven (x / 2 ^ f.unitExponent x) :=
  Int.toNat_of_nonneg (roundInt_nonneg _ (div_pos hx (two_zpow_pos _)).le)

theorem significand_le
    (hx : 0 < x) :
    f.significand x ≤ 2 ^ f.precision := by
  have hbound : x / 2 ^ f.unitExponent x ≤ ((2 ^ f.precision : Nat) : Int) := by
    rw [div_le_iff₀ (two_zpow_pos _)]
    push_cast
    exact (unitExponent_spec f hx).2.1.le
  have hround := roundInt_mono .toEven hbound
  rw [roundInt_intCast, ← natCast_significand hx] at hround
  exact_mod_cast hround

theorem le_significand
    (hx : 0 < x)
    (hleast : f.unitExponent x ≠ f.minExponent) :
    2 ^ (f.precision - 1) ≤ f.significand x := by
  have hbound : ((2 ^ (f.precision - 1) : Nat) : Int) ≤ x / 2 ^ f.unitExponent x := by
    rw [le_div_iff₀ (two_zpow_pos _)]
    push_cast
    exact (unitExponent_spec f hx).2.2.resolve_left hleast
  have hround := roundInt_mono .toEven hbound
  rw [roundInt_intCast, ← natCast_significand hx] at hround
  exact_mod_cast hround

/-- The distance of a multiple of the unit, counted in units. -/
theorem abs_mul_unit_sub
    (f : Format)
    (x : Rat)
    (n : Int) :
    |(n : Rat) * 2 ^ f.unitExponent x - x| =
      |(n : Rat) - x / 2 ^ f.unitExponent x| * 2 ^ f.unitExponent x := by
  have hunit := two_zpow_pos (f.unitExponent x)
  rw [← abs_of_pos hunit, ← abs_mul, abs_of_pos hunit, sub_mul, div_mul_cancel₀ _ hunit.ne']

theorem abs_significand_sub_le_half
    (hx : 0 < x) :
    |(f.significand x : Rat) * 2 ^ f.unitExponent x - x| ≤ 2 ^ f.unitExponent x / 2 := by
  have hhalf := abs_roundInt_sub_le .toEven (x / 2 ^ f.unitExponent x)
  have hcast : (f.significand x : Rat) = (f.significand x : Int) := rfl
  rw [hcast, abs_mul_unit_sub, natCast_significand hx]
  linarith [mul_le_mul_of_nonneg_right hhalf (two_zpow_pos (f.unitExponent x)).le]

/-- No multiple of the unit is nearer. -/
theorem abs_significand_sub_le
    (hx : 0 < x)
    (n : Nat) :
    |(f.significand x : Rat) * 2 ^ f.unitExponent x - x| ≤
      |(n : Rat) * 2 ^ f.unitExponent x - x| := by
  have hnearest := roundInt_nearest .toEven (x / 2 ^ f.unitExponent x) n
  have hcast : (f.significand x : Rat) = (f.significand x : Int) := rfl
  rw [hcast, ← Int.cast_natCast n, abs_mul_unit_sub, abs_mul_unit_sub, natCast_significand hx]
  exact mul_le_mul_of_nonneg_right hnearest (two_zpow_pos _).le

theorem even_significand_of_tie
    (hx : 0 < x)
    {n : Nat}
    (hne : n ≠ f.significand x)
    (htie :
      |(f.significand x : Rat) * 2 ^ f.unitExponent x - x| =
        |(n : Rat) * 2 ^ f.unitExponent x - x|) :
    f.significand x % 2 = 0 := by
  have hround := natCast_significand (f := f) hx
  have hcast : (f.significand x : Rat) = (f.significand x : Int) := rfl
  rw [hcast, ← Int.cast_natCast n, abs_mul_unit_sub, abs_mul_unit_sub, hround] at htie
  have hne' : (n : Int) ≠ roundInt .toEven (x / 2 ^ f.unitExponent x) := by
    rw [← hround]
    exact_mod_cast hne
  have heven := even_roundInt_of_tie hne' (mul_right_cancel₀ (two_zpow_pos _).ne' htie)
  rw [← hround] at heven
  omega

/-- No value is nearer, and a value of a smaller unit is farther. -/
theorem abs_significand_sub_le_value
    (hx : 0 < x)
    (h' : f.Canonical m' q') :
    |(f.significand x : Rat) * 2 ^ f.unitExponent x - x| ≤ |(m' : Rat) * 2 ^ q' - x| ∧
      (q' < f.unitExponent x →
        |(f.significand x : Rat) * 2 ^ f.unitExponent x - x| < |(m' : Rat) * 2 ^ q' - x|) := by
  by_cases hexponent : f.unitExponent x ≤ q'
  · obtain ⟨n, hn⟩ := exists_multiple hexponent m'
    rw [hn]
    exact ⟨abs_significand_sub_le hx n, fun hlt => absurd hexponent (not_le.2 hlt)⟩
  · -- The power of two at the lower end of the unit's range is between that value and `x`.
    have hleast := h'.2.1
    have hbelow := value_lt_of_exponent_lt h' (not_le.1 hexponent)
    have hpower := (unitExponent_spec f hx).2.2.resolve_left (by omega)
    have hnearest := abs_significand_sub_le (f := f) hx (2 ^ (f.precision - 1))
    push_cast at hnearest
    rw [abs_of_nonpos (by linarith : (2 : Rat) ^ (f.precision - 1) * _ - x ≤ 0)] at hnearest
    have hfar : |(m' : Rat) * 2 ^ q' - x| = x - m' * 2 ^ q' := by
      rw [abs_of_nonpos (by linarith)]
      ring
    rw [hfar]
    constructor
    · linarith
    · intro _
      linarith

theorem roundMagnitude_value
    (f : Format)
    (x : Rat) :
    ((f.roundMagnitude x).1 : Rat) * 2 ^ (f.roundMagnitude x).2 =
      f.significand x * 2 ^ f.unitExponent x := by
  by_cases hcarry : f.significand x = 2 ^ f.precision
  · have hmagnitude :
        f.roundMagnitude x = (2 ^ (f.precision - 1), f.unitExponent x + 1) :=
      if_pos hcarry
    rw [hmagnitude, hcarry]
    push_cast
    rw [cast_two_pow_precision, zpow_add_one₀ (by norm_num)]
    ring
  · have hmagnitude : f.roundMagnitude x = (f.significand x, f.unitExponent x) :=
      if_neg hcarry
    rw [hmagnitude]

/-- A rounded magnitude is a value unless its exponent is too large. -/
theorem canonical_roundMagnitude_iff
    (hprecision : 1 < f.precision)
    (hx : 0 < x) :
    f.Canonical (f.roundMagnitude x).1 (f.roundMagnitude x).2 ↔
      (f.roundMagnitude x).2 ≤ f.maxExponent := by
  refine ⟨fun h => h.2.2.1, fun hmax => ?_⟩
  have hmin := (unitExponent_spec f hx).1
  by_cases hcarry : f.significand x = 2 ^ f.precision
  · have hmagnitude :
        f.roundMagnitude x = (2 ^ (f.precision - 1), f.unitExponent x + 1) :=
      if_pos hcarry
    rw [hmagnitude] at hmax ⊢
    have hfits : 2 ^ (f.precision - 1) < 2 ^ f.precision :=
      Nat.pow_lt_pow_right (by decide) (by omega)
    exact ⟨hfits, by omega, hmax, Or.inr le_rfl⟩
  · have hmagnitude : f.roundMagnitude x = (f.significand x, f.unitExponent x) :=
      if_neg hcarry
    rw [hmagnitude] at hmax ⊢
    refine ⟨lt_of_le_of_ne (significand_le hx) hcarry, hmin, hmax, ?_⟩
    by_cases hleast : f.unitExponent x = f.minExponent
    · exact Or.inl hleast
    · exact Or.inr (le_significand hx hleast)

/-- The significand of a tie is even, also after a carry. -/
theorem even_roundMagnitude
    (hprecision : 1 < f.precision)
    (heven : f.significand x % 2 = 0) :
    (f.roundMagnitude x).1 % 2 = 0 := by
  by_cases hcarry : f.significand x = 2 ^ f.precision
  · have hmagnitude :
        f.roundMagnitude x = (2 ^ (f.precision - 1), f.unitExponent x + 1) :=
      if_pos hcarry
    rw [hmagnitude, show f.precision - 1 = f.precision - 2 + 1 by omega, pow_succ]
    exact Nat.mul_mod_left _ _
  · have hmagnitude : f.roundMagnitude x = (f.significand x, f.unitExponent x) :=
      if_neg hcarry
    rwa [hmagnitude]

/-- Below the overflow the rounded exponent is not too large. -/
theorem exponent_le_of_lt_overflow
    (hx : 0 < x)
    (h : x < f.overflow) :
    (f.roundMagnitude x).2 ≤ f.maxExponent := by
  have hhalf := abs_le.1 (abs_significand_sub_le_half (f := f) hx)
  have hspec := unitExponent_spec f hx
  have hleast := f.min_le_max
  have hpower : (0 : Rat) < 2 ^ (f.precision - 1) := by positivity
  rw [overflow, cast_two_pow_precision] at h
  by_contra hmax
  by_cases hcarry : f.significand x = 2 ^ f.precision
  · have hmagnitude :
        f.roundMagnitude x = (2 ^ (f.precision - 1), f.unitExponent x + 1) :=
      if_pos hcarry
    rw [hmagnitude] at hmax
    have hunit : (2 : Rat) ^ f.maxExponent ≤ 2 ^ f.unitExponent x :=
      zpow_le_zpow_right₀ (by norm_num) (by omega)
    have hone : (1 : Rat) ≤ 2 ^ (f.precision - 1) := one_le_pow₀ (by norm_num)
    rw [hcarry] at hhalf
    push_cast at hhalf
    rw [cast_two_pow_precision] at hhalf
    nlinarith
  · have hmagnitude : f.roundMagnitude x = (f.significand x, f.unitExponent x) :=
      if_neg hcarry
    rw [hmagnitude] at hmax
    have hunit : (2 : Rat) ^ (f.maxExponent + 1) ≤ 2 ^ f.unitExponent x :=
      zpow_le_zpow_right₀ (by norm_num) (by omega)
    rw [zpow_add_one₀ (by norm_num)] at hunit
    have hlow := hspec.2.2.resolve_left (by omega)
    have hbelow := mul_le_mul_of_nonneg_left hunit hpower.le
    have htop := two_zpow_pos f.maxExponent
    linarith

/-- From the overflow on it is. -/
theorem not_canonical_of_overflow_le
    (hx : 0 < x)
    (h : f.overflow ≤ x) :
    ¬ f.Canonical (f.roundMagnitude x).1 (f.roundMagnitude x).2 := by
  intro hcanonical
  have hvalue := value_le_largest hcanonical
  rw [roundMagnitude_value] at hvalue
  have hhalf := abs_significand_sub_le_half (f := f) hx
  have hlow := (abs_le.1 hhalf).1
  have hexponent : f.unitExponent x ≤ f.maxExponent := by
    refine le_trans ?_ hcanonical.2.2.1
    simp only [roundMagnitude]
    split
    · exact (Int.lt_succ _).le
    · exact le_rfl
  have hunit : (2 : Rat) ^ f.unitExponent x ≤ 2 ^ f.maxExponent :=
    zpow_le_zpow_right₀ (by norm_num) hexponent
  rw [overflow] at h
  rw [largest] at hvalue
  -- Only the largest value is as near as half a unit, and it is odd.
  have hsame : (2 : Rat) ^ f.unitExponent x = 2 ^ f.maxExponent := by linarith
  rw [hsame] at hlow hvalue
  have htop := two_zpow_pos f.maxExponent
  have hsignificand : (f.significand x : Rat) = 2 ^ f.precision - 1 := by
    refine mul_right_cancel₀ htop.ne' (le_antisymm hvalue ?_)
    linarith
  have hcount : f.significand x + 1 = 2 ^ f.precision := by
    have : (f.significand x : Rat) + 1 = 2 ^ f.precision := by linarith
    exact_mod_cast this
  have hxeq : x = (2 ^ f.precision - 1 / 2) * 2 ^ f.maxExponent := by
    rw [hsignificand] at hlow
    linarith
  have htie :
      |(f.significand x : Rat) * 2 ^ f.unitExponent x - x| =
        |((f.significand x + 1 : Nat) : Rat) * 2 ^ f.unitExponent x - x| := by
    rw [hsame, hcount, hsignificand, hxeq, abs_of_nonpos (by linarith), abs_of_nonneg]
    · push_cast
      ring
    · push_cast
      linarith
  have heven := even_significand_of_tie hx (Nat.succ_ne_self _) htie
  have hpower := two_pow_precision f
  omega

end Significand

end Format
end Number
end ChangeFeed
