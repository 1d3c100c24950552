import ChangeFeed.Proofs.Number.Correct

/-!
# Adjacent values

Two values of a format are adjacent if the upper one is a unit of the lower one
above it. Between them the nearest value is the one on whose side of the middle a
number is, and the middle itself goes to the even one. The values next to a finite
one are adjacent to it, on either side and across a power of two; in the
interchange encoding they are one code apart.

**Results.**

* `Adjacent.isNearest_left`, `Adjacent.isNearest_right`: the two sides of the middle.
* `adjacent_outward`, `adjacent_inward`: the next values are adjacent.
* `neighbor_toward`: the neighbor on the side of another magnitude.
* `toBits_neighbor`: the neighbor has the next code or the one before.
-/

namespace ChangeFeed
namespace Number
namespace Format

/-- Two values of which the second is one unit of the first above it. -/
structure Adjacent
    (f : Format)
    (m : Nat)
    (q : Int)
    (m' : Nat)
    (q' : Int) : Prop where
  left : f.Canonical m q
  right : f.Canonical m' q'
  step : (m' : Rat) * 2 ^ q' = (m + 1) * 2 ^ q

section Sides

variable {f : Format}
variable {m m' n : Nat}
variable {q q' e : Int}
variable {x : Rat}

theorem Adjacent.lt
    (h : f.Adjacent m q m' q') :
    (m : Rat) * 2 ^ q < m' * 2 ^ q' := by
  rw [h.step]
  exact mul_lt_mul_of_pos_right (by linarith) (two_zpow_pos q)

/-- There is no value between the two. -/
theorem Adjacent.le_or_le
    (h : f.Adjacent m q m' q')
    (hvalue : f.Canonical n e) :
    (n : Rat) * 2 ^ e ≤ m * 2 ^ q ∨ (m' : Rat) * 2 ^ q' ≤ n * 2 ^ e := by
  rcases le_or_gt ((n : Rat) * 2 ^ e) (m * 2 ^ q) with hle | hlt
  · exact Or.inl hle
  · refine Or.inr ?_
    rw [h.step]
    exact succ_mul_le_of_lt h.left hvalue hlt

/-- Up to the middle the lower one is the nearest, at the middle if it is even. -/
theorem Adjacent.isNearest_left
    (h : f.Adjacent m q m' q')
    (hlow : (m : Rat) * 2 ^ q ≤ x)
    (hmiddle : 2 * x ≤ m * 2 ^ q + m' * 2 ^ q')
    (htie : 2 * x = m * 2 ^ q + m' * 2 ^ q' → m % 2 = 0) :
    f.IsNearest x m q where
  canonical := h.left
  nearest hvalue := by
    have hlt := h.lt
    rcases h.le_or_le hvalue with hle | hge
    · rw [abs_of_nonpos (by linarith), abs_of_nonpos (by linarith)]
      linarith
    · rw [abs_lower_sub_le_iff (by linarith)]
      linarith
  even hvalue hne hsame := by
    have hlt := h.lt
    rcases h.le_or_le hvalue with hle | hge
    · rw [abs_of_nonpos (by linarith), abs_of_nonpos (by linarith)] at hsame
      exact absurd (by linarith) hne
    · have hupper := (abs_upper_sub_le_iff (by linarith)).1 hsame.ge
      exact htie (by linarith)

/-- From the middle on the upper one is the nearest, at the middle if it is even. -/
theorem Adjacent.isNearest_right
    (h : f.Adjacent m q m' q')
    (hhigh : x ≤ m' * 2 ^ q')
    (hmiddle : (m : Rat) * 2 ^ q + m' * 2 ^ q' ≤ 2 * x)
    (htie : 2 * x = m * 2 ^ q + m' * 2 ^ q' → m' % 2 = 0) :
    f.IsNearest x m' q' where
  canonical := h.right
  nearest hvalue := by
    have hlt := h.lt
    rcases h.le_or_le hvalue with hle | hge
    · rw [abs_upper_sub_le_iff (by linarith)]
      linarith
    · rw [abs_of_nonneg (by linarith), abs_of_nonneg (by linarith)]
      linarith
  even hvalue hne hsame := by
    have hlt := h.lt
    rcases h.le_or_le hvalue with hle | hge
    · have hlower := (abs_lower_sub_le_iff (by linarith)).1 hsame.ge
      exact htie (by linarith)
    · rw [abs_of_nonneg (by linarith), abs_of_nonneg (by linarith)] at hsame
      exact absurd (by linarith) hne

/-- What is nearest from an even value on is what is not below the middle before it. -/
theorem Adjacent.le_nearest_iff
    (hprecision : 1 < f.precision)
    (h : f.Adjacent m q m' q')
    (heven : m' % 2 = 0)
    (hnearest : f.IsNearest x n e) :
    (m' : Rat) * 2 ^ q' ≤ n * 2 ^ e ↔ (m : Rat) * 2 ^ q + m' * 2 ^ q' ≤ 2 * x := by
  have hlt := h.lt
  constructor
  · intro hle
    by_contra hbelow
    rcases le_total ((m : Rat) * 2 ^ q) x with hge | hless
    · have hleft := h.isNearest_left hge (by linarith) (fun htie => absurd htie.ge hbelow)
      obtain ⟨rfl, rfl⟩ := hleft.unique hprecision hnearest
      linarith
    · have hvalue := hnearest.value_le h.left hless
      linarith
  · intro hmiddle
    rcases le_total x ((m' : Rat) * 2 ^ q') with hle | hge
    · have hright := h.isNearest_right hle hmiddle (fun _ => heven)
      obtain ⟨rfl, rfl⟩ := hright.unique hprecision hnearest
      exact le_rfl
    · exact hnearest.le_value h.right hge

end Sides

end Format

namespace Floating

open Format

variable {f : Format}
variable {m : Nat}
variable {q : Int}
variable {negative up : Bool}

/-- A value in full digits moves to the next exponent when a unit is added. -/
theorem adjacent_carry
    (h : f.Canonical m q)
    (hcarry : m + 1 = 2 ^ f.precision)
    (hmax : q < f.maxExponent) :
    f.Adjacent m q (2 ^ (f.precision - 1)) (q + 1) where
  left := h
  right := by
    have hfits : 2 ^ (f.precision - 1) < 2 ^ f.precision :=
      Nat.pow_lt_pow_right (by decide) (Nat.sub_lt f.precision_pos Nat.one_pos)
    have hmin := h.2.1
    exact ⟨hfits, by omega, by omega, Or.inr le_rfl⟩
  step := by
    have hcast : (m : Rat) + 1 = 2 ^ f.precision := by exact_mod_cast hcarry
    rw [hcast, cast_two_pow_precision, zpow_add_one₀ (by norm_num)]
    push_cast
    ring

theorem carry_of_not_canonical
    (h : f.Canonical m q)
    (hfits : ¬ f.Canonical (m + 1) q) :
    m + 1 = 2 ^ f.precision := by
  by_contra hne
  refine hfits ⟨lt_of_le_of_ne h.1 hne, h.2.1, h.2.2.1, ?_⟩
  exact h.2.2.2.imp_right Nat.le_succ_of_le

/-- The next value away from zero is adjacent, or infinite after the largest. -/
theorem adjacent_outward
    (negative : Bool)
    (h : f.Canonical m q) :
    (∃ m' q', ∃ hnext : f.Adjacent m q m' q',
      (finite negative m q h).outward = .finite negative m' q' hnext.right) ∨
      (m + 1 = 2 ^ f.precision ∧ q = f.maxExponent ∧
        (finite negative m q h).outward = .infinite negative) := by
  by_cases hfits : f.Canonical (m + 1) q
  · refine Or.inl ⟨m + 1, q, ⟨h, hfits, by push_cast; rfl⟩, ?_⟩
    simp only [outward, dif_pos hfits]
  · have hcarry := carry_of_not_canonical h hfits
    by_cases hmax : q < f.maxExponent
    · have hnext := adjacent_carry h hcarry hmax
      refine Or.inl ⟨_, _, hnext, ?_⟩
      exact (dif_neg hfits).trans (dif_pos hnext.right)
    · have hq : q = f.maxExponent := le_antisymm h.2.2.1 (not_lt.1 hmax)
      refine Or.inr ⟨hcarry, hq, ?_⟩
      have hnone : ¬ f.Canonical (Nat.pow 2 (f.precision - 1)) (q + 1) :=
        fun hcanonical => hmax (Int.lt_of_add_one_le hcanonical.2.2.1)
      exact (dif_neg hfits).trans (dif_neg hnone)

/-- The next value toward zero is adjacent. -/
theorem adjacent_inward
    (negative : Bool)
    (h : f.Canonical m q)
    (hm : m ≠ 0) :
    ∃ m' q', ∃ hnext : f.Adjacent m' q' m q,
      (finite negative m q h).inward = .finite negative m' q' hnext.left := by
  obtain ⟨hlt, hmin, hmax, hfull⟩ := h
  simp only [Nat.pow_eq] at hlt hfull
  by_cases hfits : f.Canonical (m - 1) q
  · refine ⟨m - 1, q, ⟨hfits, ⟨hlt, hmin, hmax, hfull⟩, ?_⟩, dif_pos hfits⟩
    rw [Nat.cast_pred (Nat.pos_of_ne_zero hm), sub_add_cancel]
  · -- Then a further digit is needed, which is there unless the exponent is the least.
    have hleast : q ≠ f.minExponent :=
      fun heq => hfits ⟨(Nat.sub_le m 1).trans_lt hlt, hmin, hmax, Or.inl heq⟩
    have hpower : m = 2 ^ (f.precision - 1) := by
      refine le_antisymm ?_ (hfull.resolve_left hleast)
      by_contra hless
      exact hfits
        ⟨(Nat.sub_le m 1).trans_lt hlt, hmin, hmax,
          Or.inr (Nat.le_sub_one_of_lt (not_le.1 hless))⟩
    have hdigits := two_pow_precision f
    have hpos := Nat.two_pow_pos (f.precision - 1)
    have hcanonical : f.Canonical (2 ^ f.precision - 1) (q - 1) := by
      refine ⟨?_, by omega, by omega, Or.inr ?_⟩ <;> simp only [Nat.pow_eq] <;> omega
    have hnext := adjacent_carry hcanonical (by omega) (by omega)
    rw [sub_add_cancel, ← hpower] at hnext
    exact ⟨_, _, hnext, (dif_neg hfits).trans (dif_pos hcanonical)⟩

/-- A value below the largest has an adjacent one above it. -/
theorem exists_adjacent_above
    (negative : Bool)
    (h : f.Canonical m q)
    (hlt : (m : Rat) * 2 ^ q < f.largest) :
    ∃ m' q', ∃ hnext : f.Adjacent m q m' q',
      (finite negative m q h).outward = .finite negative m' q' hnext.right := by
  rcases adjacent_outward negative h with hnext | ⟨hcarry, hq, -⟩
  · exact hnext
  · have hm : (m : Rat) = 2 ^ f.precision - 1 := by
      rw [eq_sub_iff_add_eq]
      exact_mod_cast hcarry
    rw [hm, hq] at hlt
    exact absurd hlt (lt_irrefl _)

/-- The neighbor on the side of another magnitude is the next value away from zero or toward it. -/
theorem neighbor_toward
    (negative : Bool)
    (h : f.Canonical m q)
    {x : Rat}
    (hx : 0 ≤ x)
    (hne : x ≠ m * 2 ^ q) :
    (finite negative m q h).neighbor
        (decide (signed negative (m * 2 ^ q) < signed negative x)) =
      if (m : Rat) * 2 ^ q < x then
        (finite negative m q h).outward
      else
        (finite negative m q h).inward := by
  by_cases hzero : m = 0
  · subst hzero
    have hq : q = f.minExponent := by
      rcases h.2.2.2 with hleast | hfull
      · exact hleast
      · exact absurd hfull (by simp)
    subst hq
    have hpos : 0 < x := lt_of_le_of_ne hx (by simpa using hne.symm)
    cases negative <;> simp [neighbor, signed, hpos, hpos.not_gt, Floating.zero]
  · rcases lt_or_gt_of_ne hne with hless | hmore
    · cases negative <;> simp [neighbor, signed, hzero, hless, hless.le]
    · cases negative <;> simp [neighbor, signed, hzero, hmore, hmore.not_gt]

/-- A value that is not zero has its sign in common with its neighbor, which is next to it. -/
theorem neighbor_of_ne_zero
    (negative up : Bool)
    (h : f.Canonical m q)
    (hm : m ≠ 0) :
    (finite negative m q h).neighbor up =
      if negative = !up then
        (finite negative m q h).outward
      else
        (finite negative m q h).inward := by
  simp only [neighbor, hm, if_false]

/-- Both zeros have the least values next to them. -/
theorem neighbor_of_eq_zero
    (negative up : Bool)
    (h : f.Canonical 0 q) :
    (finite negative 0 q h).neighbor up = (zero (!up)).outward := by
  simp only [neighbor, if_true]

theorem abs_signed_add
    (negative : Bool)
    {x y : Rat}
    (hx : 0 ≤ x)
    (hy : 0 ≤ y) :
    |signed negative x + signed negative y| = x + y := by
  cases negative with
  | false => exact abs_of_nonneg (add_nonneg hx hy)
  | true =>
      rw [show signed true x + signed true y = -(x + y) by simp [signed]; ring, abs_neg,
        abs_of_nonneg (add_nonneg hx hy)]

/-- A value and its neighbor, if that is finite, have adjacent magnitudes on one side of zero. -/
theorem exists_adjacent_of_neighbor
    {x : Floating f}
    {s t : Rat}
    (hx : x.toRat? = some s)
    (hy : (x.neighbor up).toRat? = some t) :
    ∃ m q m' q',
      f.Adjacent m q m' q' ∧
      |s + t| = (m : Rat) * 2 ^ q + m' * 2 ^ q' := by
  obtain ⟨negative, m, q, h, rfl, rfl⟩ := exists_finite_of_toRat? hx
  by_cases hzero : m = 0
  · subst hzero
    rw [neighbor_of_eq_zero] at hy
    rcases adjacent_outward (!up) f.canonical_zero with ⟨m', q', hnext, hout⟩ | ⟨-, -, hout⟩
    · rw [zero, hout] at hy
      cases hy
      have hvalue := value_nonneg m' q'
      refine ⟨_, _, m', q', hnext, ?_⟩
      rw [show signed negative (((0 : Nat) : Rat) * 2 ^ q) = 0 by cases negative <;> simp [signed],
        zero_add, abs_signed, abs_of_nonneg hvalue]
      simp
    · rw [zero, hout] at hy
      contradiction
  · have hvalue := value_nonneg m q
    rw [neighbor_of_ne_zero negative up h hzero] at hy
    split at hy
    · rcases adjacent_outward negative h with ⟨m', q', hnext, hout⟩ | ⟨-, -, hout⟩
      · rw [hout] at hy
        cases hy
        exact ⟨m, q, m', q', hnext, abs_signed_add negative hvalue (value_nonneg m' q')⟩
      · rw [hout] at hy
        contradiction
    · obtain ⟨m', q', hnext, hin⟩ := adjacent_inward negative h hzero
      rw [hin] at hy
      cases hy
      refine ⟨m', q', m, q, hnext, ?_⟩
      rw [abs_signed_add negative hvalue (value_nonneg m' q'), add_comm]

section Codes

/-- The code of a magnitude without its sign. -/
theorem toBits_finite
    (negative : Bool)
    (h : f.Canonical m q) :
    (finite negative m q h).toBits =
      (if negative then f.exponentCodes * 2 ^ (f.precision - 1) else 0) +
        (q - f.minExponent).toNat * 2 ^ (f.precision - 1) + m := rfl

/-- The code of the next exponent is as many codes on as there are significands of full digits. -/
theorem exponentCode_succ
    (hmin : f.minExponent ≤ q) :
    (q + 1 - f.minExponent).toNat * 2 ^ (f.precision - 1) =
      (q - f.minExponent).toNat * 2 ^ (f.precision - 1) + 2 ^ (f.precision - 1) := by
  rw [show (q + 1 - f.minExponent).toNat = (q - f.minExponent).toNat + 1 by omega,
    Nat.succ_mul]

/-- Adjacent values have adjacent codes. -/
theorem toBits_of_adjacent
    (negative : Bool)
    {m' : Nat}
    {q' : Int}
    (h : f.Adjacent m q m' q') :
    (finite negative m' q' h.right).toBits = (finite negative m q h.left).toBits + 1 := by
  have hlt := h.lt
  obtain ⟨hleft, hright, hstep⟩ := h
  rw [toBits_finite, toBits_finite]
  by_cases hfits : f.Canonical (m + 1) q
  · obtain ⟨rfl, rfl⟩ := canonical_unique hright hfits (by rw [hstep]; push_cast; rfl)
    omega
  · have hcarry := carry_of_not_canonical hleft hfits
    have hmax := (reach_of_lt hleft hright hlt).resolve_left (by omega)
    have hnext := adjacent_carry hleft hcarry hmax
    obtain ⟨rfl, rfl⟩ := canonical_unique hright hnext.right (hstep.trans hnext.step.symm)
    have hdigits := two_pow_precision f
    have hcode := exponentCode_succ hleft.2.1
    omega

theorem toBits_outward
    (negative : Bool)
    (h : f.Canonical m q) :
    (finite negative m q h).outward.toBits = (finite negative m q h).toBits + 1 := by
  rcases adjacent_outward negative h with ⟨m', q', hnext, hout⟩ | ⟨hcarry, rfl, hout⟩
  · rw [hout]
    exact toBits_of_adjacent negative hnext
  · rw [hout, toBits_finite]
    have hdigits := two_pow_precision f
    have htop :
        (f.exponentCodes - 1) * 2 ^ (f.precision - 1) =
          (f.maxExponent - f.minExponent).toNat * 2 ^ (f.precision - 1) +
            2 * 2 ^ (f.precision - 1) := by
      rw [exponentCodes, ← Nat.add_mul]
      rfl
    simp only [toBits, Nat.pow_eq]
    omega

theorem toBits_inward
    (negative : Bool)
    (h : f.Canonical m q)
    (hm : m ≠ 0) :
    (finite negative m q h).inward.toBits + 1 = (finite negative m q h).toBits := by
  obtain ⟨m', q', hnext, hin⟩ := adjacent_inward negative h hm
  rw [hin]
  exact (toBits_of_adjacent negative hnext).symm

/--
The code of the neighbor of a value that is not zero: away from zero one more, toward
zero one less.
-/
theorem toBits_neighbor
    (negative up : Bool)
    (h : f.Canonical m q)
    (hm : m ≠ 0) :
    ((finite negative m q h).neighbor up).toBits =
      if (!negative) = up then
        (finite negative m q h).toBits + 1
      else
        (finite negative m q h).toBits - 1 := by
  have hout := toBits_outward negative h
  have hin := toBits_inward negative h hm
  simp only [neighbor, hm, if_false]
  cases negative <;> cases up <;> simp <;> omega

end Codes

end Floating
end Number
end ChangeFeed
