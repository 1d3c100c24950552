import ChangeFeed.Proofs.Number.Grid

/-!
# Correct rounding

What it means that a value of a format is the nearest to a rational is said here
without the way it is found: none of the finite values is nearer, of two that are
as near it is the one with an even significand, and from half a unit above the
largest value on it is infinite. The value that a format is asked for is this one,
and there is no other.

Everything about the order of rounded values follows from that, as values of a
format are themselves not moved by rounding.

**Results.**

* `exists_nearest_eq`, `nearest_eq_of_isNearest`: the value of a magnitude is the
  nearest one and no other is.
* `IsNearest.mono`: rounding keeps the order.
* `IsNearest.abs_sub_le`: how far the nearest value is at most.
* `Floating.isNearest_iff`, `Literal.isNearest_iff`: the same for a number and its
  sign, and for a literal.
-/

namespace ChangeFeed
namespace Number
namespace Format

/--
Significand and exponent of the value nearest to the magnitude `x`; of two that are
as near, of the one with the even significand.
-/
structure IsNearest
    (f : Format)
    (x : Rat)
    (m : Nat)
    (q : Int) : Prop where
  canonical : f.Canonical m q
  nearest :
    ∀ {m' q'},
      f.Canonical m' q' →
      |m * 2 ^ q - x| ≤ |m' * 2 ^ q' - x|
  even :
    ∀ {m' q'},
      f.Canonical m' q' →
      (m' : Rat) * 2 ^ q' ≠ m * 2 ^ q →
      |m * 2 ^ q - x| = |m' * 2 ^ q' - x| →
      m % 2 = 0

section Nearest

variable {f : Format}
variable {m m' : Nat}
variable {q q' : Int}
variable {x y : Rat}

/-- The nearest value is not above a value that `x` is not above. -/
theorem IsNearest.value_le
    (h : f.IsNearest x m q)
    (h' : f.Canonical m' q')
    (hx : x ≤ m' * 2 ^ q') :
    (m : Rat) * 2 ^ q ≤ m' * 2 ^ q' := by
  by_contra hlt
  have hnearest := h.nearest h'
  rw [abs_of_nonneg (by linarith), abs_of_nonneg (by linarith)] at hnearest
  linarith

/-- The nearest value is not below a value that `x` is not below. -/
theorem IsNearest.le_value
    (h : f.IsNearest x m q)
    (h' : f.Canonical m' q')
    (hx : (m' : Rat) * 2 ^ q' ≤ x) :
    (m' : Rat) * 2 ^ q' ≤ m * 2 ^ q := by
  by_contra hlt
  have hnearest := h.nearest h'
  rw [abs_of_nonpos (by linarith), abs_of_nonpos (by linarith)] at hnearest
  linarith

/-- Of two values as near to `x`, with another in between, neither is the nearest. -/
theorem IsNearest.not_lt
    (hprecision : 1 < f.precision)
    (h : f.IsNearest x m q)
    (h' : f.IsNearest x m' q') :
    ¬ (m : Rat) * 2 ^ q < m' * 2 ^ q' := by
  intro hlt
  have hdistance := le_antisymm (h.nearest h'.canonical) (h'.nearest h.canonical)
  have heven := h.even h'.canonical hlt.ne' hdistance
  have heven' := h'.even h.canonical hlt.ne hdistance.symm
  have hmiddle := (abs_upper_sub_le_iff hlt).1 hdistance.ge
  obtain ⟨n, e, hnext, hvalue, hparity⟩ :=
    exists_next hprecision h.canonical (reach_of_lt h.canonical h'.canonical hlt)
  have hstep := succ_mul_le_of_lt h.canonical h'.canonical hlt
  rcases hstep.eq_or_lt with hadjacent | hbetween
  · have hsame := (canonical_unique hnext h'.canonical (hvalue.trans hadjacent)).1
    omega
  · have hunit := two_zpow_pos q
    have hnearest := h.nearest hnext
    rw [hvalue, abs_lower_sub_le_iff (by linarith)] at hnearest
    linarith

/-- There is only one nearest value. -/
theorem IsNearest.unique
    (hprecision : 1 < f.precision)
    (h : f.IsNearest x m q)
    (h' : f.IsNearest x m' q') :
    m = m' ∧ q = q' := by
  refine canonical_unique h.canonical h'.canonical ?_
  exact le_antisymm (le_of_not_gt (h'.not_lt hprecision h)) (le_of_not_gt (h.not_lt hprecision h'))

/-- Rounding keeps the order. -/
theorem IsNearest.mono
    (hprecision : 1 < f.precision)
    (h : f.IsNearest x m q)
    (h' : f.IsNearest y m' q')
    (hxy : x ≤ y) :
    (m : Rat) * 2 ^ q ≤ m' * 2 ^ q' := by
  by_contra hless
  have hlt := not_le.1 hless
  -- Neither `x` is below the middle of the two values nor `y` above it.
  have hx := (abs_upper_sub_le_iff hlt).1 (h.nearest h'.canonical)
  have hy := (abs_lower_sub_le_iff hlt).1 (h'.nearest h.canonical)
  have hsame : x = y := by linarith
  subst hsame
  exact h'.not_lt hprecision h hlt

/-- A rounded magnitude that is a value is the nearest. -/
theorem isNearest_roundMagnitude
    (hprecision : 1 < f.precision)
    (hx : 0 < x)
    (h : f.Canonical (f.roundMagnitude x).1 (f.roundMagnitude x).2) :
    f.IsNearest x (f.roundMagnitude x).1 (f.roundMagnitude x).2 where
  canonical := h
  nearest h' := by
    rw [roundMagnitude_value]
    exact (abs_significand_sub_le_value hx h').1
  even {m' q'} h' hne htie := by
    rw [roundMagnitude_value] at hne htie
    refine even_roundMagnitude hprecision ?_
    by_cases hexponent : f.unitExponent x ≤ q'
    · obtain ⟨n, hn⟩ := exists_multiple hexponent m'
      rw [hn] at hne htie
      exact even_significand_of_tie hx (fun hsame => hne (by rw [hsame])) htie
    · have hfar := (abs_significand_sub_le_value hx h').2 (not_le.1 hexponent)
      exact absurd htie hfar.ne

/-- A value is the nearest to itself. -/
theorem isNearest_self
    (h : f.Canonical m q) :
    f.IsNearest (m * 2 ^ q) m q where
  canonical := h
  nearest _ := by
    rw [sub_self, abs_zero]
    exact abs_nonneg _
  even _ hne htie := by
    rw [sub_self, abs_zero, eq_comm, abs_eq_zero, sub_eq_zero] at htie
    exact absurd htie hne

theorem isNearest_zero (f : Format) :
    f.IsNearest 0 0 f.minExponent := by
  have h := isNearest_self f.canonical_zero
  rwa [Nat.cast_zero, zero_mul] at h

/-- Below a power of two the nearest value is at most half the unit there away. -/
theorem IsNearest.abs_sub_le
    {e : Int}
    (hprecision : 1 < f.precision)
    (h : f.IsNearest x m q)
    (hx : 0 ≤ x)
    (hover : x < f.overflow)
    (hleast : f.minExponent ≤ e)
    (hlt : x < 2 ^ f.precision * 2 ^ e) :
    |(m : Rat) * 2 ^ q - x| ≤ 2 ^ e / 2 := by
  rcases hx.eq_or_lt with rfl | hpos
  · have hzero := h.nearest f.canonical_zero
    rw [Nat.cast_zero, zero_mul, sub_self, abs_zero] at hzero
    have hunit := two_zpow_pos e
    linarith
  · have hexponent : binaryExponent x < f.precision + e := by
      rw [← zpow_lt_zpow_iff_right₀ (by norm_num : (1 : Rat) < 2),
        zpow_add₀ (by norm_num), zpow_natCast]
      exact (binaryExponent_spec hpos).1.trans_lt hlt
    have hunit : (2 : Rat) ^ f.unitExponent x ≤ 2 ^ e := by
      refine zpow_le_zpow_right₀ (by norm_num) ?_
      rw [unitExponent]
      omega
    have hcanonical :=
      (canonical_roundMagnitude_iff hprecision hpos).2 (exponent_le_of_lt_overflow hpos hover)
    have hnearest := h.nearest hcanonical
    rw [roundMagnitude_value] at hnearest
    have hhalf := abs_significand_sub_le_half (f := f) hpos
    linarith

/-- Below the overflow a magnitude is given its nearest value. -/
theorem exists_nearest_eq
    (hprecision : 1 < f.precision)
    (hx : 0 ≤ x)
    (h : x < f.overflow)
    (negative : Bool) :
    ∃ m q, ∃ hnearest : f.IsNearest x m q,
      f.nearest negative x = .finite negative m q hnearest.canonical := by
  rcases hx.eq_or_lt with rfl | hpos
  · exact ⟨_, _, isNearest_zero f, if_pos rfl⟩
  · have hcanonical :=
      (canonical_roundMagnitude_iff hprecision hpos).2 (exponent_le_of_lt_overflow hpos h)
    refine ⟨_, _, isNearest_roundMagnitude hprecision hpos hcanonical, ?_⟩
    rw [Format.nearest, if_neg hpos.ne']
    exact dif_pos hcanonical

/-- A magnitude is given no other value than the nearest. -/
theorem nearest_eq_of_isNearest
    (hprecision : 1 < f.precision)
    (hx : 0 ≤ x)
    (h : x < f.overflow)
    (hnearest : f.IsNearest x m q)
    (negative : Bool) :
    f.nearest negative x = .finite negative m q hnearest.canonical := by
  obtain ⟨n, e, hfound, hvalue⟩ := exists_nearest_eq hprecision hx h negative
  obtain ⟨rfl, rfl⟩ := hnearest.unique hprecision hfound
  exact hvalue

theorem overflow_pos (f : Format) :
    0 < f.overflow := by
  have hone : (1 : Rat) ≤ 2 ^ f.precision := one_le_pow₀ (by norm_num)
  exact mul_pos (by linarith) (two_zpow_pos _)

theorem nearest_of_overflow_le
    (h : f.overflow ≤ x)
    (negative : Bool) :
    f.nearest negative x = .infinite negative := by
  have hpos : 0 < x := (overflow_pos f).trans_le h
  rw [Format.nearest, if_neg hpos.ne']
  exact dif_neg (not_canonical_of_overflow_le hpos h)

end Nearest

end Format

section Signed

variable {f : Format}
variable {negative : Bool}
variable {x y : Rat}

theorem signed_sub
    (negative : Bool)
    (x y : Rat) :
    signed negative x - signed negative y = signed negative (x - y) := by
  cases negative with
  | false => rfl
  | true => exact neg_sub_neg x y |>.trans (neg_sub x y).symm

@[simp] theorem abs_signed
    (negative : Bool)
    (x : Rat) :
    |signed negative x| = |x| := by
  cases negative with
  | false => rfl
  | true => exact abs_neg x

theorem signed_injective
    (negative : Bool)
    (h : signed negative x = signed negative y) :
    x = y := by
  cases negative with
  | false => exact h
  | true => exact neg_injective h

@[simp] theorem signed_signed
    (negative : Bool)
    (x : Rat) :
    signed negative (signed negative x) = x := by
  cases negative with
  | false => rfl
  | true => exact neg_neg x

/-- What has the other sign is farther by twice as much. -/
theorem abs_signed_not_sub
    (hx : 0 ≤ x)
    (hy : 0 ≤ y) :
    |signed (!negative) y - signed negative x| = y + x := by
  cases negative with
  | false =>
      rw [show signed (!false) y - signed false x = -(y + x) by simp [signed]; ring, abs_neg,
        abs_of_nonneg (by linarith)]
  | true =>
      rw [show signed (!true) y - signed true x = y + x by simp [signed],
        abs_of_nonneg (by linarith)]

end Signed

namespace Floating

variable {f : Format}

/--
The value of the format nearest to `v`: no finite value of either sign is nearer, and
if another is as near, this one has an even significand. From the overflow on it is
infinite. The sign, which a zero has as well, is given apart.
-/
def IsNearest
    (z : Floating f)
    (negative : Bool)
    (v : Rat) : Prop :=
  match z with
  | .nan => False
  | .infinite sign => sign = negative ∧ f.overflow ≤ |v|
  | .finite sign m q _ =>
      sign = negative ∧
        |v| < f.overflow ∧
        ∀ (y : Floating f) (w : Rat),
          y.toRat? = some w →
          |signed sign (m * 2 ^ q) - v| ≤ |w - v| ∧
            (w ≠ signed sign (m * 2 ^ q) →
              |signed sign (m * 2 ^ q) - v| = |w - v| →
              m % 2 = 0)

variable {m : Nat}
variable {q : Int}
variable {x : Rat}

/-- Only a finite value is a rational. -/
theorem exists_finite_of_toRat?
    {y : Floating f}
    {w : Rat}
    (hy : y.toRat? = some w) :
    ∃ negative m q, ∃ h : f.Canonical m q,
      y = .finite negative m q h ∧ w = signed negative (m * 2 ^ q) := by
  cases y with
  | nan => contradiction
  | infinite negative => contradiction
  | finite negative m q h => exact ⟨negative, m, q, h, rfl, (Option.some.inj hy).symm⟩

theorem exists_finite_of_isFinite
    {y : Floating f}
    (hy : y.isFinite = true) :
    ∃ negative m q, ∃ h : f.Canonical m q,
      y = .finite negative m q h := by
  cases y with
  | nan => contradiction
  | infinite negative => contradiction
  | finite negative m q h => exact ⟨negative, m, q, h, rfl⟩

/-- Values of the other sign are not nearer either. -/
theorem nearest_of_format
    (negative : Bool)
    (hx : 0 ≤ x)
    (h : f.IsNearest x m q)
    {y : Floating f}
    {w : Rat}
    (hy : y.toRat? = some w) :
    |signed negative (m * 2 ^ q) - signed negative x| ≤ |w - signed negative x| ∧
      (w ≠ signed negative (m * 2 ^ q) →
        |signed negative (m * 2 ^ q) - signed negative x| = |w - signed negative x| →
        m % 2 = 0) := by
  obtain ⟨sign, m', q', h', -, rfl⟩ := exists_finite_of_toRat? hy
  have hvalue := Format.value_nonneg m' q'
  have hnearest := h.nearest h'
  rw [signed_sub, abs_signed]
  by_cases hsign : sign = negative
  · subst hsign
    rw [signed_sub, abs_signed]
    refine ⟨hnearest, fun hne htie => h.even h' (fun hsame => hne (by rw [hsame])) htie⟩
  · obtain rfl : sign = !negative := Bool.eq_not.2 hsign
    rw [abs_signed_not_sub hx hvalue]
    have hclose : |(m' : Rat) * 2 ^ q' - x| ≤ m' * 2 ^ q' + x := by
      rw [abs_le]
      constructor <;> linarith
    refine ⟨hnearest.trans hclose, fun hne htie => ?_⟩
    by_cases hsame : (m' : Rat) * 2 ^ q' = m * 2 ^ q
    · -- Then zero is the nearest value, and it has no other sign.
      exfalso
      have hzero := h.nearest f.canonical_zero
      rw [Nat.cast_zero, zero_mul, zero_sub, abs_neg, abs_of_nonneg hx] at hzero
      rw [htie, hsame] at hzero
      rw [hsame] at hvalue hne
      have hnone : (m : Rat) * 2 ^ q = 0 := by linarith
      rw [hnone] at hne
      cases negative <;> simp [signed] at hne
    · exact h.even h' hsame (le_antisymm hnearest (htie ▸ hclose))

/-- The nearest value to a number with its sign is the one that its magnitude is given. -/
theorem isNearest_iff
    (hprecision : 1 < f.precision)
    (hx : 0 ≤ x)
    (negative : Bool)
    (z : Floating f) :
    z.IsNearest negative (signed negative x) ↔ z = f.nearest negative x := by
  constructor
  · intro h
    cases z with
    | nan => exact h.elim
    | infinite sign =>
        obtain ⟨rfl, hover⟩ := h
        rw [abs_signed, abs_of_nonneg hx] at hover
        exact (Format.nearest_of_overflow_le hover sign).symm
    | finite sign m q hcanonical =>
        obtain ⟨rfl, hless, hall⟩ := h
        rw [abs_signed, abs_of_nonneg hx] at hless
        have hnearest : f.IsNearest x m q :=
          { canonical := hcanonical
            nearest := fun h' => by
              have hthis := (hall (.finite sign _ _ h') _ rfl).1
              rwa [signed_sub, signed_sub, abs_signed, abs_signed] at hthis
            even := fun h' hne htie => by
              refine (hall (.finite sign _ _ h') _ rfl).2 (fun hsame => ?_) ?_
              · exact hne (signed_injective sign hsame)
              · rwa [signed_sub, signed_sub, abs_signed, abs_signed] }
        exact (Format.nearest_eq_of_isNearest hprecision hx hless hnearest sign).symm
  · rintro rfl
    by_cases hover : f.overflow ≤ x
    · rw [Format.nearest_of_overflow_le hover]
      refine ⟨rfl, ?_⟩
      rwa [abs_signed, abs_of_nonneg hx]
    · obtain ⟨m, q, hnearest, hvalue⟩ :=
        Format.exists_nearest_eq hprecision hx (not_le.1 hover) negative
      rw [hvalue]
      refine ⟨rfl, ?_, fun y w hy => nearest_of_format negative hx hnearest hy⟩
      rw [abs_signed, abs_of_nonneg hx]
      exact not_le.1 hover

end Floating

namespace Literal

variable {f : Format}

theorem magnitude_nonneg (l : Literal) :
    0 ≤ l.magnitude :=
  mul_nonneg (Nat.cast_nonneg _) (zpow_nonneg (Nat.cast_nonneg _) _)

theorem abs_value (l : Literal) :
    |l.value| = l.magnitude := by
  rw [value, abs_signed]
  exact abs_of_nonneg l.magnitude_nonneg

/-- A literal is given the value nearest to what it stands for. -/
theorem isNearest_iff
    (hprecision : 1 < f.precision)
    (hmin : f.minExponent ≤ 0)
    (hmax : 0 ≤ f.maxExponent + f.precision)
    (l : Literal)
    (z : Floating f) :
    z.IsNearest l.negative l.value ↔ z = l.nearest f := by
  rw [nearest_eq_nearest_magnitude hmin hmax]
  exact Floating.isNearest_iff hprecision l.magnitude_nonneg l.negative z

end Literal

end Number
end ChangeFeed
