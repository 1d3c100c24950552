import ChangeFeed.Proofs.Number.Adjacent

/-!
# Rounding to a double and then to a single

Singles and the middles between adjacent singles are doubles. A number therefore
never changes the side of a single or of a middle when it is rounded to a double
first, and the single nearest to the double is the nearest to the number itself,
unless the double lies in the middle between two singles. Then the number may have
been on either side of it, and that side decides.

Above the largest single the middle is the overflow of singles. It is a double too,
and numbers closer to it than half a unit of doubles are rounded to it.

**Results.**

* `isNearest_of_eq`: a double that is a single is the single nearest to the number.
* `isNearest_above`, `isNearest_below`: the nearest single where it is not.
* `overflow_le_double_iff`: which numbers reach the overflow as doubles.
-/

namespace ChangeFeed
namespace Number
namespace Format

section Singles

variable {m m' n : Nat}
variable {q q' e : Int}
variable {x : Rat}

/-- A small multiple of a power of two that is not too small is a double. -/
theorem exists_double
    (hfits : m < 2 ^ 53)
    (hmin : -1021 ≤ q)
    (hmax : q ≤ 971) :
    ∃ n e, binary64.Canonical n e ∧ (n : Rat) * 2 ^ e = m * 2 ^ q := by
  by_cases hm : m = 0
  · exact ⟨0, _, binary64.canonical_zero, by simp [hm]⟩
  · exact exists_canonical_of_lt (Nat.pos_of_ne_zero hm) hfits hmin hmax

/-- Singles are doubles. -/
theorem exists_double_of_single
    (h : binary32.Canonical m q) :
    ∃ n e, binary64.Canonical n e ∧ (n : Rat) * 2 ^ e = m * 2 ^ q := by
  obtain ⟨hfits, hmin, hmax, -⟩ := h
  refine exists_double (lt_trans hfits (by decide)) (le_trans (by decide) hmin) ?_
  exact le_trans hmax (by decide)

/-- The middle between adjacent singles is a double. -/
theorem Adjacent.exists_middle
    (h : binary32.Adjacent m q m' q') :
    ∃ n e, binary64.Canonical n e ∧
      2 * ((n : Rat) * 2 ^ e) = m * 2 ^ q + m' * 2 ^ q' := by
  obtain ⟨hfits, hmin, hmax, -⟩ := h.left
  have hfits' : 2 * m + 1 < 2 ^ 53 := by
    have hlt : m < 2 ^ 24 := hfits
    omega
  have hmin' : -149 ≤ q := hmin
  have hmax' : q ≤ 104 := hmax
  obtain ⟨n, e, hcanonical, hvalue⟩ :=
    exists_double (q := q - 1) hfits' (by omega) (by omega)
  refine ⟨n, e, hcanonical, ?_⟩
  rw [hvalue, h.step, zpow_sub_one₀ (by norm_num)]
  push_cast
  ring

/-- On which side of the middle a number is does not change in rounding to a double. -/
theorem Adjacent.middle_le
    (h : binary32.Adjacent m q m' q')
    (hdouble : binary64.IsNearest x n e)
    (hx : (m : Rat) * 2 ^ q + m' * 2 ^ q' ≤ 2 * x) :
    (m : Rat) * 2 ^ q + m' * 2 ^ q' ≤ 2 * (n * 2 ^ e) := by
  obtain ⟨k, i, hcanonical, hmiddle⟩ := h.exists_middle
  have hle := hdouble.le_value hcanonical (by linarith)
  linarith

theorem Adjacent.le_middle
    (h : binary32.Adjacent m q m' q')
    (hdouble : binary64.IsNearest x n e)
    (hx : 2 * x ≤ (m : Rat) * 2 ^ q + m' * 2 ^ q') :
    2 * (n * 2 ^ e) ≤ (m : Rat) * 2 ^ q + m' * 2 ^ q' := by
  obtain ⟨k, i, hcanonical, hmiddle⟩ := h.exists_middle
  have hle := hdouble.value_le hcanonical (by linarith)
  linarith

/-- Nor on which side of a single. -/
theorem single_le_double
    (h : binary32.Canonical m q)
    (hdouble : binary64.IsNearest x n e)
    (hx : (m : Rat) * 2 ^ q ≤ x) :
    (m : Rat) * 2 ^ q ≤ n * 2 ^ e := by
  obtain ⟨k, i, hcanonical, hvalue⟩ := exists_double_of_single h
  rw [← hvalue] at hx ⊢
  exact hdouble.le_value hcanonical hx

theorem double_le_single
    (h : binary32.Canonical m q)
    (hdouble : binary64.IsNearest x n e)
    (hx : x ≤ m * 2 ^ q) :
    (n : Rat) * 2 ^ e ≤ m * 2 ^ q := by
  obtain ⟨k, i, hcanonical, hvalue⟩ := exists_double_of_single h
  rw [← hvalue] at hx ⊢
  exact hdouble.value_le hcanonical hx

/-- A double that is a single is the single nearest to the number. -/
theorem isNearest_of_eq
    (hdouble : binary64.IsNearest x n e)
    (h : binary32.Canonical m q)
    (hvalue : (n : Rat) * 2 ^ e = m * 2 ^ q)
    (hx : 0 ≤ x)
    (hrange : x ≤ binary32.largest) :
    binary32.IsNearest x m q := by
  rcases lt_trichotomy x (m * 2 ^ q) with hless | heq | hmore
  · have hm : m ≠ 0 := by
      rintro rfl
      rw [Nat.cast_zero, zero_mul] at hless
      exact absurd hx (not_le.2 hless)
    obtain ⟨m', q', hnext, -⟩ := Floating.adjacent_inward false h hm
    have hlt := hnext.lt
    have hmiddle : (m' : Rat) * 2 ^ q' + m * 2 ^ q < 2 * x := by
      by_contra hle
      have hdown := hnext.le_middle hdouble (not_lt.1 hle)
      linarith
    exact hnext.isNearest_right hless.le hmiddle.le fun htie => absurd htie hmiddle.ne'
  · rw [heq]
    exact isNearest_self h
  · obtain ⟨m', q', hnext, -⟩ :=
      Floating.exists_adjacent_above false h (hmore.trans_le hrange)
    have hlt := hnext.lt
    have hmiddle : 2 * x < (m : Rat) * 2 ^ q + m' * 2 ^ q' := by
      by_contra hle
      have hup := hnext.middle_le hdouble (not_lt.1 hle)
      linarith
    exact hnext.isNearest_left hmore.le hmiddle.le fun htie => absurd htie hmiddle.ne

/--
The single nearest to a number whose double is above the single nearest to that: the
same, unless the double is the middle to the next single and the number above it.
-/
theorem isNearest_above
    (hdouble : binary64.IsNearest x n e)
    (hsingle : binary32.IsNearest (n * 2 ^ e) m q)
    (h : binary32.Adjacent m q m' q')
    (hlow : (m : Rat) * 2 ^ q < n * 2 ^ e) :
    (2 * (n * 2 ^ e) = (m : Rat) * 2 ^ q + m' * 2 ^ q' ∧ n * 2 ^ e < x →
        binary32.IsNearest x m' q') ∧
      (¬ (2 * (n * 2 ^ e) = (m : Rat) * 2 ^ q + m' * 2 ^ q' ∧ n * 2 ^ e < x) →
        binary32.IsNearest x m q) := by
  have hlt := h.lt
  have hhigh := (abs_lower_sub_le_iff hlt).1 (hsingle.nearest h.right)
  have hleft : (m : Rat) * 2 ^ q ≤ x := by
    by_contra hless
    have hdown := double_le_single h.left hdouble (not_le.1 hless).le
    linarith
  have hright : x ≤ m' * 2 ^ q' := by
    by_contra hmore
    have hup := single_le_double h.right hdouble (not_le.1 hmore).le
    linarith
  refine ⟨fun ⟨hmiddle, hmore⟩ => ?_, fun hstays => ?_⟩
  · exact h.isNearest_right hright (by linarith) fun htie => absurd htie (by linarith)
  · rcases hhigh.lt_or_eq with hbelow | hmiddle
    · have hside : 2 * x < (m : Rat) * 2 ^ q + m' * 2 ^ q' := by
        by_contra hle
        have hup := h.middle_le hdouble (not_lt.1 hle)
        linarith
      exact h.isNearest_left hleft hside.le fun htie => absurd htie hside.ne
    · rcases (not_lt.1 fun hmore => hstays ⟨hmiddle, hmore⟩).lt_or_eq with hless | heq
      · exact h.isNearest_left hleft (by linarith) fun htie => absurd htie (by linarith)
      · rw [heq]
        exact hsingle

/-- The same where the double is below the single. -/
theorem isNearest_below
    (hdouble : binary64.IsNearest x n e)
    (hsingle : binary32.IsNearest (n * 2 ^ e) m q)
    (h : binary32.Adjacent m' q' m q)
    (hhigh : (n : Rat) * 2 ^ e < m * 2 ^ q) :
    (2 * (n * 2 ^ e) = (m : Rat) * 2 ^ q + m' * 2 ^ q' ∧ x < n * 2 ^ e →
        binary32.IsNearest x m' q') ∧
      (¬ (2 * (n * 2 ^ e) = (m : Rat) * 2 ^ q + m' * 2 ^ q' ∧ x < n * 2 ^ e) →
        binary32.IsNearest x m q) := by
  have hlt := h.lt
  have hlow := (abs_upper_sub_le_iff hlt).1 (hsingle.nearest h.left)
  have hleft : (m' : Rat) * 2 ^ q' ≤ x := by
    by_contra hless
    have hdown := double_le_single h.left hdouble (not_le.1 hless).le
    linarith
  have hright : x ≤ m * 2 ^ q := by
    by_contra hmore
    have hup := single_le_double h.right hdouble (not_le.1 hmore).le
    linarith
  refine ⟨fun ⟨hmiddle, hless⟩ => ?_, fun hstays => ?_⟩
  · exact h.isNearest_left hleft (by linarith) fun htie => absurd htie (by linarith)
  · rcases hlow.lt_or_eq with habove | hmiddle
    · have hside : (m' : Rat) * 2 ^ q' + m * 2 ^ q < 2 * x := by
        by_contra hle
        have hdown := h.le_middle hdouble (not_lt.1 hle)
        linarith
      exact h.isNearest_right hright hside.le fun htie => absurd htie hside.ne'
    · have hmiddle' : 2 * ((n : Rat) * 2 ^ e) = m * 2 ^ q + m' * 2 ^ q' := by linarith
      rcases (not_lt.1 fun hless => hstays ⟨hmiddle', hless⟩).lt_or_eq with hmore | heq
      · exact h.isNearest_right hright (by linarith) fun htie => absurd htie (by linarith)
      · rw [← heq]
        exact hsingle

/-- The doubles below the overflow of singles and at it. -/
theorem adjacent_overflow :
    binary64.Adjacent (2 ^ 53 - 2 ^ 28 - 1) 75 (2 ^ 53 - 2 ^ 28) 75 where
  left := by decide
  right := by decide
  step := by norm_num

/-- A double reaches the overflow of singles half a unit of doubles before the number does. -/
theorem overflow_le_double_iff
    (hdouble : binary64.IsNearest x n e) :
    binary32.overflow ≤ n * 2 ^ e ↔ 2 ^ 128 - 2 ^ 103 - 2 ^ 74 ≤ x := by
  have hiff := adjacent_overflow.le_nearest_iff (by decide) (by decide) hdouble
  have hright : binary32.overflow = ((2 ^ 53 - 2 ^ 28 : Nat) : Rat) * 2 ^ (75 : Int) := by
    norm_num [overflow, binary32]
  rw [hright, hiff]
  norm_num
  constructor <;> intro h <;> linarith

end Singles

end Format
end Number
end ChangeFeed
