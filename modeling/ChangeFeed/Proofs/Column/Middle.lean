import ChangeFeed.Proofs.Column.Single

/-!
# Doubles in the middle between singles

Where the double that a literal is read as is exactly midway between two adjacent
finite singles, the exact value of the literal is asked for, and without one there is
no single at all. Everywhere else the single is the one nearest to the double. So
where a single is taken, it depends on the sign and the exact magnitude of the literal
and on nothing else.

**Results.**

* `singleFrom?_of_middle`: what the exact value decides in the middle.
* `singleFrom?_of_not_isMiddle`: elsewhere it is not asked for.
* `singleFrom?_eq_none_iff`: when there is no single.
* `eq_singleOf_of_singleFrom?`: the single is that of the sign and the magnitude.
-/

namespace ChangeFeed
namespace Number
namespace Format

variable {f : Format}
variable {m m' n : Nat}
variable {q q' e : Int}

/-- Adjacent values differ in parity. -/
theorem Adjacent.even_iff
    (hprecision : 1 < f.precision)
    (h : f.Adjacent m q m' q') :
    m' % 2 = 0 ↔ m % 2 = 1 := by
  obtain ⟨n, e, hnext, hvalue, hparity⟩ :=
    exists_next hprecision h.left (reach_of_lt h.left h.right h.lt)
  obtain ⟨rfl, rfl⟩ := canonical_unique h.right hnext (h.step.trans hvalue.symm)
  exact hparity

/-- A value has only one adjacent value below it. -/
theorem Adjacent.left_unique
    (h : f.Adjacent m q m' q')
    (h' : f.Adjacent n e m' q') :
    m = n ∧ q = e := by
  refine canonical_unique h.left h'.left (le_antisymm ?_ ?_)
  · exact (h'.le_or_le h.left).resolve_right (not_le.2 h.lt)
  · exact (h.le_or_le h'.left).resolve_right (not_le.2 h'.lt)

/-- And only one above it. -/
theorem Adjacent.right_unique
    (h : f.Adjacent m q m' q')
    (h' : f.Adjacent m q n e) :
    m' = n ∧ q' = e :=
  canonical_unique h.right h'.right (h.step.trans h'.step.symm)

end Format
end Number

namespace Coercion

open Number (Double Single Floating Literal signed)
open Number.Format (binary32 binary64)

/-- Whether a double is exactly midway between two adjacent finite singles. -/
def IsMiddle (x : Double) : Prop :=
  ∃ v m q m' q',
    x.toRat? = some v ∧
      binary32.Adjacent m q m' q' ∧
      2 * |v| = (m : Rat) * 2 ^ q + m' * 2 ^ q'

/--
Whether a magnitude is taken for the upper of two singles with this middle, which has
the significand `m'`: from the middle on, at the middle itself if it is even.
-/
def RoundsUp
    (middle magnitude : Rat)
    (m' : Nat) : Prop :=
  middle < magnitude ∨ (middle = magnitude ∧ m' % 2 = 0)

instance
    (middle magnitude : Rat)
    (m' : Nat) :
    Decidable (RoundsUp middle magnitude m') :=
  inferInstanceAs (Decidable (_ ∨ _))

section Sides

variable {middle magnitude : Rat}
variable {m' : Nat}

theorem roundsUp_of_even
    (heven : m' % 2 = 0) :
    RoundsUp middle magnitude m' ↔ middle ≤ magnitude := by
  rw [RoundsUp, and_iff_left heven, le_iff_lt_or_eq]

theorem roundsUp_of_odd
    (hodd : ¬ m' % 2 = 0) :
    RoundsUp middle magnitude m' ↔ middle < magnitude := by
  rw [RoundsUp, or_iff_left fun htie => hodd htie.2]

end Sides

section Middle

variable {l : Literal}
variable {negative : Bool}
variable {m m' n : Nat}
variable {q q' e : Int}
variable {hn : binary64.Canonical n e}

theorem isMiddle_finite_iff :
    IsMiddle (.finite negative n e hn) ↔
      ∃ m q m' q',
        binary32.Adjacent m q m' q' ∧
          2 * ((n : Rat) * 2 ^ e) = (m : Rat) * 2 ^ q + m' * 2 ^ q' := by
  have habs : |signed negative ((n : Rat) * 2 ^ e)| = n * 2 ^ e := by
    rw [Number.abs_signed, abs_of_nonneg (Number.Format.value_nonneg n e)]
  constructor
  · rintro ⟨v, m, q, m', q', hv, hadjacent, hmiddle⟩
    cases hv
    rw [habs] at hmiddle
    exact ⟨m, q, m', q', hadjacent, hmiddle⟩
  · rintro ⟨m, q, m', q', hadjacent, hmiddle⟩
    refine ⟨_, m, q, m', q', rfl, hadjacent, ?_⟩
    rwa [habs]

/-- In the middle the exact value decides, and on the middle itself the even single is taken. -/
theorem singleFrom?_of_middle
    (hadjacent : binary32.Adjacent m q m' q')
    (hmiddle : 2 * ((n : Rat) * 2 ^ e) = m * 2 ^ q + m' * 2 ^ q') :
    singleFrom? l (.finite negative n e hn) =
      (exactValue? l).map fun y =>
        if RoundsUp (n * 2 ^ e) (signed negative y) m' then
          .finite negative m' q' hadjacent.right
        else
          .finite negative m q hadjacent.left := by
  have hlt := hadjacent.lt
  have habove : (m : Rat) * 2 ^ q < n * 2 ^ e := by linarith
  have hbelow : (n : Rat) * 2 ^ e < m' * 2 ^ q' := by linarith
  have hvalue := Number.Format.value_nonneg n e
  have hlargest := Number.Format.value_le_largest hadjacent.right
  have hover : (n : Rat) * 2 ^ e < binary32.overflow :=
    (hbelow.trans_le hlargest).trans (Number.Format.largest_lt_overflow _)
  have hnear {k i} (hsingle : binary32.IsNearest (n * 2 ^ e) k i) :
      (.finite negative n e hn : Double).convert .binary32 =
        .finite negative k i hsingle.canonical :=
    Number.Format.nearest_eq_of_isNearest (by decide) hvalue hover hsingle negative
  have hparity := hadjacent.even_iff (by decide)
  by_cases heven : m' % 2 = 0
  · -- The upper single is the nearest, and a value below the middle moves to the lower one.
    have hsingle := hadjacent.isNearest_right hbelow.le hmiddle.ge fun _ => heven
    have hm : m' ≠ 0 := by
      rintro rfl
      rw [Nat.cast_zero, zero_mul] at hbelow
      exact absurd hvalue (not_le.2 hbelow)
    obtain ⟨k, i, hnext, hinward⟩ := Floating.adjacent_inward negative hsingle.canonical hm
    obtain ⟨rfl, rfl⟩ := hadjacent.left_unique hnext
    have hother :=
      (Floating.neighbor_toward negative hsingle.canonical hvalue hbelow.ne).trans
        ((if_neg hbelow.not_gt).trans hinward)
    rw [singleFrom?_eq_ite (hnear hsingle) hother hbelow.ne, if_pos (by linarith)]
    refine congrArg (fun f => (exactValue? l).map f) (funext fun y => ?_)
    simp only [roundsUp_of_even heven, hbelow, hbelow.not_gt, false_and, true_and, false_or,
      ← not_le, ite_not]
  · -- The lower single is the nearest, and a value above the middle moves to the upper one.
    have hsingle := hadjacent.isNearest_left habove.le hmiddle.le fun _ => by omega
    obtain ⟨k, i, hnext, houtward⟩ :=
      Floating.exists_adjacent_above negative hsingle.canonical (hlt.trans_le hlargest)
    obtain ⟨rfl, rfl⟩ := hadjacent.right_unique hnext
    have hother :=
      (Floating.neighbor_toward negative hsingle.canonical hvalue habove.ne').trans
        ((if_pos habove).trans houtward)
    rw [singleFrom?_eq_ite (hnear hsingle) hother habove.ne', if_pos hmiddle]
    simp only [roundsUp_of_odd heven, habove, habove.not_gt, false_and, true_and, or_false]

/-- Elsewhere the nearest single is taken, whatever the exact value. -/
theorem singleFrom?_of_not_isMiddle
    {x : Double}
    (h : ¬ IsMiddle x) :
    singleFrom? l x = some (x.convert .binary32) := by
  cases x with
  | nan => rfl
  | infinite negative => exact singleFrom?_of_infinite rfl
  | finite negative n e hn =>
      rw [isMiddle_finite_iff] at h
      have hvalue := Number.Format.value_nonneg n e
      by_cases hover : binary32.overflow ≤ (n : Rat) * 2 ^ e
      · have hinfinite :
            (.finite negative n e hn : Double).convert .binary32 = .infinite negative :=
          Number.Format.nearest_of_overflow_le hover negative
        rw [singleFrom?_of_infinite hinfinite, hinfinite]
      · obtain ⟨m, q, hsingle, hfinite⟩ :=
          Number.Format.exists_nearest_eq (by decide) hvalue (not_le.1 hover) negative
        have hnear :
            (.finite negative n e hn : Double).convert .binary32 =
              .finite negative m q hsingle.canonical := hfinite
        have hneighbor := Floating.neighbor_toward negative hsingle.canonical hvalue
        rw [hnear]
        rcases lt_trichotomy ((n : Rat) * 2 ^ e) (m * 2 ^ q) with hbelow | heq | habove
        · have hm : m ≠ 0 := by
            rintro rfl
            rw [Nat.cast_zero, zero_mul] at hbelow
            exact absurd hvalue (not_le.2 hbelow)
          obtain ⟨m', q', hnext, hinward⟩ :=
            Floating.adjacent_inward negative hsingle.canonical hm
          have hother := (hneighbor hbelow.ne).trans ((if_neg hbelow.not_gt).trans hinward)
          rw [singleFrom?_eq_ite hnear hother hbelow.ne, if_neg]
          exact fun hmiddle => h ⟨m', q', m, q, hnext, by linarith⟩
        · exact singleFrom?_of_eq hnear heq
        · have hother := (hneighbor habove.ne').trans (if_pos habove)
          rcases Floating.adjacent_outward negative hsingle.canonical with
            ⟨m', q', hnext, houtward⟩ | ⟨-, -, houtward⟩
          · rw [singleFrom?_eq_ite hnear (hother.trans houtward) habove.ne', if_neg]
            exact fun hmiddle => h ⟨m, q, m', q', hnext, hmiddle⟩
          · exact singleFrom?_of_neighbor_infinite hnear (hother.trans houtward)

/-- There is no single just where an exact value is asked for that is not known. -/
theorem singleFrom?_eq_none_iff
    {x : Double} :
    singleFrom? l x = none ↔ IsMiddle x ∧ exactValue? l = none := by
  by_cases hx : IsMiddle x
  · obtain ⟨v, m, q, m', q', hv, -, -⟩ := id hx
    obtain ⟨negative, n, e, hn, rfl, rfl⟩ := Floating.exists_finite_of_toRat? hv
    obtain ⟨m, q, m', q', hadjacent, hmiddle⟩ := isMiddle_finite_iff.1 hx
    rw [singleFrom?_of_middle hadjacent hmiddle, Option.map_eq_none_iff, and_iff_right hx]
  · rw [singleFrom?_of_not_isMiddle hx]
    simp [hx]

end Middle

section Taken

variable {l : Literal}

/-- The single that is taken for a magnitude with a sign. -/
def singleOf
    (negative : Bool)
    (x : Rat) : Single :=
  if 2 ^ 128 - 2 ^ 103 - 2 ^ 74 ≤ x then
    .infinite negative
  else
    binary32.nearest negative x

/-- With its exact value known, a literal is taken for the single of its magnitude. -/
theorem singleFrom?_of_exact
    (hexact : exactValue? l = some l.value) :
    singleFrom? l (l.nearest .binary64) = some (singleOf l.negative l.magnitude) := by
  by_cases hover : 2 ^ 128 - 2 ^ 103 - 2 ^ 74 ≤ l.magnitude
  · rw [singleOf, if_pos hover]
    exact (singleFrom?_eq_infinite_iff l l.negative).2 ⟨rfl, hover⟩
  · rw [singleOf, if_neg hover]
    rcases le_total l.magnitude binary32.largest with hlow | hhigh
    · rw [singleFrom?_eq_nearest hexact hlow, Literal.nearest_single]
    · -- Between the largest single and the overflow the largest is the nearest.
      have hless : l.magnitude < binary32.overflow := by
        rw [overflow_single]
        linarith
      obtain ⟨m, q, hsingle, hfinite⟩ :=
        Number.Format.exists_nearest_eq (by decide) l.magnitude_nonneg hless l.negative
      obtain ⟨rfl, rfl⟩ := isNearest_largest hhigh hsingle
      rw [singleFrom?_eq_largest hhigh (not_le.1 hover), hfinite]

/-- So is every literal that a single is taken for: where its exact value counts, it is known. -/
theorem eq_singleOf_of_singleFrom?
    {y : Single}
    (h : singleFrom? l (l.nearest .binary64) = some y) :
    y = singleOf l.negative l.magnitude := by
  by_cases hmiddle : IsMiddle (l.nearest .binary64)
  · have hexact : exactValue? l = some l.value := by
      by_contra hunknown
      have hnone : exactValue? l = none := by
        unfold exactValue? at hunknown ⊢
        split_ifs at hunknown ⊢ <;> first | rfl | exact absurd rfl hunknown
      rw [singleFrom?_eq_none_iff.2 ⟨hmiddle, hnone⟩] at h
      contradiction
    rw [singleFrom?_of_exact hexact] at h
    exact (Option.some.inj h).symm
  · -- The same literal with no exponent written has a known value and the same double.
    have hexact :
        exactValue? { l with exponentDigits := 0 } =
          some { l with exponentDigits := 0 }.value := by
      simp [exactValue?]
    have hsame := singleFrom?_of_exact hexact
    have hnearest : { l with exponentDigits := 0 }.nearest .binary64 = l.nearest .binary64 := rfl
    rw [hnearest, singleFrom?_of_not_isMiddle hmiddle] at hsame
    rw [singleFrom?_of_not_isMiddle hmiddle] at h
    exact Option.some.inj (h.symm.trans hsame)

end Taken

end Coercion
end ChangeFeed
