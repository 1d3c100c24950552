import ChangeFeed.Proofs.Column.Single
import ChangeFeed.Proofs.Number.Neighbors

/-!
# The singles next to a single

In the middle between two singles the reader of singles asks for the exact value of a
literal. The other single is found by a step of the code, the middle by two operations of
doubles, and both are what they are meant to be: the single next to the first one, and the
middle itself.

**Results.**

* `toRat?_neighbor_of_zero`: next to the zeros are the least magnitudes.
* `neighbor_next_single`: the neighbors of a finite single and the middle between.
-/

namespace ChangeFeed
namespace Coercion

open Number (Single Floating signed)

theorem exists_toRat?_of_isFinite
    {x : Single}
    (hx : x.isFinite = true) :
    ∃ s, x.toRat? = some s := by
  obtain ⟨negative, m, q, h, rfl⟩ := Floating.exists_finite_of_isFinite hx
  exact ⟨_, rfl⟩

/-- Next to both zeros are the least magnitudes. -/
theorem toRat?_neighbor_of_zero
    {x : Single}
    (hx : x.toRat? = some 0)
    (up : Bool) :
    (x.neighbor up).toRat? = some (signed (!up) (2 ^ (-149 : Int))) := by
  obtain ⟨negative, m, q, h, rfl, hvalue⟩ := Floating.exists_finite_of_toRat? hx
  obtain rfl : m = 0 := by
    have hmagnitude : ((m : Rat) * 2 ^ q) = 0 :=
      Number.signed_injective negative (hvalue.symm.trans (by simp [signed]))
    simpa [zpow_ne_zero] using hmagnitude
  have hleast :
      (Floating.zero (!up) : Single).outward = .finite (!up) 1 (-149) (by decide) := by
    cases up <;> rfl
  rw [Floating.neighbor_of_eq_zero, hleast, Floating.toRat?_finite, Nat.cast_one, one_mul]

/--
The neighbor of a finite single is next to it on its side: with no single between, and
infinite only beside the largest. Its code is the next one or the one before, but for the
zeros, which have the least magnitudes beside them. Beside a neighbor, on the other side,
is what has the value of the single. The middle between them, where there is one, is
computed exactly.
-/
theorem neighbor_next_single
    (x : Single)
    (hx : x.isFinite = true)
    (up : Bool) :
    (if up then x.IsNextAbove (x.neighbor up) else (x.neighbor up).IsNextAbove x) ∧
      ((x.neighbor up).isFinite = true ↔ x ≠ .largest (!up)) ∧
      (x = .largest (!up) → x.neighbor up = .infinite (!up)) ∧
      (∀ s, x.toRat? = some s →
        if s = 0 then
          (x.neighbor up).toRat? = some (signed (!up) (2 ^ (-149 : Int)))
        else
          ∀ z : Single,
            z.toBits = (if decide (0 < s) = up then x.toBits + 1 else x.toBits - 1) ↔
              z = x.neighbor up) ∧
      ((x.neighbor up).neighbor (!up)).toRat? = x.toRat? ∧
      ((x.neighbor up).isFinite = true →
        ∃ s t,
          x.toRat? = some s ∧
            (x.neighbor up).toRat? = some t ∧
            (middleOf x (x.neighbor up)).toRat? = some ((s + t) / 2)) := by
  obtain ⟨habove, hbelow⟩ := Floating.below_infinite_of_isFinite hx
  refine ⟨?next, Floating.isFinite_neighbor_iff hx up, ?infinite, fun s hs => ?code,
    Floating.toRat?_neighbor_neighbor hx up, fun hfinite => ?middle⟩
  case next =>
    cases up with
    | true => exact Floating.isNextAbove_neighbor habove
    | false => exact Floating.neighbor_isNextAbove hbelow
  case infinite =>
    rintro rfl
    exact Floating.neighbor_largest up
  case code =>
    split
    · next hzero =>
        rw [hzero] at hs
        exact toRat?_neighbor_of_zero hs up
    · next hzero => exact fun z => Floating.toBits_eq_iff_eq_neighbor (by decide) hs hzero up
  case middle =>
    obtain ⟨s, hs⟩ := exists_toRat?_of_isFinite hx
    obtain ⟨t, ht⟩ := exists_toRat?_of_isFinite hfinite
    exact ⟨s, t, hs, ht, toRat?_middleOf_neighbor hs ht⟩

/-- The negative single with the least significand of its exponent. -/
def exponentEdge : Single :=
  .finite true (2 ^ 23) 0 (by decide)

/-- Above the edge of an exponent, and above the largest single. -/
theorem neighbor_next_single_edges :
    exponentEdge.IsNextAbove (.finite true (2 ^ 24 - 1) (-1) (by decide)) ∧
      (middleOf exponentEdge (.finite true (2 ^ 24 - 1) (-1) (by decide))).toRat? =
        some (-(2 ^ 23 - 1 / 4)) ∧
      (Floating.largest false : Single).IsNextAbove (.infinite false) := by
  have hneighbor :
      exponentEdge.neighbor true = .finite true (2 ^ 24 - 1) (-1) (by decide) := by
    decide
  obtain ⟨hnext, -, -, -, -, hmiddle⟩ := neighbor_next_single exponentEdge rfl true
  obtain ⟨hlargest, -, hinfinite, -⟩ := neighbor_next_single (.largest false) rfl true
  rw [hneighbor] at hnext hmiddle
  rw [hinfinite rfl] at hlargest
  obtain ⟨s, t, hs, ht, hvalue⟩ := hmiddle rfl
  refine ⟨hnext, ?_, hlargest⟩
  cases hs
  cases ht
  rw [hvalue]
  norm_num [signed]

end Coercion
end ChangeFeed
