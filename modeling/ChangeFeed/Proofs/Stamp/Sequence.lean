import ChangeFeed.Proofs.Stamp.Calendar
import ChangeFeed.Stamp.Sequence
import Mathlib.Data.Finset.Lattice.Fold
import Mathlib.Order.Lattice.Nat

/-!
# The stamps that a clock leads to

The stamps of one sequence depend on the readings of its clock alone. The stamp of
a call is the latest of the readings so far, each moved on by a microsecond for
every call since: each stamp is the later one of its own reading and the next
instant after the stamp before it. Once that lies past the last instant, no call
gives a stamp any more.

**Results.**

* `given_succ_of_some`, `given_succ_of_none`: a call from the call before it.
* `due_succ`: what is due, from what was due one call before.
* `given_eq_some_iff`, `given_eq_none_iff`: a call gives what is due, if there is such an instant.
* `leastAhead_given`: the stamps are the least that increase and are never behind the clock.
* `given_least`: what a clock leads to.
-/

namespace ChangeFeed
namespace Stamps

/-- The sequence after `n` calls. -/
def after (clock : Clock) : Nat → Stamps
  | 0 => {}
  | n + 1 => ((after clock n).next clock).2

/-- What the call after `n` others gives. -/
def given (clock : Clock) (n : Nat) : Option Instant :=
  ((after clock n).next clock).1

/-- The count of the latest reading so far, each moved on by one for every call since. -/
def due (clock : Clock) (n : Nat) : Nat :=
  (Finset.range (n + 1)).sup fun k => (clock k).count + (n - k)

/-- Stamps increase, are never behind the clock, and come no later than they have to. -/
structure LeastAhead
    (clock : Clock)
    (stamps : Nat → Option Instant) : Prop where
  increases :
    ∀ m n later,
      m < n →
      stamps n = some later →
      ∃ earlier, stamps m = some earlier ∧ earlier.isBefore later = true
  ahead :
    ∀ n stamp, stamps n = some stamp → stamp.isBefore (clock n) = false
  least :
    ∀ n (others : Nat → Instant),
      (∀ k < n, (others k).isBefore (others (k + 1)) = true) →
      (∀ k ≤ n, (others k).isBefore (clock k) = false) →
      ∃ stamp, stamps n = some stamp ∧ (others n).isBefore stamp = false

section Calls

variable {clock : Clock}
variable {n : Nat}

@[simp] theorem reads_after (clock : Clock) (n : Nat) :
    (after clock n).reads = n := by
  induction n with
  | zero => rfl
  | succ n ih => rw [after, reads_next, ih]

theorem last_after_of_some
    {stamp : Instant}
    (h : given clock n = some stamp) :
    (after clock (n + 1)).last = some stamp := by
  unfold given next at h
  rw [after, next]
  split at h
  · next found _ =>
      cases h
      simp_all
  · contradiction

theorem last_after_of_none
    (h : given clock n = none) :
    (after clock (n + 1)).last = (after clock n).last :=
  last_next_of_none clock (after clock n) h

theorem given_eq_choose? (clock : Clock) (n : Nat) :
    given clock n = choose? (after clock n).last (clock n) := by
  rw [given, next, reads_after]
  split
  · next heq => exact heq.symm
  · next heq => exact heq.symm

theorem given_zero (clock : Clock) :
    given clock 0 = some (clock 0) := rfl

/-- After a stamp, the next is the reading if that comes later, else the next instant. -/
theorem given_succ_of_some
    {stamp : Instant}
    (h : given clock n = some stamp) :
    given clock (n + 1) =
      if stamp.isBefore (clock (n + 1)) then some (clock (n + 1)) else stamp.next? := by
  rw [given_eq_choose?, last_after_of_some h, choose?]

/-- A call that gives no stamp finds the last instant remembered, and leaves it so. -/
theorem given_succ_of_none
    (h : given clock n = none) :
    given clock (n + 1) = none := by
  have hlast := last_after_of_none h
  rw [given_eq_choose?] at h ⊢
  rw [hlast]
  cases hremembered : (after clock n).last with
  | none =>
      rw [hremembered] at h
      contradiction
  | some previous =>
      rw [hremembered, choose?] at h
      split at h
      · contradiction
      · obtain rfl := (Instant.next?_eq_none_iff previous).1 h
        have hnot : Instant.final.isBefore (clock (n + 1)) = false := by
          have hle := Instant.count_le_final (clock (n + 1))
          rw [← Bool.not_eq_true, Instant.isBefore_iff]
          omega
        rw [choose?, hnot]
        exact h

end Calls

section Due

variable {clock : Clock}
variable {n : Nat}

theorem le_due
    (clock : Clock)
    {n k : Nat}
    (h : k ≤ n) :
    (clock k).count + (n - k) ≤ due clock n :=
  Finset.le_sup (f := fun k => (clock k).count + (n - k)) (Finset.mem_range_succ_iff.2 h)

theorem due_le
    {bound : Nat}
    (h : ∀ k ≤ n, (clock k).count + (n - k) ≤ bound) :
    due clock n ≤ bound :=
  Finset.sup_le fun k hk => h k (Finset.mem_range_succ_iff.1 hk)

/-- What is due moves on by one, unless the new reading is still later. -/
theorem due_succ (clock : Clock) (n : Nat) :
    due clock (n + 1) = max (due clock n + 1) (clock (n + 1)).count := by
  refine Nat.le_antisymm (due_le fun k hk => ?_) (Nat.max_le.2 ⟨?_, ?_⟩)
  · rcases Nat.le_add_one_iff.1 hk with hearlier | rfl
    · have hle := le_due clock hearlier
      omega
    · omega
  · obtain ⟨k, hk, hdue⟩ :=
      Finset.exists_mem_eq_sup (Finset.range (n + 1)) ⟨0, by simp⟩
        fun k => (clock k).count + (n - k)
    rw [Finset.mem_range_succ_iff] at hk
    have hle := le_due clock (Nat.le_add_right_of_le hk : k ≤ n + 1)
    rw [due, hdue]
    omega
  · have hle := le_due clock (Nat.le_refl (n + 1))
    omega

/-- What is given, or why nothing is, by the step from one call to the next. -/
theorem given_of_due (clock : Clock) (n : Nat) :
    (∀ stamp, given clock n = some stamp → stamp.count = due clock n) ∧
      (given clock n = none → Instant.final.count < due clock n) := by
  induction n with
  | zero =>
      rw [given_zero]
      simp [due]
  | succ n ih =>
      rw [due_succ]
      cases hgiven : given clock n with
      | none =>
          have hlate := ih.2 hgiven
          rw [given_succ_of_none hgiven]
          exact ⟨fun stamp h => by contradiction, fun _ => by omega⟩
      | some previous =>
          have hprevious := ih.1 previous hgiven
          rw [given_succ_of_some hgiven]
          cases hbefore : previous.isBefore (clock (n + 1)) with
          | true =>
              rw [Instant.isBefore_iff] at hbefore
              refine ⟨fun stamp h => ?_, fun h => by simp at h⟩
              obtain rfl : clock (n + 1) = stamp := by simpa using h
              omega
          | false =>
              rw [← Bool.not_eq_true, Instant.isBefore_iff] at hbefore
              simp only [Bool.false_eq_true, if_false]
              refine ⟨fun stamp h => ?_, fun h => ?_⟩
              · rw [Instant.next?_eq_some_iff] at h
                omega
              · rw [Instant.next?_eq_none_iff] at h
                rw [h] at hprevious
                omega

theorem given_eq_none_iff (clock : Clock) (n : Nat) :
    given clock n = none ↔ Instant.final.count < due clock n := by
  refine ⟨(given_of_due clock n).2, fun h => ?_⟩
  cases hgiven : given clock n with
  | none => rfl
  | some stamp =>
      have hcount := (given_of_due clock n).1 stamp hgiven
      have hle := Instant.count_le_final stamp
      omega

theorem given_eq_some_iff (clock : Clock) (n : Nat) (stamp : Instant) :
    given clock n = some stamp ↔ stamp.count = due clock n := by
  refine ⟨(given_of_due clock n).1 stamp, fun h => ?_⟩
  cases hgiven : given clock n with
  | none =>
      have hlate := (given_eq_none_iff clock n).1 hgiven
      have hle := Instant.count_le_final stamp
      omega
  | some found =>
      have hcount := (given_of_due clock n).1 found hgiven
      rw [← h, Instant.count_inj] at hcount
      rw [hcount]

theorem due_lt_due
    (clock : Clock)
    {m n : Nat}
    (h : m < n) :
    due clock m < due clock n := by
  induction n, h using Nat.le_induction with
  | base =>
      rw [due_succ]
      omega
  | succ n _ ih =>
      rw [due_succ]
      omega

/-- A stamp comes after all stamps given before it, and these were all given. -/
theorem exists_given_of_lt
    {m n : Nat}
    {later : Instant}
    (hlt : m < n)
    (h : given clock n = some later) :
    ∃ earlier, given clock m = some earlier ∧ earlier.isBefore later = true := by
  have hdue := due_lt_due clock hlt
  rw [given_eq_some_iff] at h
  cases hgiven : given clock m with
  | none =>
      rw [given_eq_none_iff] at hgiven
      have hle := Instant.count_le_final later
      omega
  | some earlier =>
      rw [given_eq_some_iff] at hgiven
      exact ⟨earlier, rfl, (Instant.isBefore_iff _ _).2 (by omega)⟩

/-- Whatever increases and is never behind the clock is never before what is due. -/
theorem due_le_of_ahead
    {others : Nat → Instant}
    (hincreases : ∀ k < n, (others k).isBefore (others (k + 1)) = true)
    (hahead : ∀ k ≤ n, (others k).isBefore (clock k) = false) :
    due clock n ≤ (others n).count := by
  induction n with
  | zero =>
      have hfirst := hahead 0 (Nat.le_refl 0)
      rw [← Bool.not_eq_true, Instant.isBefore_iff] at hfirst
      simp only [due, Nat.zero_add, Finset.range_one, Finset.sup_singleton]
      omega
  | succ n ih =>
      have hprevious :=
        ih (fun k hk => hincreases k (by omega)) fun k hk => hahead k (by omega)
      have hstep := hincreases n (by omega)
      have hlast := hahead (n + 1) (Nat.le_refl _)
      rw [Instant.isBefore_iff] at hstep
      rw [← Bool.not_eq_true, Instant.isBefore_iff] at hlast
      rw [due_succ]
      omega

theorem leastAhead_given (clock : Clock) :
    LeastAhead clock (given clock) where
  increases m n later hlt h := exists_given_of_lt hlt h
  ahead n stamp h := by
    rw [given_eq_some_iff] at h
    have hle := le_due clock (Nat.le_refl n)
    rw [← Bool.not_eq_true, Instant.isBefore_iff]
    omega
  least n others hincreases hahead := by
    have hdue := due_le_of_ahead hincreases hahead
    cases hgiven : given clock n with
    | none =>
        rw [given_eq_none_iff] at hgiven
        have hle := Instant.count_le_final (others n)
        omega
    | some stamp =>
        rw [given_eq_some_iff] at hgiven
        refine ⟨stamp, rfl, ?_⟩
        rw [← Bool.not_eq_true, Instant.isBefore_iff]
        omega

end Due

/--
The stamps of a sequence are the least instants that increase and are never behind
its clock. A call gives the latest of the readings so far, each moved on to the
next instant for every call since, unless that lies past the last microsecond of
year 9999: then it fails, remembers what it remembered, and so do all calls after it.
-/
theorem given_least (clock : Clock) :
    LeastAhead clock (given clock) ∧
      (∀ n stamp, given clock n = some stamp ↔ stamp.count = due clock n) ∧
      (∀ n, given clock n = none ↔ Instant.final.count < due clock n) ∧
      (∀ n,
        given clock n = none →
        (after clock (n + 1)).last = (after clock n).last ∧
          ∀ m, n ≤ m → given clock m = none) ∧
      (∀ i j : Instant, i.next? = some j ↔ j.count = i.count + 1) ∧
      (∀ i j : Instant,
        i.next? = some j
          ↔
        i.isBefore j = true ∧ ∀ k, i.isBefore k = true → k.isBefore j = false) ∧
      ∀ i : Instant, i.next? = none ↔ i = Instant.final := by
  refine ⟨leastAhead_given clock, given_eq_some_iff clock, given_eq_none_iff clock,
    fun n h => ⟨last_after_of_none h, fun m hle => ?_⟩, Instant.next?_eq_some_iff,
    Instant.next?_eq_some_iff_covers, Instant.next?_eq_none_iff⟩
  induction m, hle using Nat.le_induction with
  | base => exact h
  | succ m _ ih => exact given_succ_of_none ih

/-- A clock that shows the last instant leads to one stamp, and to none after it. -/
theorem given_least_of_final :
    given (fun _ => Instant.final) 0 = some Instant.final ∧
      given (fun _ => Instant.final) 1 = none ∧
      (after (fun _ => Instant.final) 2).last = some Instant.final ∧
      ∀ m, 1 ≤ m → given (fun _ => Instant.final) m = none := by
  have hnone : given (fun _ => Instant.final) 1 = none := by decide
  obtain ⟨hlast, hlater⟩ := (given_least fun _ => Instant.final).2.2.2.1 1 hnone
  exact ⟨rfl, hnone, hlast, hlater⟩

end Stamps
end ChangeFeed
