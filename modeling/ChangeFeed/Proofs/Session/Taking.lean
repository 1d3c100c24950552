import ChangeFeed.Proofs.Formatter.Faults
import ChangeFeed.Proofs.Session.Simulation

/-!
# How many stamps a change takes

Each emission of a change takes a stamp, up to the first that cannot be built, and
whether one can be built does not depend on its stamp. So how many stamps a change
takes is settled before it takes any. If there are as many, which they are shows
only in the stamps of its records; if there are not, it fails for want of one.

**Results.**

* `gives_add_iff`: stamps are given in two parts if both parts are given.
* `pair_of_other_stamp`: an emission with another stamp comes to the same.
* `exists_takes_emitAll`, `exists_takes_assemble`: emissions and changes take a
  number of stamps, one for each emission at most.
-/

namespace ChangeFeed

/-- The pair without the stamp of its record. -/
def Emitted.unstamped (built : Emitted) : Emitted :=
  { built with record := { built.record with stamp := "" } }

/-- The failure for want of a stamp. -/
def Failure.exhausted : Failure :=
  .fault .stampsExhausted

namespace Stamps

variable {clock : Clock}

/-- The sequence after `n` more stamps. -/
def later (clock : Clock) (stamps : Stamps) : Nat → Stamps
  | 0 => stamps
  | n + 1 => later clock (stamps.next clock).2 n

theorem gives_add_iff
    (stamps : Stamps)
    (m n : Nat) :
    stamps.Gives clock (m + n) ↔
      stamps.Gives clock m ∧ (stamps.later clock m).Gives clock n := by
  induction m generalizing stamps with
  | zero => simp [Gives, later]
  | succ m ih =>
      rw [Nat.succ_add, Gives, ih, Gives, later, and_assoc]

theorem later_add
    (stamps : Stamps)
    (m n : Nat) :
    stamps.later clock (m + n) = (stamps.later clock m).later clock n := by
  induction m generalizing stamps with
  | zero => rw [Nat.zero_add, later]
  | succ m ih => rw [Nat.succ_add, later, ih, later]

theorem gives_one_iff
    (stamps : Stamps) :
    stamps.Gives clock 1 ↔ ∃ stamp, (stamps.next clock).1 = some stamp := by
  simp [Gives]

theorem Gives.of_le
    {stamps : Stamps}
    {m n : Nat}
    (h : stamps.Gives clock n)
    (hle : m ≤ n) :
    stamps.Gives clock m := by
  obtain ⟨k, rfl⟩ := Nat.exists_eq_add_of_le hle
  exact ((gives_add_iff stamps m k).1 h).1

end Stamps

namespace Formatter

/--
What is made takes `n` stamps: it fails for want of a stamp if there are fewer, and
otherwise which stamps they are shows only in the stamps of records.
-/
structure Takes
    (clock : Clock)
    (n : Nat)
    (make : Stamps → Except Failure (List Emitted) × Stamps) : Prop where
  lasts : ∀ stamps, (make stamps).1 ≠ .error .exhausted → stamps.Gives clock n
  left : ∀ stamps, stamps.Gives clock n → (make stamps).2 = stamps.later clock n
  alike :
    ∀ stamps others,
      stamps.Gives clock n →
      others.Gives clock n →
      LooksAlike Emitted.unstamped (make stamps).1 (make others).1

/-- What takes `n` stamps of more leaves the rest. -/
theorem Takes.gives
    {clock : Clock}
    {make : Stamps → Except Failure (List Emitted) × Stamps}
    {stamps : Stamps}
    {m n : Nat}
    (h : Takes clock n make)
    (hgives : stamps.Gives clock (n + m)) :
    (make stamps).2.Gives clock m := by
  obtain ⟨hfirst, hrest⟩ := (Stamps.gives_add_iff stamps n m).1 hgives
  rwa [h.left stamps hfirst]

/-- What fails or succeeds whatever the stamps takes none. -/
theorem takes_zero
    (clock : Clock)
    (result : Except Failure (List Emitted)) :
    Takes clock 0 fun stamps => (result, stamps) where
  lasts _ _ := trivial
  left _ _ := rfl
  alike _ _ _ _ := LooksAlike.refl _ _

section Takes

variable {settings : Settings}
variable {clock : Clock}
variable {change : Change}
variable {table : Table}
variable {columns : List Aligned}
variable {hasKey : Bool}

/-- A pair depends on its stamp only in the stamp. -/
theorem unstamped_pair
    (first second : Instant)
    (emission : Emission) :
    (pair settings first change table columns hasKey emission).map Emitted.unstamped =
      (pair settings second change table columns hasKey emission).map Emitted.unstamped := by
  unfold pair
  cases table.textName? with
  | none => rfl
  | some name =>
      cases Block.build settings.asText columns emission.side false with
      | error failure => rfl
      | ok block =>
          cases hasKey with
          | false => rfl
          | true => cases Block.buildKey settings.asText columns emission.side <;> rfl

/-- Whether an emission is built does not depend on its stamp, nor does what is built. -/
theorem pair_of_other_stamp
    {emission : Emission}
    {first : Instant}
    (second : Instant) :
    (∀ failure,
      pair settings first change table columns hasKey emission = .error failure →
      pair settings second change table columns hasKey emission = .error failure) ∧
    ∀ built,
      pair settings first change table columns hasKey emission = .ok built →
      ∃ other,
        pair settings second change table columns hasKey emission = .ok other ∧
        other.unstamped = built.unstamped := by
  have hpair :
      (pair settings first change table columns hasKey emission).map Emitted.unstamped =
        (pair settings second change table columns hasKey emission).map Emitted.unstamped :=
    unstamped_pair first second emission
  refine ⟨fun failure hfailure => ?_, fun built hbuilt => ?_⟩
  · rw [hfailure] at hpair
    exact (map_eq_error_iff _ _ _).1 hpair.symm
  · rw [hbuilt] at hpair
    exact (map_eq_ok_iff _ _ _).1 hpair.symm

/-- An emission that cannot be built takes the only stamp. -/
theorem takes_emitAll_of_error
    {emission : Emission}
    {stamp : Instant}
    {failure : Failure}
    (rest : List Emission)
    (hpair : pair settings stamp change table columns hasKey emission = .error failure) :
    Takes clock 1 fun stamps =>
      emitAll settings clock change table columns hasKey stamps (emission :: rest) := by
  have hgiven :
      ∀ stamps : Stamps,
        stamps.Gives clock 1 →
        emitAll settings clock change table columns hasKey stamps (emission :: rest) =
          (.error failure, stamps.later clock 1) := by
    rintro stamps ⟨⟨found, hfound⟩, -⟩
    exact emitAll_cons_of_error rest (Prod.ext hfound rfl) ((pair_of_other_stamp found).1 _ hpair)
  constructor
  · intro stamps hlasts
    rw [Stamps.gives_one_iff, ← Option.ne_none_iff_exists']
    exact fun hnone => hlasts (by rw [emitAll_cons_of_none rest (Prod.ext hnone rfl)]; rfl)
  · intro stamps hgives
    rw [hgiven stamps hgives]
  · intro stamps others hgives hgives'
    rw [hgiven stamps hgives, hgiven others hgives']
    exact LooksAlike.refl _ _

/-- An emission that can be built with one stamp is built with any other that is given. -/
theorem emitAll_cons_of_other_stamp
    {emission : Emission}
    {stamp found : Instant}
    {built : Emitted}
    {stamps stamps' : Stamps}
    (rest : List Emission)
    (hpair : pair settings stamp change table columns hasKey emission = .ok built)
    (hnext : stamps.next clock = (some found, stamps')) :
    ∃ other,
      other.unstamped = built.unstamped ∧
      emitAll settings clock change table columns hasKey stamps (emission :: rest) =
        ((emitAll settings clock change table columns hasKey stamps' rest).1.map (other :: ·),
          (emitAll settings clock change table columns hasKey stamps' rest).2) := by
  obtain ⟨other, hother, hunstamped⟩ := (pair_of_other_stamp found).2 built hpair
  exact ⟨other, hunstamped, emitAll_cons_of_ok rest hnext hother⟩

/-- An emission that can be built takes one stamp more than the others. -/
theorem takes_emitAll_of_ok
    {emission : Emission}
    {stamp : Instant}
    {built : Emitted}
    {rest : List Emission}
    {n : Nat}
    (hpair : pair settings stamp change table columns hasKey emission = .ok built)
    (hrest :
      Takes clock n fun stamps =>
        emitAll settings clock change table columns hasKey stamps rest) :
    Takes clock (n + 1) fun stamps =>
      emitAll settings clock change table columns hasKey stamps (emission :: rest) := by
  constructor
  · intro stamps hlasts
    cases hfound : (stamps.next clock).1 with
    | none => exact absurd (by rw [emitAll_cons_of_none rest (Prod.ext hfound rfl)]; rfl) hlasts
    | some found =>
        obtain ⟨other, -, hall⟩ := emitAll_cons_of_other_stamp rest hpair (Prod.ext hfound rfl)
        refine ⟨⟨found, hfound⟩, hrest.lasts _ fun hexhausted => hlasts ?_⟩
        rw [hall, hexhausted]
        rfl
  · rintro stamps ⟨⟨found, hfound⟩, hgives⟩
    obtain ⟨other, -, hall⟩ := emitAll_cons_of_other_stamp rest hpair (Prod.ext hfound rfl)
    rw [hall]
    exact hrest.left _ hgives
  · rintro stamps others ⟨⟨found, hfound⟩, hgives⟩ ⟨⟨found', hfound'⟩, hgives'⟩
    obtain ⟨first, hfirst, hall⟩ := emitAll_cons_of_other_stamp rest hpair (Prod.ext hfound rfl)
    obtain ⟨second, hsecond, hall'⟩ :=
      emitAll_cons_of_other_stamp rest hpair (Prod.ext hfound' rfl)
    rw [hall, hall']
    exact (hrest.alike _ _ hgives hgives').cons (hfirst.trans hsecond.symm)

/-- Emissions take as many stamps as there are emissions, or fewer if one cannot be built. -/
theorem exists_takes_emitAll
    (settings : Settings)
    (clock : Clock)
    (change : Change)
    (table : Table)
    (columns : List Aligned)
    (hasKey : Bool)
    (emissions : List Emission) :
    ∃ n ≤ emissions.length,
      Takes clock n fun stamps =>
        emitAll settings clock change table columns hasKey stamps emissions := by
  induction emissions with
  | nil => exact ⟨0, Nat.le_refl 0, takes_zero clock (.ok [])⟩
  | cons emission rest ih =>
      -- Any stamp tells whether the emission can be built.
      cases hpair : pair settings (clock 0) change table columns hasKey emission with
      | error failure => exact ⟨1, Nat.succ_pos _, takes_emitAll_of_error rest hpair⟩
      | ok built =>
          obtain ⟨n, hle, hrest⟩ := ih
          exact ⟨n + 1, Nat.succ_le_succ hle, takes_emitAll_of_ok hpair hrest⟩

theorem exists_takes_assemble
    (settings : Settings)
    (clock : Clock)
    (change : Change)
    (table : Table)
    (hasKey : Bool) :
    ∃ n ≤ (Plan.ofKind change.kind settings.keyUpdates).emissions.length,
      Takes clock n fun stamps => assemble settings clock stamps change table hasKey := by
  cases halign : align change table with
  | error failure =>
      simp only [assemble, halign]
      exact ⟨0, Nat.zero_le _, takes_zero clock _⟩
  | ok columns =>
      by_cases hplan : (Plan.ofKind change.kind settings.keyUpdates).emissions = []
      · obtain ⟨reason, hreason⟩ := (Plan.emissions_eq_nil_iff _).1 hplan
        simp only [assemble_of_fatal halign hreason]
        exact ⟨0, Nat.zero_le _, takes_zero clock _⟩
      · simp only [assemble_of_emits halign hplan]
        exact exists_takes_emitAll settings clock change table columns hasKey _

end Takes

end Formatter
end ChangeFeed
