import ChangeFeed.Stamp.Instant

/-!
# Unique stamps

Every record gets a stamp of its own. The sequence reads the clock once a stamp
and remembers the last stamp given; a reading that is not after it is replaced
by the next instant, so stamps strictly increase whatever the clock does. Past
the last instant there is no stamp, and the last one stays remembered.

**Results.**

* `reads_next`: every stamp, given or not, takes one reading.
* `last_next_of_none`: a stamp that is not given leaves the last one remembered.
-/

namespace ChangeFeed

/-- The reading of the clock at each look. -/
abbrev Clock := Nat → Instant

/-- The clock with these readings, the last of which repeats for ever. -/
def Clock.ofReadings (first : Instant) (rest : List Instant) : Clock :=
  fun n => ((first :: rest)[n]?).getD ((first :: rest).getLast (by simp))

/-- The readings taken so far and the last stamp given. -/
structure Stamps where
  reads : Nat := 0
  last : Option Instant := none
deriving DecidableEq

namespace Stamps

/-- The instant to give for a reading. -/
def choose? (last : Option Instant) (now : Instant) : Option Instant :=
  match last with
  | none => some now
  | some previous => if previous.isBefore now then some now else previous.next?

/-- The next stamp, none past the last instant. -/
def next
    (clock : Clock)
    (stamps : Stamps) : Option Instant × Stamps :=
  match choose? stamps.last (clock stamps.reads) with
  | some stamp => (some stamp, ⟨stamps.reads + 1, some stamp⟩)
  | none => (none, ⟨stamps.reads + 1, stamps.last⟩)

theorem reads_next
    (clock : Clock)
    (stamps : Stamps) :
    (stamps.next clock).2.reads = stamps.reads + 1 := by
  unfold next
  split <;> rfl

theorem last_next_of_none
    (clock : Clock)
    (stamps : Stamps)
    (h : (stamps.next clock).1 = none) :
    (stamps.next clock).2.last = stamps.last := by
  unfold next at h ⊢
  split at h
  · contradiction
  · simp

end Stamps
end ChangeFeed
