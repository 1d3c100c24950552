import ChangeFeed.Proofs.Formatter.Course
import ChangeFeed.Proofs.Formatter.Prescription

/-!
# What a change leaves behind

All that formatting a change does to the formatter, whether the change is formatted or
not. The schemas of its table are kept if they were not there and can be built, and no
other schemas come or go. A stamp is taken for each emission that is started, and the
last of these is remembered.

**Results.**

* `stamps_format`: the stamps of what is emitted.
* `exists_framed`: what the formatter is after a change.
-/

namespace ChangeFeed

open Session (failureOf?)

namespace Formatter

/--
The formatter after a change of a table with this name, and what came of the change,
where these emissions were started.
-/
structure Framed
    (settings : Settings)
    (clock : Clock)
    (state : Formatter)
    (change : Change)
    (table : Table)
    (name : Text)
    (started : List Emission)
    (outcome : Outcome Failure (List Emitted)) :
    Prop where
  /-- The change took the course in which these emissions are started. -/
  course : Course settings state.cache change table started (failureOf? outcome.result)
  /-- They are the first emissions of the plan, in its order. -/
  order : started <+: (Plan.ofKind change.kind settings.keyUpdates).emissions
  /-- The clock was read once for each of them. -/
  reads : outcome.state.stamps.reads = state.stamps.reads + started.length
  /-- Each of them got a stamp. -/
  advances : (state.stamps.upcoming clock started.length).length = started.length
  /-- The stamp of the last of them is remembered, or else what was remembered before. -/
  last :
    outcome.state.stamps.last =
      (state.stamps.upcoming clock started.length).getLast?.or state.stamps.last
  /-- What was emitted has these stamps. -/
  stamped :
    ∀ pairs,
      outcome.result = .ok pairs →
      pairs.map (fun pair => pair.record.stamp) =
        (state.stamps.upcoming clock started.length).map fun stamp =>
          stamp.render settings.isoStamps
  /-- Schemas that were not there and could be built are kept, after all the others. -/
  built :
    ∀ schemas,
      state.cache.lookup? (.text name) = none →
      Schema.Schemas.ofTable state.cache.asText table = .ok schemas →
      outcome.state.cache =
        { state.cache with
          entries := state.cache.entries ++ [(.text name, ⟨state.cache.builds, schemas⟩)]
          builds := state.cache.builds + 1 }
  /-- Otherwise the cache is what it was. -/
  kept :
    (state.cache.lookup? (.text name) = none → ¬ table.NamesAreWhole) →
    outcome.state.cache = state.cache

section Frame

variable {settings : Settings}
variable {clock : Clock}
variable {state : Formatter}
variable {change : Change}
variable {table : Table}
variable {name : Text}

/-- The records of a change are stamped with the stamps that it takes. -/
theorem stamps_format
    {pairs : List Emitted}
    (h : (format settings clock state change table).result = .ok pairs) :
    pairs.map (fun pair => pair.record.stamp) =
      (state.stamps.upcoming clock
        (Plan.ofKind change.kind settings.keyUpdates).emissions.length).map fun stamp =>
          stamp.render settings.isoStamps := by
  obtain ⟨_, _, -, -, -, hemit⟩ := format_eq_ok h
  exact stamps_emitAll hemit

/-- As long as there are stamps for it, a change leaves behind its schemas and its stamps only. -/
theorem exists_framed
    (settings : Settings)
    (clock : Clock)
    (state : Formatter)
    (change : Change)
    (table : Table)
    (hname : table.name = .text name)
    (hgives :
      state.stamps.Gives clock (Plan.ofKind change.kind settings.keyUpdates).emissions.length) :
    ∃ started,
      Framed settings clock state change table name started
        (format settings clock state change table) := by
  obtain ⟨started, hcourse, hstate⟩ := course_format hname hgives
  have hid : table.name.identity? = some (.text name) := by rw [hname, Json.identity?_text]
  have horder := hcourse.isPrefix_started
  refine
    ⟨started, hcourse, horder, ?_, ?_, ?_, fun pairs hpairs => ?_,
      fun schemas habsent htable => ?_, fun hkept => ?_⟩
  · rw [hstate, Stamps.reads_later]
  · exact Stamps.length_upcoming (hgives.of_le horder.length_le)
  · rw [hstate, Stamps.last_later]
  · rw [hpairs] at hcourse
    rw [stamps_format hpairs, hcourse.started_eq]
  · rw [hstate, Schema.Cache.cache_request_of_built hid habsent htable]
    rfl
  · rw [hstate, Schema.Cache.cache_request_of_kept hid hkept]

end Frame

end Formatter

/-- The item gets something else for its number that is none. -/
def Item.misnumbered : Change :=
  { renumbered with
    columns := [⟨.captured "1", .captured "one"⟩, ⟨.captured "lamp", .absent⟩] }

/--
Where the second record of two cannot be built, two stamps are taken, the second of
which is remembered, and the schemas are kept.
-/
theorem Formatter.exists_framed_misnumbered :
    Item.table.name = .text "SHOP.ITEMS" ∧
      Stamps.Gives Item.clock {} 2 ∧
      ∃ started,
        Framed { keyUpdates := .deleteInsert } Item.clock {} Item.misnumbered Item.table
            "SHOP.ITEMS" started
            (format { keyUpdates := .deleteInsert } Item.clock {} Item.misnumbered Item.table) ∧
          started.length = 2 := by
  have hgives : Stamps.Gives Item.clock {} 2 := ⟨⟨_, rfl⟩, ⟨_, rfl⟩, trivial⟩
  obtain ⟨started, hframed⟩ :=
    exists_framed { keyUpdates := .deleteInsert } Item.clock {} Item.misnumbered Item.table rfl
      hgives
  have htaken :
      (format { keyUpdates := .deleteInsert } Item.clock {} Item.misnumbered
        Item.table).state.stamps.reads = 2 := by
    decide +kernel
  rw [hframed.reads, Nat.zero_add] at htaken
  exact ⟨rfl, hgives, started, hframed, htaken⟩

end ChangeFeed
