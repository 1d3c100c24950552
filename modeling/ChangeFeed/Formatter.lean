import ChangeFeed.Record.Basic
import ChangeFeed.Schema.Cache

/-!
# The formatter

Between changes the formatter keeps the schema cache and the stamps given, and
nothing else. A change is formatted in this order: the schemas of its table are
requested, its images are aligned with the columns, the plan is made, and its
emissions are built one by one, each with a stamp of its own taken first. A
change that fails emits nothing; what it did to the cache and the stamps stays.

**Results.**

* `emitAll_length`: a plan that succeeds yields one pair for each emission.
-/

namespace ChangeFeed

/-- What the formatter keeps between changes. -/
structure Formatter where
  cache : Schema.Cache := {}
  stamps : Stamps := {}

/-- What a step of the formatter returns: a result, the formatter after it and its events. -/
structure Outcome (ε α : Type) where
  result : Except ε α
  state : Formatter
  events : List Event

namespace Formatter

/-- A formatter as it is set up, with a cache of its own that has the mode of the settings. -/
def start (settings : Settings) : Formatter where
  cache := { asText := settings.asText }

/-- The events of setting up a formatter. -/
def startEvents (settings : Settings) : List Event :=
  [.configured settings]

/--
The record of an emission and its key record, after its stamp has been taken.
-/
def pair
    (settings : Settings)
    (stamp : Instant)
    (change : Change)
    (table : Table)
    (columns : List Aligned)
    (hasKey : Bool)
    (emission : Emission) : Except Failure Emitted :=
  match table.textName? with
  | none => .error (.fault (.noAttribute table.name.kind "rsplit"))
  | some name =>
      match Block.build settings.asText columns emission.side false with
      | .error failure => .error failure
      | .ok block =>
          let record : Record :=
            { table := name
              key := settings.keyOf emission
              time := change.time
              stamp := stamp.render settings.isoStamps
              position := change.position
              keyNames := if settings.withKeyNames then some table.keyNames else none
              tokens := if settings.withTokens then some change.tokens else none
              side := emission.side
              block := block }
          if hasKey then
            match Block.buildKey settings.asText columns emission.side with
            | .error failure => .error failure
            | .ok key => .ok ⟨record, some (key.getD [])⟩
          else
            .ok ⟨record, none⟩

/-- Takes a stamp and builds an emission. -/
def emit
    (settings : Settings)
    (clock : Clock)
    (change : Change)
    (table : Table)
    (columns : List Aligned)
    (hasKey : Bool)
    (stamps : Stamps)
    (emission : Emission) : Except Failure Emitted × Stamps :=
  match stamps.next clock with
  | (none, stamps) => (.error (.fault .stampsExhausted), stamps)
  | (some stamp, stamps) =>
      (pair settings stamp change table columns hasKey emission, stamps)

/-- Builds emissions in order, up to the first that fails. -/
def emitAll
    (settings : Settings)
    (clock : Clock)
    (change : Change)
    (table : Table)
    (columns : List Aligned)
    (hasKey : Bool)
    (stamps : Stamps) : List Emission → Except Failure (List Emitted) × Stamps
  | [] => (.ok [], stamps)
  | emission :: rest =>
      match emit settings clock change table columns hasKey stamps emission with
      | (.error failure, stamps) => (.error failure, stamps)
      | (.ok first, stamps) =>
          match emitAll settings clock change table columns hasKey stamps rest with
          | (.error failure, stamps) => (.error failure, stamps)
          | (.ok others, stamps) => (.ok (first :: others), stamps)

/-- What comes of a change once its schemas are there: the pairs or a failure, and the stamps. -/
def assemble
    (settings : Settings)
    (clock : Clock)
    (stamps : Stamps)
    (change : Change)
    (table : Table)
    (hasKey : Bool) : Except Failure (List Emitted) × Stamps :=
  match align change table with
  | .error failure => (.error failure, stamps)
  | .ok columns =>
      match Plan.ofKind change.kind settings.keyUpdates with
      | .fatal reason => (.error (.fatal reason table.name change.kind), stamps)
      | plan => emitAll settings clock change table columns hasKey stamps plan.emissions

/-- The events of a failure: a fatal change is reported apart. -/
def failureEvents
    (change : Change)
    (table : Table)
    (failure : Failure) : List Event :=
  let failed : Event := .failed table.name change.kind change.code failure.message
  match failure with
  | .fatal reason _ _ => [.fatal table.name change.kind reason, failed]
  | _ => [failed]

/-- Formats a change of a table. -/
def format
    (settings : Settings)
    (clock : Clock)
    (state : Formatter)
    (change : Change)
    (table : Table) : Outcome Failure (List Emitted) :=
  let start : Event := .formatting table.name change.kind change.position
  let request := state.cache.request table.name table
  match request.result with
  | .error fault =>
      { result := .error (.fault fault)
        state := { state with cache := request.cache }
        events := start :: (request.events ++ failureEvents change table (.fault fault)) }
  | .ok build =>
      match assemble settings clock state.stamps change table build.schemas.hasKey with
      | (.error failure, stamps) =>
          { result := .error failure
            state := ⟨request.cache, stamps⟩
            events := start :: (request.events ++ failureEvents change table failure) }
      | (.ok pairs, stamps) =>
          { result := .ok pairs
            state := ⟨request.cache, stamps⟩
            events := start :: request.events }

/-- Formats a change into a container, which keeps what it holds if the change fails. -/
def formatInto
    (settings : Settings)
    (clock : Clock)
    (state : Formatter)
    (change : Change)
    (table : Table)
    (container : Container) : Outcome Failure (List Emitted) × Container :=
  let outcome := format settings clock state change table
  match outcome.result with
  | .ok pairs => (outcome, .ofList pairs)
  | .error _ => (outcome, container)

/-- A notice that a table may have been altered. -/
structure Notice where
  objectType : Json
  objectName : Json
  text : Json

/-- Drops the schemas of the table that a notice names. -/
def notice (state : Formatter) (notice : Notice) : Outcome Fault Unit :=
  let step := state.cache.drop notice.objectName
  { result := step.result
    state := { state with cache := step.cache }
    events := .notice notice.objectType notice.objectName notice.text :: step.events }

theorem emitAll_length
    (settings : Settings)
    (clock : Clock)
    (change : Change)
    (table : Table)
    (columns : List Aligned)
    (hasKey : Bool)
    (stamps : Stamps)
    (emissions : List Emission)
    (pairs : List Emitted)
    (h : (emitAll settings clock change table columns hasKey stamps emissions).1 = .ok pairs) :
    pairs.length = emissions.length := by
  induction emissions generalizing stamps pairs with
  | nil =>
      cases h
      rfl
  | cons emission rest ih =>
      simp only [emitAll] at h
      split at h
      · contradiction
      · next first stamps' _ =>
          split at h
          · contradiction
          · next others _ heq =>
              cases h
              have hrest := ih stamps' others (by rw [heq])
              simp [hrest]

end Formatter
end ChangeFeed
