import ChangeFeed.Record.Row
import ChangeFeed.Session

/-!
# Conversions in sessions

Besides formatting changes, passing on notices and clearing containers, a caller converts
what a container holds to rows. For that it asks the formatter for the schemas of a table,
which are the ones the formatter keeps, or else are built and then kept. So a conversion
may show the records of a change in schemas that were built from another description.
The rows are made by any Arrow.

A session with conversions is told by its transcript, which has for each step what it
returned, what was reported and what there was after it.
-/

namespace ChangeFeed

/-- The rows of a pair: that of the record, and that of the key record if it has a schema. -/
structure Emitted.Rows where
  record : Except Misfit (List (String × Cell))
  key : Option (Except Misfit (List (String × Option Value)))

/-- A pair converted to rows in the schemas of a table. -/
def Arrow.rows
    (arrow : Arrow)
    (schemas : Schema.Schemas)
    (built : Emitted) : Emitted.Rows where
  record := arrow.record schemas.record built.record.members
  key :=
    match built.key, schemas.key with
    | some block, some fields => some (arrow.key fields block)
    | _, _ => none

namespace Formatter

/-- Converts pairs to rows in the schemas of a table, once these are there. -/
def convert
    (arrow : Arrow)
    (state : Formatter)
    (table : Table)
    (pairs : List Emitted) : Outcome Fault (List Emitted.Rows) :=
  let request := state.cache.request table.name table
  { result := request.result.map fun build => pairs.map (arrow.rows build.schemas)
    state := { state with cache := request.cache }
    events := request.events }

/-- What is reported while a message is responded to. -/
def reported
    (settings : Settings)
    (clock : Clock)
    (state : Formatter) : Message → List Event
  | .notice notice => (state.notice notice).events
  | .change change table => (state.format settings clock change table).events

end Formatter

namespace Session

/-- A step of a session: an action, or converting what a container holds. -/
inductive Step where
  | act (action : Action)
  | convert (table : Table) (source : String)

/-- What comes of a step: rows if it is a conversion, the events, and the state after it. -/
structure Report where
  result : Except Failure (List Emitted.Rows)
  events : List Event
  state : State

/-- What comes of a step from a state. -/
def report
    (arrow : Arrow)
    (settings : Settings)
    (clock : Clock)
    (state : State) : Step → Report
  | .act (.call call) =>
      { result :=
          (Formatter.respond settings clock state.formatter call.message).1.map fun _ => []
        events := state.formatter.reported settings clock call.message
        state := act settings clock state (.call call) }
  | .act (.clear name) =>
      { result := .ok []
        events := []
        state := act settings clock state (.clear name) }
  | .convert table source =>
      let outcome := state.formatter.convert arrow table (state.containers source).toList
      { result := outcome.result.mapError Failure.fault
        events := outcome.events
        state := { state with formatter := outcome.state } }

/-- A step and what came of it. -/
structure Entry where
  step : Step
  report : Report

/-- The steps of a session from a state on, each with what came of it. -/
def transcript
    (arrow : Arrow)
    (settings : Settings)
    (clock : Clock)
    (state : State) : List Step → List Entry
  | [] => []
  | step :: rest =>
      let first := report arrow settings clock state step
      ⟨step, first⟩ :: transcript arrow settings clock first.state rest

end Session
end ChangeFeed
