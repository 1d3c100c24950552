import ChangeFeed.Proofs.Formatter.Emission
import ChangeFeed.Proofs.Formatter.Prescription
import ChangeFeed.Session

/-!
# What a change leaves in the log

The lines of the log that formatting a change writes, all of them and in order. The first
says that the change is being formatted; one says that schemas were built, if they were;
and if the change fails, the last line says so in the words of the very failure, after a
line of its own if the change is fatal. So what is an error in the log is a failure, and
each failure is there before it is handed on.

**Results.**

* `events_format`: the events of a change in the order of its steps.
* `exists_lines_failure`: the lines of a failure.
* `exists_traced`: the lines of a change.
-/

namespace ChangeFeed

open Session (failureOf?)

/-- The line about a change that is being formatted. -/
def startLine (name : Text) (change : Change) : Json :=
  .object
    [("table", .text name), ("op_type", .text change.kind.name), ("pos", .text change.position),
      ("event", .text "format_op"), ("level", .text "debug")]

/-- The line about schemas that were built. -/
def builtLine (name : Text) (hasKey : Bool) : Json :=
  .object
    [("table", .text name), ("has_key", .bool hasKey),
      ("event", .text "schema_built"), ("level", .text "debug")]

/-- The line about a fatal change. -/
def fatalLine (name : Text) (change : Change) (reason : String) : Json :=
  .object
    [("table", .text name), ("op_type", .text change.kind.name), ("reason", .text reason),
      ("event", .text "fatal_operation"), ("level", .text "error")]

/-- The line about a change that was not formatted, with the wording of the failure. -/
def failedLine (name : Text) (change : Change) (wording : Text) : Json :=
  .object
    [("table", .text name), ("op_type", .text change.kind.name), ("op_code", .text change.code),
      ("error", .text wording), ("event", .text "format_op_failed"), ("level", .text "error")]

namespace Formatter

/-- What came of a change of a table with this name, and the lines that it wrote. -/
structure Traced
    (cache : Schema.Cache)
    (change : Change)
    (table : Table)
    (name : Text)
    (outcome : Outcome Failure (List Emitted))
    (built fatal failed : Option Json) :
    Prop where
  /-- These are all lines, in this order. -/
  lines :
    outcome.events.map Event.toJson =
      startLine name change :: (built.toList ++ fatal.toList ++ failed.toList)
  /-- Schemas are reported if there were none and they could be built. -/
  built_iff :
    ∀ line,
      built = some line ↔
        cache.lookup? (.text name) = none ∧
          table.NamesAreWhole ∧
          line = builtLine name (table.columns.any Column.isKey)
  /-- A fatal change is reported as one, with the reason of the failure. -/
  fatal_iff :
    ∀ line,
      fatal = some line ↔
        ∃ reason described kind,
          outcome.result = .error (.fatal reason described kind) ∧
          line = fatalLine name change reason
  /-- A change that fails is reported in the words of its failure. -/
  failed_iff :
    ∀ line,
      failed = some line ↔
        ∃ failure,
          outcome.result = .error failure ∧
          line = failedLine name change failure.message
  /-- A change that is formatted is no error in the log. -/
  quiet :
    ∀ pairs,
      outcome.result = .ok pairs →
      ∀ event ∈ outcome.events, event.level = .debug

section Trace

variable {settings : Settings}
variable {clock : Clock}
variable {state : Formatter}
variable {change : Change}
variable {table : Table}
variable {name : Text}

/-- The events of a change: its start, those of the request, and those of a failure. -/
theorem events_format :
    (format settings clock state change table).events =
      .formatting table.name change.kind change.position ::
        ((state.cache.request table.name table).events ++
          (failureOf? (format settings clock state change table).result).toList.flatMap
            (failureEvents change table)) := by
  cases hrequest : (state.cache.request table.name table).result with
  | error fault => simp [format, hrequest, failureOf?]
  | ok build =>
      cases hassemble :
          assemble settings clock state.stamps change table build.schemas.hasKey with
      | mk result stamps => cases result <;> simp [format, hrequest, hassemble, failureOf?]

theorem toJson_fatal
    (hname : table.name = .text name)
    (reason : String) :
    (Event.fatal table.name change.kind reason).toJson = fatalLine name change reason := by
  rw [hname]
  rfl

theorem toJson_failed
    (hname : table.name = .text name)
    (wording : Text) :
    (Event.failed table.name change.kind change.code wording).toJson =
      failedLine name change wording := by
  rw [hname]
  rfl

/-- A failure is reported in its own words, and before that as fatal if it is. -/
theorem exists_lines_failure
    (hname : table.name = .text name)
    (result : Except Failure (List Emitted)) :
    ∃ fatal failed : Option Json,
      ((failureOf? result).toList.flatMap (failureEvents change table)).map Event.toJson =
          fatal.toList ++ failed.toList ∧
        (∀ line,
          fatal = some line ↔
            ∃ reason described kind,
              result = .error (.fatal reason described kind) ∧
              line = fatalLine name change reason) ∧
        ∀ line,
          failed = some line ↔
            ∃ failure,
              result = .error failure ∧ line = failedLine name change failure.message := by
  cases result with
  | ok pairs => exact ⟨none, none, rfl, by simp, by simp⟩
  | error failure =>
      have hfailed (line : Json) :
          some (failedLine name change failure.message) = some line ↔
            ∃ other,
              (.error failure : Except Failure (List Emitted)) = .error other ∧
              line = failedLine name change other.message := by
        simp [eq_comm]
      cases failure with
      | fatal reason described kind =>
          refine ⟨some (fatalLine name change reason), some _, ?_, by simp [eq_comm], hfailed⟩
          simp [failureOf?, failureEvents, toJson_fatal hname, toJson_failed hname]
      | misaligned | coercion | fault =>
          refine ⟨none, some _, ?_, by simp, hfailed⟩
          simp [failureOf?, failureEvents, toJson_failed hname]

/-- The lines that formatting a change writes, all of them. -/
theorem exists_traced
    (settings : Settings)
    (clock : Clock)
    (state : Formatter)
    (change : Change)
    (table : Table)
    (hname : table.name = .text name) :
    ∃ built fatal failed,
      Traced state.cache change table name
        (format settings clock state change table) built fatal failed := by
  have hid : table.name.identity? = some (.text name) := by rw [hname, Json.identity?_text]
  obtain ⟨built, hrequest, hbuilt⟩ :=
    @Schema.Cache.exists_events_request state.cache table.name table _ hid
  obtain ⟨fatal, failed, hfailure, hfatal, hfailed⟩ :=
    @exists_lines_failure change table name hname
      (format settings clock state change table).result
  have hevents := @events_format settings clock state change table
  rw [hrequest] at hevents
  refine
    ⟨built.map Event.toJson, fatal, failed, ?_, fun line => ?_, hfatal, hfailed,
      fun pairs hpairs event hevent => ?_⟩
  · rw [hevents, List.map_cons, List.map_append, hfailure, hname, List.append_assoc]
    cases built <;> rfl
  · rw [Option.map_eq_some_iff]
    simp only [hbuilt, hname]
    constructor
    · rintro ⟨event, ⟨habsent, hnames, rfl⟩, rfl⟩
      exact ⟨habsent, hnames, rfl⟩
    · rintro ⟨habsent, hnames, rfl⟩
      exact ⟨_, ⟨habsent, hnames, rfl⟩, rfl⟩
  · rw [hevents, hpairs] at hevent
    simp only [failureOf?, Option.toList_none, List.flatMap_nil, List.append_nil,
      List.mem_cons, Option.mem_toList, hbuilt] at hevent
    rcases hevent with rfl | ⟨-, -, rfl⟩
    · rfl
    · rfl

end Trace

end Formatter

/--
Renumbering an item where that is not allowed: schemas are built, and the change is
reported as fatal and as failed.
-/
theorem Formatter.exists_traced_renumbered :
    Item.table.name = .text "SHOP.ITEMS" ∧
      ∃ built fatal failed,
        Traced {} Item.renumbered Item.table "SHOP.ITEMS"
            (format {} Item.clock {} Item.renumbered Item.table) built fatal failed ∧
          built = some (builtLine "SHOP.ITEMS" true) ∧
          fatal = some (fatalLine "SHOP.ITEMS" Item.renumbered Plan.keyUpdateReason) ∧
          failed = some (failedLine "SHOP.ITEMS" Item.renumbered Plan.keyUpdateReason) := by
  obtain ⟨built, fatal, failed, htraced⟩ :=
    exists_traced {} Item.clock {} Item.renumbered Item.table rfl
  refine ⟨rfl, built, fatal, failed, htraced, ?_, ?_, ?_⟩
  · exact (htraced.built_iff _).2 ⟨rfl, Item.namesAreWhole_table, rfl⟩
  · exact (htraced.fatal_iff _).2 ⟨_, _, _, rfl, rfl⟩
  · exact (htraced.failed_iff _).2 ⟨_, rfl, rfl⟩

end ChangeFeed
