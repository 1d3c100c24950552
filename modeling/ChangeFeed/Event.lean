import ChangeFeed.Settings

/-!
# Log events

What the formatter and the feed report while they run. An event is named by what
happened; its level, its word and its fields are those of the log.
-/

namespace ChangeFeed

/-- The level of a log event. -/
inductive Level where
  | debug
  | info
  | warning
  | error
deriving DecidableEq

/-- The word for a level. -/
def Level.name : Level → String
  | .debug => "debug"
  | .info => "info"
  | .warning => "warning"
  | .error => "error"

/-- Something that happened. -/
inductive Event where
  /-- The program starts. -/
  | starting
  /-- A value names no policy. -/
  | unknownPolicy (value : Json)
  /-- A formatter has been set up. -/
  | configured (settings : Settings)
  /-- A change is about to be formatted. -/
  | formatting (table : Json) (kind : ChangeKind) (position : Text)
  /-- The schemas of a table have been built and are cached. -/
  | schemaBuilt (table : Json) (hasKey : Bool)
  /-- The schemas of a table are no longer cached. -/
  | schemaDropped (table : Json)
  /-- A change cannot be emitted. -/
  | fatal (table : Json) (kind : ChangeKind) (reason : String)
  /-- A change was not formatted. -/
  | failed (table : Json) (kind : ChangeKind) (code cause : Text)
  /-- A table may have been altered. -/
  | notice (objectType objectName text : Json)
  /-- A line is no JSON value. -/
  | unreadable (line : Nat) (cause : String)
  /-- A line is no message. -/
  | invalidMessage (line : Nat) (cause : String)
  /-- The change of a line could not be formatted. -/
  | halted (line : Nat) (cause : Text)
  /-- All lines have been handled. -/
  | processed (operations : Nat)

namespace Event

/-- The level of an event. -/
def level : Event → Level
  | .starting => .info
  | .unknownPolicy _ => .warning
  | .configured _ => .info
  | .formatting .. => .debug
  | .schemaBuilt .. => .debug
  | .schemaDropped _ => .info
  | .fatal .. => .error
  | .failed .. => .error
  | .notice .. => .info
  | .unreadable .. => .error
  | .invalidMessage .. => .error
  | .halted .. => .error
  | .processed _ => .info

/-- The word for an event. -/
def name : Event → String
  | .starting => "initializing_cdc_formatter"
  | .unknownPolicy _ => "invalid_pk_update_handling"
  | .configured _ => "formatter_configured"
  | .formatting .. => "format_op"
  | .schemaBuilt .. => "schema_built"
  | .schemaDropped _ => "schema_dropped"
  | .fatal .. => "fatal_operation"
  | .failed .. => "format_op_failed"
  | .notice .. => "ddl_operation"
  | .unreadable .. => "json_decode_error"
  | .invalidMessage .. => "invalid_message"
  | .halted .. => "formatting_halted"
  | .processed _ => "input_processed"

/-- The fields of the start message of a formatter. -/
def settingsFields (settings : Settings) : List (Text × Json) :=
  [("insert_op_key", settings.insertKey),
    ("update_op_key", settings.updateKey),
    ("delete_op_key", settings.deleteKey),
    ("column_mapping", .text ↑(if settings.asText then "string" else "typed")),
    ("pk_update_handling", .text settings.keyUpdates.description),
    ("current_ts_format", .text ↑(if settings.isoStamps then "iso8601" else "plain")),
    ("include_primary_keys", .bool settings.withKeyNames),
    ("include_tokens", .bool settings.withTokens)]

/-- The fields of an event. -/
def fields : Event → List (Text × Json)
  | .starting => []
  | .unknownPolicy value =>
      [("value", value), ("fallback", .text KeyUpdatePolicy.abend.name)]
  | .configured settings => settingsFields settings
  | .formatting table kind position =>
      [("table", table), ("op_type", .text kind.name), ("pos", .text position)]
  | .schemaBuilt table hasKey => [("table", table), ("has_key", .bool hasKey)]
  | .schemaDropped table => [("table", table)]
  | .fatal table kind reason =>
      [("table", table), ("op_type", .text kind.name), ("reason", .text reason)]
  | .failed table kind code cause =>
      [("table", table), ("op_type", .text kind.name), ("op_code", .text code),
        ("error", .text cause)]
  | .notice objectType objectName text =>
      [("object_type", objectType), ("object_name", objectName), ("ddl_text", text)]
  | .unreadable line cause => [("line", .integer line), ("error", .text cause)]
  | .invalidMessage line cause => [("line", .integer line), ("error", .text cause)]
  | .halted line cause => [("line", .integer line), ("error", .text cause)]
  | .processed operations => [("operations", .integer operations)]

/-- The event of a policy warning. -/
def ofWarning (warning : PolicyWarning) : Event :=
  .unknownPolicy warning.value

/-- The event as a line of the log would hold it: its fields, its word and its level. -/
def toJson (event : Event) : Json :=
  let last : List (Text × Json) :=
    [("event", .text event.name), ("level", .text event.level.name)]
  .object (event.fields ++ last)

end Event
end ChangeFeed
