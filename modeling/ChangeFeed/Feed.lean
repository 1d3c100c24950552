import ChangeFeed.Formatter
import ChangeFeed.Json.Reader
import ChangeFeed.Message.Decode
import ChangeFeed.Record.Line

/-!
# The feed

The program proper: every line of a text is a message, which describes a change
of a row or, under `ddl`, a notice that a table may have been altered. Lines of
blanks are passed over. The pairs of a change are written as lines; the first
line that cannot be handled ends the feed with an exit code, 2 for a line that
is no message and 1 for a change that cannot be formatted. A few faults are not
handled and end the feed without an exit code.
-/

namespace ChangeFeed

/-- What a line asks for. -/
inductive Message where
  | notice (notice : Formatter.Notice)
  | change (change : Change) (table : Table)

namespace Message

/-- The notice under `ddl` of a message. -/
def noticeOf (ddl : Json) : Except Fault Formatter.Notice := do
  let objectType ← ddl.optionalMember "object_type"
  let objectName ← ddl.member "object_name"
  let text ← ddl.optionalMember "ddl_text"
  .ok
    { objectType := objectType.getD (.text "TABLE")
      objectName := objectName
      text := text.getD (.text "") }

/-- The message of an object: a notice if it has a member `ddl` that is not null, else a change. -/
def ofObject (members : List (Text × Json)) : Except Fault Message :=
  match (Json.find? members "ddl").getD .null with
  | .null => do
      let table ← Table.ofMessage (.object members)
      let change ← Change.ofMessage (.object members)
      .ok (.change change table)
  | ddl => do
      let notice ← noticeOf ddl
      .ok (.notice notice)

end Message

namespace Feed

/-- Why a line ends the feed. -/
inductive Stop where
  /-- The line is no JSON value. -/
  | unreadable (cause : String)
  /-- The line is no message. -/
  | invalid (cause : String)
  /-- The change of the line could not be formatted. -/
  | halted (cause : Text)
  /-- A fault that is not handled. -/
  | escaped (fault : Fault)

/-- What a line did: its output and events, the formatter after it and whether it ends the feed. -/
structure LineResult where
  output : String
  state : Formatter
  events : List Event
  stop : Option Stop

/-- The message of a line that is not blank. -/
def messageOf (line : List Char) : Except Stop Message :=
  match Json.read line with
  | .error (.malformed problem left) => .error (.unreadable (problem.message line left))
  | .error (.integerTooLong digits) => .error (.escaped (.tooManyDigits digits))
  | .error .tooDeep => .error (.escaped .tooDeep)
  | .ok (.object members) =>
      match Message.ofObject members with
      | .ok message => .ok message
      | .error fault =>
          if fault.isMalformed then
            .error (.invalid ("Malformed message: " ++ fault.summary))
          else
            .error (.escaped fault)
  | .ok v => .error (.invalid ("Expected a JSON object, got " ++ v.kind.word))

/-- How the feed ends on a change that could not be formatted. -/
def Stop.ofFailure (failure : Failure) : Stop :=
  match failure with
  | .fault cause => .escaped cause
  | _ => .halted failure.message

/-- Handles a message. -/
def handle
    (settings : Settings)
    (clock : Clock)
    (state : Formatter) : Message → LineResult
  | .notice notice =>
      let outcome := state.notice notice
      { output := ""
        state := outcome.state
        events := outcome.events
        stop :=
          match outcome.result with
          | .ok () => none
          | .error fault => some (.escaped fault) }
  | .change change table =>
      let outcome := state.format settings clock change table
      match outcome.result with
      | .error failure =>
          { output := ""
            state := outcome.state
            events := outcome.events
            stop := some (.ofFailure failure) }
      | .ok pairs =>
          let (output, fault) := Emitted.lines pairs
          { output := output
            state := outcome.state
            events := outcome.events
            stop := fault.map .escaped }

/-- Handles a line that is not blank. -/
def handleLine
    (settings : Settings)
    (clock : Clock)
    (state : Formatter)
    (line : List Char) : LineResult :=
  match messageOf line with
  | .error stop => ⟨"", state, [], some stop⟩
  | .ok message => handle settings clock state message

/-- How a feed ends. -/
inductive Ending where
  | exit (code : Nat)
  | escaped (fault : Fault)
deriving DecidableEq

/-- The ending of a stop, and the event that reports it. -/
def Stop.ending (line : Nat) : Stop → Ending × List Event
  | .unreadable cause => (.exit 2, [.unreadable line cause])
  | .invalid cause => (.exit 2, [.invalidMessage line cause])
  | .halted cause => (.exit 1, [.halted line cause])
  | .escaped fault => (.escaped fault, [])

/-- What a feed did: what it wrote, its events and how it ended. -/
structure Report where
  output : String
  events : List Event
  ending : Ending

/-- Whether a line is passed over. -/
def isBlankLine (line : List Char) : Bool :=
  line.all Text.isBlank

/-- How far a feed has come. -/
structure Progress where
  /-- The formatter as it is. -/
  state : Formatter
  /-- The number of the next line. -/
  line : Nat := 1
  /-- The number of messages handled. -/
  operations : Nat := 0

/-- What one line did, and how far the feed has come or how it ended. -/
structure Step where
  output : String
  events : List Event
  next : Except Ending Progress

/-- Passes over a line of blanks and handles any other. -/
def step
    (settings : Settings)
    (clock : Clock)
    (progress : Progress)
    (line : List Char) : Step :=
  if isBlankLine line then
    { output := ""
      events := []
      next := .ok { progress with line := progress.line + 1 } }
  else
    let result := handleLine settings clock progress.state line
    match result.stop with
    | some stop =>
        let (ending, events) := stop.ending progress.line
        { output := result.output
          events := result.events ++ events
          next := .error ending }
    | none =>
        { output := result.output
          events := result.events
          next := .ok ⟨result.state, progress.line + 1, progress.operations + 1⟩ }

/-- The last event of a feed all of whose lines were handled. -/
def endEvent (progress : Progress) : Event :=
  .processed progress.operations

/-- Handles lines in order, up to the first that ends the feed. -/
def runLines
    (settings : Settings)
    (clock : Clock)
    (progress : Progress) : List (List Char) → Report
  | [] => ⟨"", [endEvent progress], .exit 0⟩
  | line :: rest =>
      let first := step settings clock progress line
      match first.next with
      | .error ending => ⟨first.output, first.events, ending⟩
      | .ok progress =>
          let others := runLines settings clock progress rest
          ⟨first.output ++ others.output, first.events ++ others.events, others.ending⟩

/-- The lines of a text, each with its end, which only the last one may lack. -/
def splitLines : List Char → List (List Char)
  | [] => []
  | c :: rest =>
      if c = '\n' then
        ['\n'] :: splitLines rest
      else
        match splitLines rest with
        | [] => [[c]]
        | line :: lines => (c :: line) :: lines

/-- The text with every end of line written as one character. -/
def unifyNewlines : List Char → List Char
  | [] => []
  | '\r' :: '\n' :: rest => '\n' :: unifyNewlines rest
  | '\r' :: rest => '\n' :: unifyNewlines rest
  | c :: rest => c :: unifyNewlines rest

/-- Sets up a formatter and handles the lines of a text. -/
def run
    (settings : Settings)
    (warnings : List PolicyWarning)
    (clock : Clock)
    (text : String) : Report :=
  let report := runLines settings clock { state := .start settings } (splitLines text.toList)
  { report with
    events := warnings.map Event.ofWarning ++ Formatter.startEvents settings ++ report.events }

/-- The whole program: settings from the environment, lines from a text with any ends of lines. -/
def runProgram
    (env : List (String × Text))
    (clock : Clock)
    (text : String) : Report :=
  let (settings, warnings) := Settings.ofEnvironment env
  let report := run settings warnings clock (String.ofList (unifyNewlines text.toList))
  { report with events := .starting :: report.events }

end Feed
end ChangeFeed
