import ChangeFeed.Feed
import Std.Time.Zoned

/-!
# The command line

Reads messages from standard input, writes records to standard output and log
events to standard error, and ends with the exit code of the feed. The settings
come from the environment. Every message is handled with one reading of the
wall clock.
-/

namespace ChangeFeed
namespace CommandLine

/-- The instant of a reading of the wall clock. -/
def instantOf (t : Std.Time.PlainDateTime) : Option Instant :=
  Instant.ofFields?
    { year := t.date.year.toInt.toNat
      month := t.date.month.val.toNat
      day := t.date.day.val.toNat
      hour := t.time.hour.val.toNat
      minute := t.time.minute.val.toNat
      second := t.time.second.val.toNat
      microsecond := t.time.nanosecond.val.toNat / 1000 }

/-- The instant given for a reading outside the calendar. -/
def firstInstant : Instant :=
  ⟨⟨1, 1, 1, 0, 0, 0, 0⟩, by decide⟩

/-- The local time. -/
def localNow : IO Instant := do
  return (instantOf (← Std.Time.PlainDateTime.now)).getD firstInstant

/-- The universal time. -/
def universalNow : IO Instant := do
  let stamp ← Std.Time.Timestamp.now
  let wall := Std.Time.WallTime.ofNanoseconds stamp.toNanosecondsSinceUnixEpoch
  return (instantOf (Std.Time.PlainDateTime.ofWallTime wall)).getD firstInstant

/-- Writes an event as a line of the log. -/
def report (event : Event) : IO Unit := do
  let stamp := (← universalNow).render true ++ "Z"
  let line :=
    match event.toJson with
    | .object members => Json.object (members ++ [(("timestamp" : Text), Json.text stamp)])
    | v => v
  (← IO.getStderr).putStrLn (String.ofList line.write)

/-- The variables of the environment that give the settings. -/
def environment : IO (List (String × Text)) := do
  let values ← Settings.variableNames.mapM fun name => do
    return (← IO.getEnv name).map fun value => (name, (value : Text))
  return values.filterMap id

/-- The exit code of an ending; a fault that is not handled is reported. -/
def exitCode : Feed.Ending → IO UInt32
  | .exit code => return code.toUInt32
  | .escaped fault => do
      (← IO.getStderr).putStrLn fault.summary
      return 1

/-- Handles lines in order, and tells how far the feed has come or how it ended. -/
def handleLines
    (settings : Settings)
    (progress : Feed.Progress) : List (List Char) → IO (Except Feed.Ending Feed.Progress)
  | [] => return .ok progress
  | line :: rest => do
      let now ← localNow
      let step := Feed.step settings (fun _ => now) progress line
      step.events.forM report
      (← IO.getStdout).putStr step.output
      match step.next with
      | .error ending => return .error ending
      | .ok progress => handleLines settings progress rest

/-- Handles the lines of standard input until it ends or a line ends the feed. -/
partial def handleInput
    (settings : Settings)
    (progress : Feed.Progress) : IO UInt32 := do
  let text ← (← IO.getStdin).getLine
  if text.isEmpty then
    report (Feed.endEvent progress)
    return 0
  else
    let lines := Feed.splitLines (Feed.unifyNewlines text.toList)
    match ← handleLines settings progress lines with
    | .error ending => exitCode ending
    | .ok progress => handleInput settings progress

end CommandLine
end ChangeFeed

/-- The program. -/
def main : IO UInt32 := do
  let env ← ChangeFeed.CommandLine.environment
  let (settings, warnings) := ChangeFeed.Settings.ofEnvironment env
  ChangeFeed.CommandLine.report .starting
  warnings.forM fun warning => ChangeFeed.CommandLine.report (.ofWarning warning)
  (ChangeFeed.Formatter.startEvents settings).forM ChangeFeed.CommandLine.report
  ChangeFeed.CommandLine.handleInput settings { state := .start settings }
