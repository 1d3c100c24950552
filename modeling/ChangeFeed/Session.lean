import ChangeFeed.Feed

/-!
# Sessions

A caller owns containers and calls a formatter with changes, each to be formatted
into one of them, and with notices. A session is what such calls come to: after
each of them, why it failed if it did, and what the containers then hold. Between
calls, the caller may clear a container.

Sessions and feeds are described here for any way of responding to messages, so
that two of them can be compared: the formatter, which keeps schemas from one
change to the next, and one that keeps none and builds the schemas of a table
from the description that comes with each change.

**Results.**

* `follow_respond`: the feed is what the formatter makes of its lines.
-/

namespace ChangeFeed

/-- A way of responding: what comes of a message, no pairs for a notice, and the state after. -/
abbrev Responder (σ : Type) :=
  σ → Message → Except Failure (List Emitted) × σ

namespace Formatter

/-- The formatter as a way of responding. -/
def respond
    (settings : Settings)
    (clock : Clock) : Responder Formatter
  | state, .notice notice =>
      match (state.notice notice).result with
      | .ok () => (.ok [], (state.notice notice).state)
      | .error fault => (.error (.fault fault), (state.notice notice).state)
  | state, .change change table =>
      ((state.format settings clock change table).result,
        (state.format settings clock change table).state)

/-- A change formatted with schemas that are built from the description of its own table. -/
def formatAfresh
    (settings : Settings)
    (clock : Clock)
    (stamps : Stamps)
    (change : Change)
    (table : Table) : Except Failure (List Emitted) × Stamps :=
  match Schema.Schemas.ofTable settings.asText table with
  | .error fault => (.error (.fault fault), stamps)
  | .ok schemas => assemble settings clock stamps change table schemas.hasKey

/-- A formatter that keeps no schemas, only the stamps given; a notice tells it nothing. -/
def respondAfresh
    (settings : Settings)
    (clock : Clock) : Responder Stamps
  | stamps, .notice _ => (.ok [], stamps)
  | stamps, .change change table => formatAfresh settings clock stamps change table

end Formatter

/-- A call on a formatter. -/
inductive Call where
  | format (change : Change) (table : Table) (into : String)
  | notify (notice : Formatter.Notice)

namespace Call

/-- The message that a call passes on. -/
def message : Call → Message
  | .format change table _ => .change change table
  | .notify notice => .notice notice

/-- The containers after a call with this result: only a change that succeeds fills one. -/
def fill
    (containers : String → Container)
    (result : Except Failure (List Emitted)) : Call → String → Container
  | .format _ _ into, name =>
      match result with
      | .ok pairs => if name = into then .ofList pairs else containers name
      | .error _ => containers name
  | .notify _, name => containers name

end Call

/-- Why a call failed, if it did, and what the containers hold after it. -/
structure Answer where
  failure? : Option Failure
  containers : String → Container

namespace Session

/-- Why a result is none. -/
def failureOf? : Except Failure (List Emitted) → Option Failure
  | .error failure => some failure
  | .ok _ => none

/-- The answer to a call with this result. -/
def answer
    (containers : String → Container)
    (call : Call)
    (result : Except Failure (List Emitted)) : Answer :=
  ⟨failureOf? result, call.fill containers result⟩

/-- The answers to calls, each made from where the one before it ends. -/
def answers
    {σ : Type}
    (respond : Responder σ)
    (state : σ)
    (containers : String → Container) : List Call → List Answer
  | [] => []
  | call :: rest =>
      let (result, next) := respond state call.message
      let first := answer containers call result
      first :: answers respond next first.containers rest

/-- What a caller does: a call on the formatter, or clearing a container of its own. -/
inductive Action where
  | call (call : Call)
  | clear (name : String)

/-- A formatter and the containers of its caller. -/
structure State where
  formatter : Formatter
  containers : String → Container := fun _ => {}

/-- A formatter as it is set up, and empty containers. -/
def State.start (settings : Settings) : State where
  formatter := .start settings

/-- The state after an action. -/
def act
    (settings : Settings)
    (clock : Clock)
    (state : State) : Action → State
  | .call call =>
      let (result, formatter) := Formatter.respond settings clock state.formatter call.message
      ⟨formatter, (answer state.containers call result).containers⟩
  | .clear name =>
      { state with
        containers := fun other =>
          if other = name then (state.containers other).clear else state.containers other }

/-- The state after actions, one after the other. -/
def run
    (settings : Settings)
    (clock : Clock)
    (state : State)
    (actions : List Action) : State :=
  actions.foldl (act settings clock) state

/-- The state after messages have been responded to in order. -/
def stateAfter
    {σ : Type}
    (respond : Responder σ)
    (state : σ)
    (messages : List Message) : σ :=
  messages.foldl (fun state message => (respond state message).2) state

end Session

namespace Feed

/-- What is made of lines, and how they end: messages are responded to up to the first failure. -/
def follow
    {σ : Type}
    (respond : Responder σ)
    (state : σ)
    (number : Nat) : List (List Char) → String × Ending
  | [] => ("", .exit 0)
  | line :: rest =>
      if isBlankLine line then
        follow respond state (number + 1) rest
      else
        match messageOf line with
        | .error stop => ("", (stop.ending number).1)
        | .ok message =>
            match respond state message with
            | (.error failure, _) => ("", ((Stop.ofFailure failure).ending number).1)
            | (.ok pairs, next) =>
                match Emitted.lines pairs with
                | (output, some fault) => (output, .escaped fault)
                | (output, none) =>
                    let (others, ending) := follow respond next (number + 1) rest
                    (output ++ others, ending)

theorem follow_respond
    (settings : Settings)
    (clock : Clock)
    (progress : Progress)
    (lines : List (List Char)) :
    follow (Formatter.respond settings clock) progress.state progress.line lines =
      ((runLines settings clock progress lines).output,
        (runLines settings clock progress lines).ending) := by
  induction lines generalizing progress with
  | nil =>
      rfl
  | cons line rest ih =>
      simp only [follow, runLines, step]
      cases hblank : isBlankLine line with
      | true =>
          simpa using ih { progress with line := progress.line + 1 }
      | false =>
          simp only [Bool.false_eq_true, if_false, handleLine]
          cases hmessage : messageOf line with
          | error stop => rfl
          | ok message =>
              cases message with
              | notice notice =>
                  simp only [handle, Formatter.respond]
                  cases hresult : (progress.state.notice notice).result with
                  | error fault => simp [Stop.ofFailure]
                  | ok done =>
                      have hrest :=
                        ih
                          ⟨(progress.state.notice notice).state, progress.line + 1,
                            progress.operations + 1⟩
                      simp [Emitted.lines, hrest]
              | change change table =>
                  simp only [handle, Formatter.respond]
                  cases hresult : (progress.state.format settings clock change table).result with
                  | error failure => simp
                  | ok pairs =>
                      cases hlines : Emitted.lines pairs with
                      | mk output fault =>
                          have hrest :=
                            ih
                              ⟨(progress.state.format settings clock change table).state,
                                progress.line + 1, progress.operations + 1⟩
                          cases fault <;> simp [Stop.ending, hlines, hrest]

end Feed
end ChangeFeed
