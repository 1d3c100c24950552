import ChangeFeed.Feed
import Mathlib.Data.List.Forall2

/-!
# The lines of a feed

What a line can do, once for all, and what follows for a whole text. A line is
handled or it ends the feed; the lines of a text are handled one after the other,
each with the formatter that the one before it leaves, up to the first that is
not. That line has the last word: what a feed writes, reports and ends with does
not depend on the lines after it.

**Results.**

* `handling_handleLine`: what a line that is not blank can do.
* `handles_iff_stop`: a line is handled just if it does not end the feed.
* `runLines_append`: handled lines write their texts, and the rest follows.
* `handlesAll_or_stopsAt`: all lines are handled, or there is a first that is not.
* `runLines_of_stopsAt`: the first line that is not handled decides.
-/

namespace ChangeFeed

namespace Emitted

/-- The lines of texts, each with its end. -/
def unlines : List String → String
  | [] => ""
  | text :: rest => text ++ "\n" ++ unlines rest

theorem unlines_append
    (first second : List String) :
    unlines (first ++ second) = unlines first ++ unlines second := by
  induction first with
  | nil =>
      simp [unlines]
  | cons text rest ih =>
      simp only [List.cons_append, unlines, ih, String.append_assoc]

/-- Pairs all of which can be written are written as their lines. -/
theorem lines_eq_none_iff
    (pairs : List Emitted)
    (output : String) :
    lines pairs = (output, none)
      ↔
    ∃ texts,
      List.Forall₂ (fun pair text => line pair = .ok text) pairs texts ∧
      output = unlines texts := by
  induction pairs generalizing output with
  | nil =>
      constructor
      · intro h
        cases h
        exact ⟨[], .nil, rfl⟩
      · rintro ⟨texts, htexts, rfl⟩
        cases htexts
        rfl
  | cons pair rest ih =>
      simp only [lines]
      cases hline : pair.line with
      | error fault =>
          simp only [Prod.mk.injEq, reduceCtorEq, and_false, false_iff]
          rintro ⟨texts, htexts, -⟩
          cases htexts with
          | cons htext _ =>
              rw [hline] at htext
              contradiction
      | ok text =>
          cases hrest : lines rest with
          | mk others fault =>
              simp only [Prod.mk.injEq]
              constructor
              · rintro ⟨rfl, rfl⟩
                obtain ⟨texts, htexts, rfl⟩ := (ih others).1 hrest
                exact ⟨text :: texts, .cons hline htexts, rfl⟩
              · rintro ⟨texts, htexts, rfl⟩
                cases htexts with
                | @cons _ found _ texts htext htexts =>
                    rw [hline] at htext
                    cases htext
                    have hothers := (ih (unlines texts)).2 ⟨texts, htexts, rfl⟩
                    rw [hrest] at hothers
                    cases hothers
                    exact ⟨rfl, rfl⟩

end Emitted

namespace Feed

/-- A line is that of a message. -/
def Reads (line : List Char) (message : Message) : Prop :=
  ∃ members,
    Json.read line = .ok (.object members) ∧
    Message.ofObject members = .ok message

/-- A line is no message: no JSON value, no object, or an object that none is taken from. -/
inductive Malformed (line : List Char) : Prop
  | unreadable
      {problem : Json.Problem}
      {left : Nat}
      (hread : Json.read line = .error (.malformed problem left))
  | noObject
      {v : Json}
      (hread : Json.read line = .ok v)
      (hobject : ∀ members, v ≠ .object members)
  | noMessage
      {members : List (Text × Json)}
      {fault : Fault}
      (hread : Json.read line = .ok (.object members))
      (hmessage : Message.ofObject members = .error fault)

section Line

variable (settings : Settings)
variable (clock : Clock)
variable (state : Formatter)
variable (line : List Char)

/-- What a line that is not blank can do. -/
inductive Handling : LineResult → Prop
  | malformed
      {stop : Stop}
      (hmalformed : Malformed line)
      (hending : ∀ number, (stop.ending number).1 = .exit 2) :
      Handling ⟨"", state, [], some stop⟩
  | tooLarge
      {cause : Json.ReadFault}
      {fault : Fault}
      (hread : Json.read line = .error cause)
      (hcause : ∀ problem left, cause ≠ .malformed problem left) :
      Handling ⟨"", state, [], some (.escaped fault)⟩
  | faulty
      {members : List (Text × Json)}
      {fault : Fault}
      (hread : Json.read line = .ok (.object members))
      (hmessage : Message.ofObject members = .error fault)
      (hfault : fault.isMalformed = false) :
      Handling ⟨"", state, [], some (.escaped fault)⟩
  | dropped
      {notice : Formatter.Notice}
      (hreads : Reads line (.notice notice))
      (hresult : (state.notice notice).result = .ok ()) :
      Handling ⟨"", (state.notice notice).state, (state.notice notice).events, none⟩
  | undropped
      {notice : Formatter.Notice}
      {fault : Fault}
      (hreads : Reads line (.notice notice))
      (hresult : (state.notice notice).result = .error fault) :
      Handling
        ⟨"", (state.notice notice).state, (state.notice notice).events,
          some (.escaped fault)⟩
  | unformatted
      {change : Change}
      {table : Table}
      {failure : Failure}
      (hreads : Reads line (.change change table))
      (hresult : (state.format settings clock change table).result = .error failure) :
      Handling
        ⟨"", (state.format settings clock change table).state,
          (state.format settings clock change table).events, some (.ofFailure failure)⟩
  | written
      {change : Change}
      {table : Table}
      {pairs : List Emitted}
      {output : String}
      {fault : Option Fault}
      (hreads : Reads line (.change change table))
      (hresult : (state.format settings clock change table).result = .ok pairs)
      (hlines : Emitted.lines pairs = (output, fault)) :
      Handling
        ⟨output, (state.format settings clock change table).state,
          (state.format settings clock change table).events, fault.map .escaped⟩

/-- A line that is handled: the texts it writes and the formatter after it. -/
inductive Handles : List String → Formatter → Prop
  | blank
      (hblank : isBlankLine line = true) :
      Handles [] state
  | notice
      {notice : Formatter.Notice}
      (hblank : isBlankLine line = false)
      (hreads : Reads line (.notice notice))
      (hresult : (state.notice notice).result = .ok ()) :
      Handles [] (state.notice notice).state
  | change
      {change : Change}
      {table : Table}
      {pairs : List Emitted}
      {texts : List String}
      (hblank : isBlankLine line = false)
      (hreads : Reads line (.change change table))
      (hresult : (state.format settings clock change table).result = .ok pairs)
      (htexts : List.Forall₂ (fun pair text => pair.line = .ok text) pairs texts) :
      Handles texts (state.format settings clock change table).state

theorem handling_handle
    {message : Message}
    (hreads : Reads line message) :
    Handling settings clock state line (handle settings clock state message) := by
  cases message with
  | notice notice =>
      simp only [handle]
      cases hresult : (state.notice notice).result with
      | ok done => exact .dropped hreads hresult
      | error fault => exact .undropped hreads hresult
  | change change table =>
      simp only [handle]
      cases hresult : (state.format settings clock change table).result with
      | error failure => exact .unformatted hreads hresult
      | ok pairs => exact .written hreads hresult rfl

theorem handling_handleLine :
    Handling settings clock state line (handleLine settings clock state line) := by
  unfold handleLine messageOf
  cases hread : Json.read line with
  | error cause =>
      cases cause with
      | malformed problem left => exact .malformed (.unreadable hread) fun _ => rfl
      | integerTooLong digits => exact .tooLarge hread (by simp)
      | tooDeep => exact .tooLarge hread (by simp)
  | ok v =>
      cases v with
      | object members =>
          cases hmessage : Message.ofObject members with
          | ok message =>
              simp only [hmessage]
              exact handling_handle settings clock state line ⟨members, hread, hmessage⟩
          | error fault =>
              cases hfault : fault.isMalformed with
              | true =>
                  simp only [hmessage, hfault, if_true]
                  exact .malformed (.noMessage hread hmessage) fun _ => rfl
              | false =>
                  simp only [hmessage, hfault]
                  exact .faulty hread hmessage hfault
      | _ => exact .malformed (.noObject hread (by simp)) fun _ => rfl

end Line

section Handles

variable {settings : Settings}
variable {clock : Clock}
variable {state after : Formatter}
variable {line : List Char}
variable {texts : List String}

/-- The message of a line is what is handled of it. -/
theorem handleLine_of_reads
    {message : Message}
    (hreads : Reads line message) :
    handleLine settings clock state line = handle settings clock state message := by
  obtain ⟨members, hread, hmessage⟩ := hreads
  simp only [handleLine, messageOf, hread, hmessage]

/-- A line that is handled has its texts for output and does not end the feed. -/
theorem handleLine_of_handles
    (hblank : isBlankLine line = false)
    (h : Handles settings clock state line texts after) :
    ∃ events,
      handleLine settings clock state line =
        ⟨Emitted.unlines texts, after, events, none⟩ := by
  cases h with
  | blank hblank' =>
      rw [hblank] at hblank'
      contradiction
  | notice _ hreads hresult =>
      rw [handleLine_of_reads hreads]
      simp only [handle, hresult]
      exact ⟨_, rfl⟩
  | change _ hreads hresult htexts =>
      rw [handleLine_of_reads hreads]
      have hlines := (Emitted.lines_eq_none_iff _ _).2 ⟨texts, htexts, rfl⟩
      simp only [handle, hresult, hlines]
      exact ⟨_, rfl⟩

/-- A line that does not end the feed is handled. -/
theorem handles_of_stop
    (hblank : isBlankLine line = false)
    (hstop : (handleLine settings clock state line).stop = none) :
    ∃ texts after, Handles settings clock state line texts after := by
  have hhandling := handling_handleLine settings clock state line
  generalize handleLine settings clock state line = result at *
  cases hhandling with
  | malformed => contradiction
  | tooLarge => contradiction
  | faulty => contradiction
  | dropped hreads hresult => exact ⟨[], _, .notice hblank hreads hresult⟩
  | undropped => contradiction
  | unformatted => contradiction
  | @written _ _ _ _ fault hreads hresult hlines =>
      cases fault with
      | some fault => contradiction
      | none =>
          obtain ⟨texts, htexts, -⟩ := (Emitted.lines_eq_none_iff _ _).1 hlines
          exact ⟨texts, _, .change hblank hreads hresult htexts⟩

/-- A line that is not handled is not blank and ends the feed. -/
theorem exists_stop_of_not_handles
    (h : ∀ texts after, ¬Handles settings clock state line texts after) :
    isBlankLine line = false ∧
      ∃ stop, (handleLine settings clock state line).stop = some stop := by
  cases hblank : isBlankLine line with
  | true => exact absurd (.blank hblank) (h [] state)
  | false =>
      refine ⟨rfl, ?_⟩
      cases hstop : (handleLine settings clock state line).stop with
      | some stop => exact ⟨stop, rfl⟩
      | none =>
          obtain ⟨texts, after, hhandles⟩ := handles_of_stop hblank hstop
          exact absurd hhandles (h texts after)

end Handles

/-- The number of lines that are not blank. -/
def messageCount (lines : List (List Char)) : Nat :=
  lines.countP fun line => !isBlankLine line

section Lines

variable (settings : Settings)
variable (clock : Clock)

/-- Lines that are handled one after the other, each with the formatter the one before leaves. -/
inductive HandlesAll : Formatter → List (List Char) → List String → Formatter → Prop
  | nil
      {state : Formatter} :
      HandlesAll state [] [] state
  | cons
      {state next after : Formatter}
      {line : List Char}
      {lines : List (List Char)}
      {texts others : List String}
      (hline : Handles settings clock state line texts next)
      (hlines : HandlesAll next lines others after) :
      HandlesAll state (line :: lines) (texts ++ others) after

/-- The first line that is not handled, and what is handled before it. -/
structure StopsAt
    (start : Formatter)
    (lines before : List (List Char))
    (line : List Char)
    (after : List (List Char))
    (texts : List String)
    (state : Formatter) : Prop where
  lines_eq : lines = before ++ line :: after
  handled : HandlesAll settings clock start before texts state
  unhandled : ∀ others next, ¬Handles settings clock state line others next

end Lines

/-- A report with something before it. -/
def Report.prepend
    (output : String)
    (events : List Event)
    (report : Report) : Report :=
  ⟨output ++ report.output, events ++ report.events, report.ending⟩

section Run

variable {settings : Settings}
variable {clock : Clock}

theorem messageCount_cons
    (line : List Char)
    (lines : List (List Char)) :
    messageCount (line :: lines) = messageCount [line] + messageCount lines := by
  simp only [messageCount, List.countP_cons, List.countP_nil]
  omega

theorem step_of_handles
    {start state : Formatter}
    {line : List Char}
    {texts : List String}
    (h : Handles settings clock start line texts state)
    (number operations : Nat) :
    ∃ events,
      step settings clock ⟨start, number, operations⟩ line =
        ⟨Emitted.unlines texts, events,
          .ok ⟨state, number + 1, operations + messageCount [line]⟩⟩ := by
  unfold step
  cases hblank : isBlankLine line with
  | true =>
      have hcount : messageCount [line] = 0 := by simp [messageCount, hblank]
      cases h with
      | blank => exact ⟨[], by simp [hcount, Emitted.unlines]⟩
      | notice hblank' =>
          rw [hblank] at hblank'
          contradiction
      | change hblank' =>
          rw [hblank] at hblank'
          contradiction
  | false =>
      have hcount : messageCount [line] = 1 := by simp [messageCount, hblank]
      obtain ⟨events, hresult⟩ := handleLine_of_handles hblank h
      refine ⟨events, ?_⟩
      simp only [hresult, hcount]
      rfl

/-- Handled lines write their texts and are counted; how they end is left to the lines after. -/
theorem runLines_append
    {start state : Formatter}
    {before : List (List Char)}
    {texts : List String}
    (h : HandlesAll settings clock start before texts state)
    (number operations : Nat) :
    ∃ events, ∀ after,
      runLines settings clock ⟨start, number, operations⟩ (before ++ after) =
        (runLines settings clock
          ⟨state, number + before.length, operations + messageCount before⟩ after).prepend
          (Emitted.unlines texts) events := by
  induction h generalizing number operations with
  | nil =>
      refine ⟨[], fun after => ?_⟩
      simp [Report.prepend, Emitted.unlines, messageCount]
  | @cons start next state line lines texts others hline hlines ih =>
      obtain ⟨events, hstep⟩ := step_of_handles hline number operations
      obtain ⟨rest, hrest⟩ := ih (number + 1) (operations + messageCount [line])
      refine ⟨events ++ rest, fun after => ?_⟩
      have hnumber : number + 1 + lines.length = number + (line :: lines).length := by
        simp only [List.length_cons]
        omega
      have hoperations :
          operations + messageCount [line] + messageCount lines =
            operations + messageCount (line :: lines) := by
        rw [messageCount_cons line lines]
        omega
      rw [List.cons_append, runLines]
      simp only [hstep, hrest after, hnumber, hoperations, Report.prepend,
        Emitted.unlines_append, String.append_assoc, List.append_assoc]

/-- A feed all of whose lines are handled writes their texts and ends by counting them. -/
theorem runLines_of_handlesAll
    {start state : Formatter}
    {lines : List (List Char)}
    {texts : List String}
    (h : HandlesAll settings clock start lines texts state) :
    ∃ events,
      runLines settings clock { state := start } lines =
        ⟨Emitted.unlines texts, events ++ [.processed (messageCount lines)], .exit 0⟩ := by
  obtain ⟨events, hrun⟩ := runLines_append h 1 0
  have hlines := hrun []
  rw [List.append_nil] at hlines
  refine ⟨events, ?_⟩
  rw [hlines]
  simp [runLines, Report.prepend, endEvent]

/-- The first line that is not handled ends the feed, whatever lines come after it. -/
theorem runLines_of_stopsAt
    {lines before after : List (List Char)}
    {line : List Char}
    {texts : List String}
    {start state : Formatter}
    (h : StopsAt settings clock start lines before line after texts state) :
    ∃ stop events,
      (handleLine settings clock state line).stop = some stop ∧
      ∀ others,
        runLines settings clock { state := start } (before ++ line :: others) =
          ⟨Emitted.unlines texts ++ (handleLine settings clock state line).output, events,
            (stop.ending (1 + before.length)).1⟩ := by
  obtain ⟨hblank, stop, hstop⟩ := exists_stop_of_not_handles h.unhandled
  obtain ⟨events, hrun⟩ := runLines_append h.handled 1 0
  refine ⟨stop,
    events ++ ((handleLine settings clock state line).events ++
      (stop.ending (1 + before.length)).2), hstop, fun others => ?_⟩
  rw [hrun, runLines]
  simp [step, hblank, hstop, Report.prepend]

/-- The lines of a feed are all handled, or there is a first that is not. -/
theorem handlesAll_or_stopsAt
    (settings : Settings)
    (clock : Clock)
    (start : Formatter)
    (lines : List (List Char)) :
    (∃ texts state, HandlesAll settings clock start lines texts state) ∨
      ∃ before line after texts state,
        StopsAt settings clock start lines before line after texts state := by
  induction lines generalizing start with
  | nil =>
      exact Or.inl ⟨[], start, .nil⟩
  | cons first rest ih =>
      by_cases hfirst : ∃ texts next, Handles settings clock start first texts next
      · obtain ⟨texts, next, hfirst⟩ := hfirst
        rcases ih next with
          ⟨others, state, hrest⟩ | ⟨before, line, after, others, state, hstops⟩
        · exact Or.inl ⟨texts ++ others, state, .cons hfirst hrest⟩
        · refine Or.inr ⟨first :: before, line, after, texts ++ others, state, ?_⟩
          have hlines := hstops.lines_eq
          exact ⟨by rw [hlines]; rfl, .cons hfirst hstops.handled, hstops.unhandled⟩
      · refine Or.inr ⟨[], first, rest, [], start, rfl, .nil, ?_⟩
        intro others next hhandles
        exact hfirst ⟨others, next, hhandles⟩

end Run
end Feed
end ChangeFeed
