import ChangeFeed.Proofs.Formatter.TypeCodes
import ChangeFeed.Proofs.Session.Stamped
import ChangeFeed.Proofs.Session.Transparency

/-!
# Sessions whose tables have other type codes

Two sessions of the same steps, but for the type codes of the columns that are described in
them, go the same way: step by step the containers and the formatter are the same, and so are
the rows, whatever makes them. A code tells no more than its class. It is looked at by what
reads texts, which is told by the settings whether all columns are kept as texts, and by what
builds schemas, which is told by the cache. With all columns read as texts no text can fail,
with all columns built as texts all schemas are of texts, and with both a code tells nothing.

**Results.**

* `report_retyped`: one step.
* `forall₂_transcript_retyped`: all steps.
* `exists_of_mem_transcript`: what holds before each step of a session.
* `transcript_retyped`: what the type codes of a session tell.
-/

namespace ChangeFeed
namespace Session

/-- A step that is another one but for the type codes of the columns in it. -/
inductive Step.Retyped (asText : Bool) : Step → Step → Prop
  | format
      (change : Change)
      {table other : Table}
      (into : String)
      (h : table.Retyped asText other) :
      Retyped asText
        (.act (.call (.format change table into))) (.act (.call (.format change other into)))
  | notify (notice : Formatter.Notice) :
      Retyped asText (.act (.call (.notify notice))) (.act (.call (.notify notice)))
  | clear (name : String) :
      Retyped asText (.act (.clear name)) (.act (.clear name))
  | convert
      {table other : Table}
      (source : String)
      (h : table.Retyped asText other) :
      Retyped asText (.convert table source) (.convert other source)

/-- The columns that are described in a step. -/
def Step.columns : Step → List Column
  | .act (.call (.format _ table _)) => table.columns
  | .act _ => []
  | .convert table _ => table.columns

/-- Two reports that differ at most in the type code of a text that cannot be read. -/
structure Report.SameButCode
    (asText : Bool)
    (columns others : List Column)
    (report other : Report) : Prop where
  result : SameResult (Failure.SameButCode asText columns others) report.result other.result
  events : List.Forall₂ (Event.SameButCode asText columns others) report.events other.events
  state_eq : report.state = other.state

/-- Two steps that differ in type codes, with reports that differ at most in the code quoted. -/
structure Entry.SameButCode
    (asText : Bool)
    (entry other : Entry) : Prop where
  step : entry.step.Retyped asText other.step
  report :
    entry.report.SameButCode asText entry.step.columns other.step.columns other.report

section Reports

variable {columns others : List Column}
variable {report other : Report}

theorem Report.SameButCode.of_eq
    (asText : Bool)
    (h : report = other)
    (hresult : ∀ cause, report.result ≠ .error (.coercion cause)) :
    report.SameButCode asText columns others other where
  result := by
    rw [← h]
    generalize report.result = result at *
    cases result with
    | ok rows => exact .ok rows
    | error failure => exact .error (.same fun cause hcause => hresult cause (by rw [hcause]))
  events := h ▸ Event.sameButCode_self asText columns others report.events
  state_eq := congrArg Report.state h

/-- Read as texts, no text fails, so there is nothing left to differ in. -/
theorem Report.SameButCode.eq
    (h : report.SameButCode true columns others other) :
    report = other := by
  have hevents : List.Forall₂ Eq report.events other.events :=
    h.events.imp fun _ _ hevent => hevent.eq
  have hresult := h.result.eq fun _ _ hfailure => hfailure.eq.1
  obtain ⟨result, events, state⟩ := report
  obtain ⟨otherResult, otherEvents, otherState⟩ := other
  obtain rfl : state = otherState := h.state_eq
  obtain rfl : events = otherEvents := List.forall₂_eq_eq_eq ▸ hevents
  obtain rfl : result = otherResult := hresult
  rfl

end Reports

/-- Whether type codes tell nothing: all columns are read as texts, and built as texts. -/
def State.isUntyped
    (settings : Settings)
    (state : State) : Bool :=
  settings.asText && state.formatter.cache.asText

section Steps

variable {arrow : Arrow}
variable {settings : Settings}
variable {clock : Clock}

/-- A step leaves the way in which schemas are built. -/
theorem asText_report
    (state : State)
    (step : Step) :
    (report arrow settings clock state step).state.formatter.cache.asText =
      state.formatter.cache.asText := by
  cases step with
  | act action =>
      cases action with
      | clear name => rfl
      | call call => exact Formatter.asText_respond settings clock state.formatter call.message
  | convert table source => exact Schema.Cache.asText_request ..

/-- A step with other type codes comes to the same, but for the code that a failure quotes. -/
theorem report_retyped
    {state : State}
    {step other : Step}
    (h : step.Retyped (state.isUntyped settings) other) :
    (report arrow settings clock state step).SameButCode (state.isUntyped settings) step.columns
      other.columns (report arrow settings clock state other) := by
  have hread : settings.asText = false → state.isUntyped settings = false := by
    simp +contextual [State.isUntyped]
  have hbuilt : state.formatter.cache.asText = false → state.isUntyped settings = false := by
    simp +contextual [State.isUntyped]
  cases h with
  | @format change table other into h =>
      obtain ⟨hresult, hevents, hstate⟩ :=
        @Formatter.format_retyped settings clock change table other state.formatter
          (h.mono hread) (h.mono hbuilt)
      refine
        ⟨(hresult.imp fun _ _ hfailure => hfailure.mono hread).map _,
          hevents.imp fun _ _ hevent => hevent.mono hread, ?_⟩
      simp only [report, act, answer, Call.message, Formatter.respond, hstate]
      generalize (state.formatter.format settings clock change table).result = result at *
      generalize (state.formatter.format settings clock change other).result = otherResult at *
      cases hresult with
      | ok pairs => rfl
      | error hfailure => rfl
  | notify notice =>
      refine .of_eq _ rfl fun cause => ?_
      simp only [report, Call.message, Formatter.respond]
      cases (state.formatter.notice notice).result <;> simp [Except.map]
  | clear name => exact .of_eq _ rfl fun cause => by simp [report]
  | @convert table other source h =>
      refine .of_eq _ ?_ fun cause => ?_
      · simp only [report, Formatter.convert_retyped arrow (h.mono hbuilt)]
      · simp only [report]
        cases (state.formatter.convert arrow table _).result <;> simp [Except.mapError]

theorem forall₂_transcript_retyped
    {state : State}
    {steps others : List Step}
    (h : List.Forall₂ (Step.Retyped (state.isUntyped settings)) steps others) :
    List.Forall₂ (Entry.SameButCode (state.isUntyped settings))
      (transcript arrow settings clock state steps)
      (transcript arrow settings clock state others) := by
  generalize hmode : state.isUntyped settings = untyped at *
  induction h generalizing state with
  | nil => exact .nil
  | @cons step other steps others hfirst _ ih =>
      subst hmode
      have hreport := @report_retyped arrow settings clock state step other hfirst
      refine .cons ⟨hfirst, hreport⟩ ?_
      rw [← hreport.state_eq]
      refine ih ?_
      rw [State.isUntyped, asText_report]
      rfl

/-- An entry of a transcript is a step from a state of which all holds that steps preserve. -/
theorem exists_of_mem_transcript
    (holds : State → Prop)
    (hstep : ∀ state step, holds state → holds (report arrow settings clock state step).state)
    {state : State}
    {steps : List Step}
    {entry : Entry}
    (h : holds state)
    (hentry : entry ∈ transcript arrow settings clock state steps) :
    ∃ before, holds before ∧ entry.report = report arrow settings clock before entry.step := by
  induction steps generalizing state with
  | nil => contradiction
  | cons step rest ih =>
      rcases List.mem_cons.1 hentry with rfl | hrest
      · exact ⟨state, h, rfl⟩
      · exact ih (hstep state step h) hrest

/-- With all columns built as texts, the schemas that are kept stay schemas of texts. -/
theorem areTexts_report
    (state : State)
    (step : Step)
    (hasText : state.formatter.cache.asText = true)
    (h : state.formatter.cache.AreTexts) :
    (report arrow settings clock state step).state.formatter.cache.AreTexts := by
  have hrequest (table : Table) :
      (state.formatter.cache.request table.name table).cache.AreTexts :=
    Schema.Cache.areTexts_request hasText h table.name table
  cases step with
  | act action =>
      cases action with
      | clear name => exact h
      | call call =>
          cases call with
          | format change table into =>
              have hstate :
                  (report arrow settings clock state
                      (.act (.call (.format change table into)))).state =
                    act settings clock state (.call (.format change table into)) := rfl
              rw [hstate]
              simp only [act, Call.message, Formatter.respond, Formatter.state_cache_format]
              exact hrequest table
          | notify notice =>
              have hdrop := Schema.Cache.areTexts_drop h notice.objectName
              simp only [report, act, Call.message, Formatter.respond, Formatter.notice]
              split <;> exact hdrop
  | convert table source => exact hrequest table

/-- With all columns read as texts, no text fails. -/
theorem ne_coercion_report
    (hasText : settings.asText = true)
    (state : State)
    (step : Step)
    (cause : Coercion.Failure) :
    (report arrow settings clock state step).result ≠ .error (.coercion cause) := by
  intro hresult
  cases step with
  | act action =>
      cases action with
      | clear name => contradiction
      | call call =>
          have hfailed := (map_eq_error_iff _ _ _).1 hresult
          cases call with
          | format change table into => exact Formatter.ne_coercion_format hasText cause hfailed
          | notify notice =>
              simp only [Call.message, Formatter.respond] at hfailed
              split at hfailed <;> cases hfailed
  | convert table source =>
      simp only [report, Formatter.convert] at hresult
      cases hrequest : (state.formatter.cache.request table.name table).result with
      | error fault => simp [hrequest, Except.map, Except.mapError] at hresult
      | ok build => simp [hrequest, Except.map, Except.mapError] at hresult

/-- With all columns read as texts, a change fills a container with what was captured. -/
theorem isVerbatim_report
    (hasText : settings.asText = true)
    (state : State)
    (change : Change)
    (table : Table)
    (into : String)
    {rows : List Emitted.Rows}
    (h :
      (report arrow settings clock state
        (.act (.call (.format change table into)))).result = .ok rows) :
    ∀ built ∈
        ((report arrow settings clock state
          (.act (.call (.format change table into)))).state.containers into).toList,
      built.IsVerbatim change table := by
  obtain ⟨pairs, hpairs, -⟩ := (map_eq_ok_iff _ _ _).1 h
  change (state.formatter.format settings clock change table).result = .ok pairs at hpairs
  have hholds :
      ((report arrow settings clock state
          (.act (.call (.format change table into)))).state.containers into).toList = pairs := by
    simp only [report, act, answer, Call.message, Formatter.respond, Call.fill, hpairs, if_pos]
    exact Container.toList_ofList pairs (Formatter.length_le_of_format hpairs)
  rw [hholds]
  exact Formatter.isVerbatim_format hasText hpairs

end Steps

/--
Type codes tell no more than their class. In a session whose columns get other codes, of the
same classes, each step comes to the same: the formatter and the containers are the same
after it, and so are the rows of a conversion and the events, but that a text that cannot be
read fails with the code of its own column. With all columns read and built as texts the codes
may be any, and then the reports are the same. With all columns read as texts no text fails,
and a change that is formatted leaves in its container the captured texts as they are; with
all columns built as texts all schemas that a formatter builds are of texts that may be null.
-/
theorem transcript_retyped
    (arrow : Arrow)
    (settings : Settings)
    (clock : Clock)
    (state : State)
    (steps others : List Step)
    (h : List.Forall₂ (Step.Retyped (state.isUntyped settings)) steps others) :
    List.Forall₂ (Entry.SameButCode (state.isUntyped settings))
        (transcript arrow settings clock state steps)
        (transcript arrow settings clock state others) ∧
      (state.isUntyped settings = true →
        (transcript arrow settings clock state steps).map Entry.report =
          (transcript arrow settings clock state others).map Entry.report) ∧
      ∀ entry ∈ transcript arrow settings clock state steps,
        (settings.asText = true →
          (∀ cause, entry.report.result ≠ .error (.coercion cause)) ∧
            ∀ change table into rows,
              entry.step = .act (.call (.format change table into)) →
              entry.report.result = .ok rows →
              ∀ built ∈ (entry.report.state.containers into).toList,
                built.IsVerbatim change table) ∧
          (state.formatter.cache.asText = true →
            state.formatter.cache.entries = [] →
            entry.report.state.formatter.cache.AreTexts) := by
  have hsame := @forall₂_transcript_retyped arrow settings clock state steps others h
  refine ⟨hsame, fun huntyped => ?reports, fun entry hentry => ⟨fun hasText => ?texts, ?schemas⟩⟩
  case reports =>
    rw [huntyped] at hsame
    have hreports :
        List.Forall₂ (fun entry other : Entry => entry.report = other.report)
          (transcript arrow settings clock state steps)
          (transcript arrow settings clock state others) :=
      hsame.imp fun _ _ hentry => hentry.report.eq
    rw [← List.forall₂_eq_eq_eq, List.forall₂_map_left_iff, List.forall₂_map_right_iff]
    exact hreports
  case texts =>
    obtain ⟨before, -, hreport⟩ :=
      exists_of_mem_transcript (fun _ => True) (fun _ _ _ => trivial) trivial hentry
    refine ⟨fun cause => ?_, fun change table into rows hstep hrows => ?_⟩
    · rw [hreport]
      exact ne_coercion_report hasText before entry.step cause
    · rw [hreport, hstep] at hrows ⊢
      exact isVerbatim_report hasText before change table into hrows
  case schemas =>
    intro hasText hempty
    -- The cache goes on building schemas of texts, and starts with none that are not.
    obtain ⟨before, ⟨hbefore, htexts⟩, hreport⟩ :=
      exists_of_mem_transcript
        (fun state => state.formatter.cache.asText = true ∧ state.formatter.cache.AreTexts)
        (fun state step hstate =>
          ⟨(asText_report state step).trans hstate.1, areTexts_report state step hstate.1 hstate.2⟩)
        ⟨hasText, by simp [Schema.Cache.AreTexts, hempty]⟩ hentry
    rw [hreport]
    exact areTexts_report before entry.step hbefore htexts

end Session

namespace Parcel

/-- Parcels, with other codes of the same classes. -/
def recoded : Table :=
  ⟨.text "SHOP.PARCELS",
    [⟨.text "ID", -5, true⟩, ⟨.text "NOTE", 1, false⟩, ⟨.text "WEIGHT", 6, false⟩,
      ⟨.text "PRICE", 2, false⟩]⟩

/-- Parcels, with codes of other classes. -/
def reclassed : Table :=
  ⟨.text "SHOP.PARCELS",
    [⟨.text "ID", 12, true⟩, ⟨.text "NOTE", 4, false⟩, ⟨.text "WEIGHT", 16, false⟩,
      ⟨.text "PRICE", -5, false⟩]⟩

/-- Settings by which all columns are kept as texts. -/
def asTexts : Settings where
  asText := true

/-- A parcel whose weight cannot be read. -/
def unweighed : Change :=
  { sent with
    columns :=
      [⟨.absent, .captured "7"⟩, ⟨.absent, .null⟩, ⟨.absent, .captured "heavy"⟩,
        ⟨.absent, .captured "0.1"⟩] }

/-- Two parcels of a table are formatted, the first one is converted, the table is altered. -/
def steps (table : Table) : List Session.Step :=
  [.act (.call (.format sent table "out")), .convert table "out",
    .act (.call (.format unweighed table "out")),
    .act (.call (.notify ⟨.text "TABLE", .text "SHOP.PARCELS", .text "ALTER"⟩)),
    .act (.clear "out")]

theorem retyped_steps
    {asText : Bool}
    {other : Table}
    (h : table.Retyped asText other) :
    List.Forall₂ (Session.Step.Retyped asText) (steps table) (steps other) :=
  .cons (.format _ _ h)
    (.cons (.convert _ h)
      (.cons (.format _ _ h) (.cons (.notify _) (.cons (.clear _) .nil))))

theorem retyped_recoded : table.Retyped false recoded where
  name_eq := rfl
  columns :=
    .cons ⟨rfl, rfl, fun _ => rfl⟩
      (.cons ⟨rfl, rfl, fun _ => rfl⟩
        (.cons ⟨rfl, rfl, fun _ => rfl⟩ (.cons ⟨rfl, rfl, fun _ => rfl⟩ .nil)))

theorem retyped_reclassed : table.Retyped true reclassed where
  name_eq := rfl
  columns :=
    .cons ⟨rfl, rfl, by simp⟩
      (.cons ⟨rfl, rfl, by simp⟩ (.cons ⟨rfl, rfl, by simp⟩ (.cons ⟨rfl, rfl, by simp⟩ .nil)))

end Parcel

namespace Session

open Parcel (clock sent table steps recoded reclassed asTexts)

/-- The code that a step quotes, if it fails for a text that cannot be read. -/
def Report.quoted? (report : Report) : Option Int :=
  match report.result with
  | .error (.coercion cause) => some cause.code
  | _ => none

/-- By type the second parcel fails, each time with its own code, as texts both are formatted. -/
theorem transcript_retyped_parcels :
    List.Forall₂ (Entry.SameButCode false)
        (transcript Observed.arrow {} clock (.start {}) (steps table))
        (transcript Observed.arrow {} clock (.start {}) (steps recoded)) ∧
      ((transcript Observed.arrow {} clock (.start {}) (steps table)).map
          fun entry => entry.report.result.isOk) =
        [true, true, false, true, true] ∧
      ((transcript Observed.arrow {} clock (.start {}) (steps table)).map
          fun entry => entry.report.quoted?) =
        [none, none, some 7, none, none] ∧
      ((transcript Observed.arrow {} clock (.start {}) (steps recoded)).map
          fun entry => entry.report.quoted?) =
        [none, none, some 6, none, none] ∧
      (transcript Observed.arrow asTexts clock (.start asTexts) (steps table)).map Entry.report =
        (transcript Observed.arrow asTexts clock (.start asTexts) (steps reclassed)).map
          Entry.report ∧
      ∃ entry ∈ transcript Observed.arrow asTexts clock (.start asTexts) (steps table),
        (entry.report.state.containers "out").length = 1 ∧
          (∀ built ∈ (entry.report.state.containers "out").toList,
            built.IsVerbatim sent table) ∧
          entry.report.state.formatter.cache.entries.length = 1 ∧
          entry.report.state.formatter.cache.AreTexts := by
  have htyped :=
    transcript_retyped Observed.arrow {} clock (.start {}) _ _
      (Parcel.retyped_steps Parcel.retyped_recoded)
  obtain ⟨-, hreports, hentries⟩ :=
    transcript_retyped Observed.arrow asTexts clock (.start asTexts) _ _
      (Parcel.retyped_steps Parcel.retyped_reclassed)
  have hmem :
      (⟨.act (.call (.format sent table "out")),
          report Observed.arrow asTexts clock (.start asTexts)
            (.act (.call (.format sent table "out")))⟩ :
        Entry) ∈ transcript Observed.arrow asTexts clock (.start asTexts) (steps table) :=
    List.mem_cons_self
  obtain ⟨htexts, hschemas⟩ := hentries _ hmem
  refine ⟨htyped.1, by decide +kernel, by decide +kernel, by decide +kernel, hreports rfl, _,
    hmem, by decide +kernel, ?_, by decide +kernel, hschemas rfl rfl⟩
  obtain ⟨rows, hrows, -⟩ :
      ∃ rows,
        (report Observed.arrow asTexts clock (.start asTexts)
          (.act (.call (.format sent table "out")))).result = .ok rows ∧ rows.length = 0 :=
    exists_ok_of_toOption (by decide +kernel)
  exact (htexts rfl).2 _ _ _ rows rfl hrows

end Session
end ChangeFeed
