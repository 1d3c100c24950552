import ChangeFeed.Proofs.Feed.Output
import ChangeFeed.Proofs.Session.FailedCall
import ChangeFeed.Proofs.Stamp.Sequence
import ChangeFeed.Proofs.Stamp.Text

/-!
# Stamps in the order of emission

A formatter takes its stamps from one sequence, a call for each record, and also
for a record that is then not built. So what is emitted in a session or in a feed
is stamped by calls that come one after the other, and the texts of the stamps
increase as long as their years have four digits.

**Results.**

* `emitAll_after`, `respond_after`: what a plan and a message take from the sequence.
* `emitted_answers`: what a session leaves in its containers is what the formatter responds.
* `emitted_prefix`: a feed emits what the formatter responds to its messages, up to the end.
* `stamps_increase`: the stamps of sessions, feeds and sequences.
-/

namespace ChangeFeed

/-- What is ordered on one side of a correspondence is ordered on the other. -/
theorem pairwise_of_forall₂
    {α β : Type}
    {R : α → β → Prop}
    {S : β → β → Prop}
    {T : α → α → Prop}
    {as : List α}
    {bs : List β}
    (hmatch : List.Forall₂ R as bs)
    (hpairwise : bs.Pairwise S)
    (h : ∀ a a' b b', R a b → R a' b' → S b b' → T a a') :
    as.Pairwise T := by
  induction hmatch with
  | nil => exact .nil
  | @cons a b as bs hab hrest ih =>
      rw [List.pairwise_cons] at hpairwise ⊢
      refine ⟨fun a' ha' => ?_, ih hpairwise.2⟩
      obtain ⟨b', hb', hmatched⟩ := exists_match_of_mem hrest ha'
      exact h a a' b b' hab hmatched (hpairwise.1 b' hb')

namespace Instant

/-- A later instant is in no earlier year. -/
theorem year_le_of_isBefore
    {i j : Instant}
    (h : i.isBefore j = true) :
    i.fields.year ≤ j.fields.year := by
  rw [isBefore, DateTime.precedes_iff] at h
  omega

end Instant

namespace Stamps

theorem next_after (clock : Clock) (n : Nat) :
    (after clock n).next clock = (given clock n, after clock (n + 1)) := rfl

/-- No stamp is in an earlier year than the first reading. -/
theorem year_le_of_given
    {clock : Clock}
    {n : Nat}
    {stamp : Instant}
    (h : given clock n = some stamp) :
    (clock 0).fields.year ≤ stamp.fields.year := by
  cases n with
  | zero =>
      obtain rfl : clock 0 = stamp := Option.some.inj h
      exact Nat.le_refl _
  | succ n =>
      obtain ⟨first, hfirst, hbefore⟩ := exists_given_of_lt (Nat.succ_pos n) h
      obtain rfl : clock 0 = first := Option.some.inj hfirst
      exact Instant.year_le_of_isBefore hbefore

end Stamps

/-- The stamp of the record of a pair. -/
def Emitted.stamp (built : Emitted) : String :=
  built.record.stamp

/-- Texts of 26 characters, each of which comes after those before it. -/
structure IncreasingStamps (stamps : List String) : Prop where
  ordered : stamps.Pairwise (· < ·)
  wide : ∀ stamp ∈ stamps, stamp.length = 26

theorem IncreasingStamps.sublist
    {stamps others : List String}
    (h : IncreasingStamps stamps)
    (hsublist : others.Sublist stamps) :
    IncreasingStamps others :=
  ⟨h.ordered.sublist hsublist, fun stamp hstamp => h.wide stamp (hsublist.subset hstamp)⟩

/-- The record of a pair has the stamp of the call after `n` others. -/
def Emitted.StampedAt
    (settings : Settings)
    (clock : Clock)
    (built : Emitted)
    (n : Nat) : Prop :=
  ∃ stamp,
    Stamps.given clock n = some stamp ∧
    built.record.stamp = stamp.render settings.isoStamps

/-- Pairs stamped by calls that come one after the other, from `n` on and before `m`. -/
def StampedBetween
    (settings : Settings)
    (clock : Clock)
    (n m : Nat)
    (pairs : List Emitted) : Prop :=
  ∃ calls : List Nat,
    List.Forall₂ (Emitted.StampedAt settings clock) pairs calls ∧
    calls.Pairwise (· < ·) ∧
    ∀ k ∈ calls, n ≤ k ∧ k < m

section StampedBetween

variable {settings : Settings}
variable {clock : Clock}
variable {n m : Nat}

theorem stampedBetween_nil : StampedBetween settings clock n m [] :=
  ⟨[], .nil, .nil, by simp⟩

theorem stampedBetween_singleton
    {built : Emitted}
    (h : built.StampedAt settings clock n) :
    StampedBetween settings clock n (n + 1) [built] :=
  ⟨[n], .cons h .nil, List.pairwise_singleton _ _, by simp⟩

theorem StampedBetween.append
    {l : Nat}
    {pairs others : List Emitted}
    (hnm : n ≤ m)
    (hml : m ≤ l)
    (hpairs : StampedBetween settings clock n m pairs)
    (hothers : StampedBetween settings clock m l others) :
    StampedBetween settings clock n l (pairs ++ others) := by
  obtain ⟨calls, hcalls, hordered, hbounds⟩ := hpairs
  obtain ⟨calls', hcalls', hordered', hbounds'⟩ := hothers
  refine ⟨calls ++ calls', List.rel_append hcalls hcalls', ?_, ?_⟩
  · refine List.pairwise_append.2 ⟨hordered, hordered', fun k hk k' hk' => ?_⟩
    have hbefore := (hbounds k hk).2
    have hafter := (hbounds' k' hk').1
    omega
  · rw [List.forall_mem_append]
    refine ⟨fun k hk => ?_, fun k hk => ?_⟩
    · have hbound := hbounds k hk
      omega
    · have hbound := hbounds' k hk
      omega

/-- If the clock starts with a year of four digits, stamps increase as texts. -/
theorem StampedBetween.increasing
    {pairs : List Emitted}
    (h : StampedBetween settings clock n m pairs)
    (hyear : 1000 ≤ (clock 0).fields.year) :
    IncreasingStamps (pairs.map Emitted.stamp) := by
  obtain ⟨calls, hcalls, hordered, -⟩ := h
  constructor
  · rw [List.pairwise_map]
    refine pairwise_of_forall₂ hcalls hordered ?_
    rintro built other k l ⟨earlier, hearlier, hbuilt⟩ ⟨later, hlater, hother⟩ hlt
    obtain ⟨found, hfound, hbefore⟩ := Stamps.exists_given_of_lt hlt hlater
    cases hearlier.symm.trans hfound
    have hfour := Stamps.year_le_of_given hearlier
    rw [Emitted.stamp, Emitted.stamp, hbuilt, hother]
    exact Instant.render_lt_render _ (by omega) hbefore
  · rw [List.forall_mem_map]
    intro built hbuilt
    obtain ⟨k, -, stamp, hstamp, htext⟩ := exists_match_of_mem hcalls hbuilt
    have hfour := Stamps.year_le_of_given hstamp
    rw [Emitted.stamp, htext]
    exact Instant.length_render _ (by omega)

end StampedBetween

namespace Formatter

section After

variable {settings : Settings}
variable {clock : Clock}
variable {change : Change}
variable {table : Table}

theorem stampedAt_of_pair
    {columns : List Aligned}
    {hasKey : Bool}
    {stamp : Instant}
    {emission : Emission}
    {built : Emitted}
    {n : Nat}
    (hstamp : Stamps.given clock n = some stamp)
    (h : pair settings stamp change table columns hasKey emission = .ok built) :
    built.StampedAt settings clock n := by
  obtain ⟨name, block, -, -, hrecord, -⟩ := pair_eq_ok h
  exact ⟨stamp, hstamp, by rw [hrecord]⟩

/-- Emissions take calls of the sequence in order, and each is stamped by its own. -/
theorem emitAll_after
    {columns : List Aligned}
    {hasKey : Bool}
    (n : Nat)
    (emissions : List Emission) :
    ∃ m,
      n ≤ m ∧
      (emitAll settings clock change table columns hasKey (Stamps.after clock n) emissions).2 =
        Stamps.after clock m ∧
      ∀ pairs,
        (emitAll settings clock change table columns hasKey (Stamps.after clock n) emissions).1 =
          .ok pairs →
        StampedBetween settings clock n m pairs := by
  induction emissions generalizing n with
  | nil =>
      refine ⟨n, Nat.le_refl n, rfl, fun pairs h => ?_⟩
      cases h
      exact stampedBetween_nil
  | cons emission rest ih =>
      have hcons :=
        @emittedCons_emitAll settings clock change table columns hasKey (Stamps.after clock n)
          emission rest
      generalize emitAll settings clock change table columns hasKey (Stamps.after clock n)
        (emission :: rest) = made at *
      cases hcons with
      | unstamped hnext =>
          obtain ⟨-, rfl⟩ := Prod.mk.inj ((Stamps.next_after clock n).symm.trans hnext)
          exact ⟨n + 1, Nat.le_succ n, rfl, fun pairs h => by contradiction⟩
      | failed hnext _ =>
          obtain ⟨-, rfl⟩ := Prod.mk.inj ((Stamps.next_after clock n).symm.trans hnext)
          exact ⟨n + 1, Nat.le_succ n, rfl, fun pairs h => by contradiction⟩
      | built hnext hpair =>
          obtain ⟨hgiven, rfl⟩ := Prod.mk.inj ((Stamps.next_after clock n).symm.trans hnext)
          obtain ⟨m, hle, hstamps, hrest⟩ := ih (n + 1)
          refine ⟨m, by omega, hstamps, fun pairs h => ?_⟩
          obtain ⟨others, hothers, rfl⟩ := (map_eq_ok_iff _ _ _).1 h
          have hfirst := stampedBetween_singleton (stampedAt_of_pair hgiven hpair)
          exact hfirst.append (Nat.le_succ n) hle (hrest others hothers)

theorem assemble_after
    (hasKey : Bool)
    (n : Nat) :
    ∃ m,
      n ≤ m ∧
      (assemble settings clock (Stamps.after clock n) change table hasKey).2 =
        Stamps.after clock m ∧
      ∀ pairs,
        (assemble settings clock (Stamps.after clock n) change table hasKey).1 = .ok pairs →
        StampedBetween settings clock n m pairs := by
  have hassembled :=
    assembled_assemble settings clock (Stamps.after clock n) change table hasKey
  generalize assemble settings clock (Stamps.after clock n) change table hasKey = made at *
  cases hassembled with
  | misaligned => exact ⟨n, Nat.le_refl n, rfl, fun pairs h => by contradiction⟩
  | fatal => exact ⟨n, Nat.le_refl n, rfl, fun pairs h => by contradiction⟩
  | emitted => exact emitAll_after n _

/-- A change is formatted as no more pairs than a container holds. -/
theorem length_le_of_format
    {state : Formatter}
    {pairs : List Emitted}
    (h : (format settings clock state change table).result = .ok pairs) :
    pairs.length ≤ 2 := by
  obtain ⟨build, columns, -, -, -, hemit⟩ := format_eq_ok h
  rw [emitAll_length _ _ _ _ _ _ _ _ _ hemit]
  cases Plan.ofKind change.kind settings.keyUpdates <;> simp [Plan.emissions]

/-- A message takes calls of the sequence in order, and what it emits is stamped by them. -/
theorem respond_after
    {state : Formatter}
    {n : Nat}
    (message : Message)
    (h : state.stamps = Stamps.after clock n) :
    ∃ m,
      n ≤ m ∧
      (respond settings clock state message).2.stamps = Stamps.after clock m ∧
      ∀ pairs,
        (respond settings clock state message).1 = .ok pairs →
        StampedBetween settings clock n m pairs := by
  cases message with
  | notice notice =>
      simp only [respond]
      cases (state.notice notice).result with
      | error fault => exact ⟨n, Nat.le_refl n, h, fun pairs h => by contradiction⟩
      | ok done =>
          refine ⟨n, Nat.le_refl n, h, fun pairs h => ?_⟩
          cases h
          exact stampedBetween_nil
  | change change table =>
      simp only [respond]
      cases hrequest : (state.cache.request table.name table).result with
      | error fault =>
          obtain ⟨hresult, hstate⟩ := format_of_request_error settings clock change hrequest
          rw [hresult, hstate]
          exact ⟨n, Nat.le_refl n, h, fun pairs h => by contradiction⟩
      | ok build =>
          obtain ⟨hresult, hstate⟩ := format_of_request_ok settings clock change hrequest
          rw [hresult, hstate, h]
          exact assemble_after build.schemas.hasKey n

end After

end Formatter

namespace Session

/-- The pairs that a responder makes of messages, one message after the other. -/
def pairs
    {σ : Type}
    (respond : Responder σ)
    (state : σ) : List Message → List Emitted
  | [] => []
  | message :: rest =>
      (respond state message).1.toOption.getD [] ++ pairs respond (respond state message).2 rest

theorem stampedBetween_pairs
    {settings : Settings}
    {clock : Clock}
    {state : Formatter}
    {n : Nat}
    (messages : List Message)
    (h : state.stamps = Stamps.after clock n) :
    ∃ m, n ≤ m ∧
      StampedBetween settings clock n m
        (pairs (Formatter.respond settings clock) state messages) := by
  induction messages generalizing state n with
  | nil => exact ⟨n, Nat.le_refl n, stampedBetween_nil⟩
  | cons message rest ih =>
      obtain ⟨m, hnm, hstamps, hfirst⟩ := Formatter.respond_after message h
      obtain ⟨l, hml, hrest⟩ := ih hstamps
      refine ⟨l, by omega, ?_⟩
      rw [pairs]
      cases hresult : (Formatter.respond settings clock state message).1 with
      | ok pairs => exact (hfirst pairs hresult).append hnm hml hrest
      | error failure => exact stampedBetween_nil.append hnm hml hrest

end Session

/-- The pairs that a call has put into its container, none if it failed. -/
def Answer.emitted (answer : Answer) : Call → List Emitted
  | .format _ _ into =>
      match answer.failure? with
      | none => (answer.containers into).toList
      | some _ => []
  | .notify _ => []

namespace Session

/-- The pairs that calls have put into their containers, call by call. -/
def emitted (calls : List Call) (answers : List Answer) : List Emitted :=
  (List.zipWith (fun call answer => answer.emitted call) calls answers).flatten

/-- What one call leaves in its container is what the formatter responds. -/
theorem emitted_answer
    (settings : Settings)
    (clock : Clock)
    (state : Formatter)
    (containers : String → Container)
    (call : Call) :
    (answer containers call (Formatter.respond settings clock state call.message).1).emitted call =
      (Formatter.respond settings clock state call.message).1.toOption.getD [] := by
  cases call with
  | notify notice =>
      simp only [Answer.emitted, Call.message, Formatter.respond]
      cases (state.notice notice).result <;> rfl
  | format change table into =>
      simp only [Answer.emitted, answer, Call.message, Formatter.respond]
      cases hresult : (state.format settings clock change table).result with
      | error failure => rfl
      | ok pairs =>
          have hlength := Formatter.length_le_of_format hresult
          simp [failureOf?, Call.fill, Container.toList_ofList pairs hlength, Except.toOption]

/-- What a session leaves in its containers, call by call, is what the formatter responds. -/
theorem emitted_answers
    (settings : Settings)
    (clock : Clock)
    (state : Formatter)
    (containers : String → Container)
    (calls : List Call) :
    emitted calls (answers (Formatter.respond settings clock) state containers calls) =
      pairs (Formatter.respond settings clock) state (calls.map Call.message) := by
  induction calls generalizing state containers with
  | nil => rfl
  | cons call rest ih =>
      have hfirst := emitted_answer settings clock state containers call
      have hrest :=
        ih (Formatter.respond settings clock state call.message).2
          (answer containers call
            (Formatter.respond settings clock state call.message).1).containers
      rw [emitted] at hrest ⊢
      simp only [answers, List.zipWith_cons_cons, List.flatten_cons, List.map_cons, pairs, hfirst,
        hrest]

end Session

namespace Feed

/-- A feed emits what the formatter responds to its messages, up to the line that ends it. -/
theorem emitted_prefix
    (settings : Settings)
    (clock : Clock)
    (progress : Progress)
    (lines : List (List Char)) :
    emitted settings clock progress lines <+:
      Session.pairs (Formatter.respond settings clock) progress.state (messagesOf lines) := by
  induction lines generalizing progress with
  | nil => exact List.prefix_rfl
  | cons line rest ih =>
      simp only [emitted, messagesOf, List.filterMap_cons]
      cases hblank : isBlankLine line with
      | true =>
          simp only [step, hblank, if_true, List.nil_append]
          exact ih { progress with line := progress.line + 1 }
      | false =>
          simp only [Bool.false_eq_true, if_false, pairsOf, step, hblank, handleLine]
          cases hmessage : messageOf line with
          | error stop => exact List.nil_prefix
          | ok message =>
              cases message with
              | notice notice =>
                  simp only [handle, Except.toOption, Session.pairs, Formatter.respond]
                  cases hresult : (progress.state.notice notice).result with
                  | error fault => exact List.nil_prefix
                  | ok done =>
                      exact ih ⟨(progress.state.notice notice).state, progress.line + 1,
                        progress.operations + 1⟩
              | change change table =>
                  simp only [handle, Except.toOption, Session.pairs, Formatter.respond]
                  cases hresult : (progress.state.format settings clock change table).result with
                  | error failure => exact List.nil_prefix
                  | ok pairs =>
                      cases hfault : (Emitted.lines pairs).2 with
                      | some fault =>
                          simp only [hfault, Option.map_some, Option.getD_some]
                          exact List.prefix_append _ _
                      | none =>
                          simp only [hfault, Option.map_none, Option.getD_some]
                          exact (List.prefix_append_right_inj _).2
                            (ih ⟨(progress.state.format settings clock change table).state,
                              progress.line + 1, progress.operations + 1⟩)

end Feed

/-- The stamp that a line shows: the member `current_ts` of the object under `value`. -/
def Json.stampShown? : Json → Option String
  | .object members =>
      match find? members "value" with
      | some (.object entries) =>
          match find? entries "current_ts" with
          | some (.text (.whole stamp)) => some stamp
          | _ => none
      | _ => none
  | _ => none

namespace Emitted

theorem written_sublist (pairs : List Emitted) :
    (written pairs).Sublist pairs :=
  List.takeWhile_sublist _

/-- A line is the written form of a value that shows the stamp of its record. -/
theorem exists_stampShown_of_line
    {pair : Emitted}
    {text : String}
    (h : pair.line = .ok text) :
    ∃ v : Json, text = String.ofList v.write ∧ v.stampShown? = some pair.stamp := by
  unfold line at h
  split at h
  · obtain ⟨v, hv, htext⟩ := (bind_eq_ok_iff _ _ _).1 h
    obtain ⟨key, -, hv⟩ := (bind_eq_ok_iff _ _ _).1 hv
    obtain ⟨value, hvalue, hv⟩ := (bind_eq_ok_iff _ _ _).1 hv
    obtain ⟨before, -, hvalue⟩ := (bind_eq_ok_iff _ _ _).1 hvalue
    obtain ⟨after, -, hvalue⟩ := (bind_eq_ok_iff _ _ _).1 hvalue
    cases hvalue
    cases hv
    cases htext
    exact ⟨_, rfl, rfl⟩
  · contradiction

/-- The lines of pairs show their stamps, up to the first pair that has no line. -/
theorem exists_stampShown_of_lines (pairs : List Emitted) :
    ∃ shown : List Json,
      (lines pairs).1 = unlines (shown.map fun v => String.ofList v.write) ∧
      shown.map Json.stampShown? = (written pairs).map fun pair => some pair.stamp := by
  induction pairs with
  | nil => exact ⟨[], rfl, rfl⟩
  | cons pair rest ih =>
      cases hline : pair.line with
      | error fault =>
          refine ⟨[], ?_, ?_⟩
          · simp [lines, hline, unlines]
          · simp [written, hline, Except.isOk, Except.toBool]
      | ok text =>
          obtain ⟨v, rfl, hv⟩ := exists_stampShown_of_line hline
          obtain ⟨shown, hlines, hshown⟩ := ih
          refine ⟨v :: shown, ?_, ?_⟩
          · simp [lines, hline, unlines, hlines]
          · simp only [written] at hshown
            simp [written, hline, Except.isOk, Except.toBool, hv, hshown]

end Emitted

/--
If the clock starts with a year of four digits, the stamps of all that is left in
containers in a session, call by call, are texts of 26 characters that increase,
and so are the stamps that the lines of a feed show. Whatever the clock, a sequence
of stamps has no text twice, in either format.
-/
theorem stamps_increase
    (settings : Settings)
    (clock : Clock) :
      (1000 ≤ (clock 0).fields.year →
      (∀ (containers : String → Container) (calls : List Call),
        IncreasingStamps
          ((Session.emitted calls
            (Session.answers (Formatter.respond settings clock) (.start settings) containers
              calls)).map
              Emitted.stamp))
        ∧
      ∀ (warnings : List PolicyWarning) (text : String),
        ∃ (shown : List Json) (stamps : List String),
          (Feed.run settings warnings clock text).output =
            Emitted.unlines (shown.map fun v => String.ofList v.write) ∧
          shown.map Json.stampShown? = stamps.map some ∧
          IncreasingStamps stamps)
      ∧
    ∀ (iso : Nat → Bool) (m n : Nat) (stamp other : Instant),
      m ≠ n →
      Stamps.given clock m = some stamp →
      Stamps.given clock n = some other →
      stamp.render (iso m) ≠ other.render (iso n) := by
  have hall :
      ∀ messages,
        ∃ m, 0 ≤ m ∧ StampedBetween settings clock 0 m
          (Session.pairs (Formatter.respond settings clock) (.start settings) messages) :=
    fun messages => Session.stampedBetween_pairs messages rfl
  refine ⟨fun hyear => ⟨?_, ?_⟩, ?_⟩
  · intro containers calls
    rw [Session.emitted_answers]
    obtain ⟨m, -, hstamped⟩ := hall (calls.map Call.message)
    exact hstamped.increasing hyear
  · intro warnings text
    obtain ⟨m, -, hstamped⟩ := hall (Feed.messagesOf (Feed.splitLines text.toList))
    have hemitted :=
      (Feed.emitted_prefix settings clock { state := .start settings }
        (Feed.splitLines text.toList)).sublist
    have houtput :=
      Feed.output_runLines settings clock { state := .start settings }
        (Feed.splitLines text.toList)
    generalize
      Feed.emitted settings clock { state := .start settings } (Feed.splitLines text.toList) =
        pairs at *
    obtain ⟨shown, hlines, hshown⟩ := Emitted.exists_stampShown_of_lines pairs
    refine ⟨shown, (Emitted.written pairs).map Emitted.stamp, houtput.trans hlines, ?_, ?_⟩
    · rw [hshown, List.map_map]
      rfl
    · have hwritten := (Emitted.written_sublist pairs).trans hemitted
      exact (hstamped.increasing hyear).sublist (hwritten.map Emitted.stamp)
  · intro iso m n stamp other hne hstamp hother htext
    have hsame := Instant.eq_of_render_eq htext
    have hearlier :
        ∀ {k l : Nat} {i j : Instant},
          k < l → Stamps.given clock k = some i → Stamps.given clock l = some j → i ≠ j := by
      rintro k l i j hlt hi hj rfl
      obtain ⟨first, hfirst, hbefore⟩ := Stamps.exists_given_of_lt hlt hj
      cases hi.symm.trans hfirst
      rw [Instant.isBefore_iff] at hbefore
      omega
    rcases Nat.lt_or_gt_of_ne hne with hlt | hgt
    · exact hearlier hlt hstamp hother hsame
    · exact hearlier hgt hother hstamp hsame.symm

namespace Item

/-- An item is renumbered, another cannot be read, and an item arrives. -/
def interrupted : List Call :=
  [.format renumbered table "out", .format misread priced "out", .format arrived priced "out"]

/-- A clock that shows the last microsecond of year 999. -/
def turningClock : Clock :=
  fun _ => ⟨⟨999, 12, 31, 23, 59, 59, 999999⟩, by decide⟩

end Item

/-- Three records are left by calls one of which fails, and year 1000 has texts of its own. -/
theorem stamps_increase_interrupted :
    1000 ≤ (Item.clock 0).fields.year ∧
      (Session.emitted Item.interrupted
        (Session.answers (Formatter.respond { keyUpdates := .deleteInsert } Item.clock) {}
          (fun _ => {}) Item.interrupted)).length = 3 ∧
      IncreasingStamps
        ((Session.emitted Item.interrupted
          (Session.answers (Formatter.respond { keyUpdates := .deleteInsert } Item.clock) {}
            (fun _ => {}) Item.interrupted)).map Emitted.stamp) ∧
      ∃ stamp other,
        Stamps.given Item.turningClock 0 = some stamp ∧
        Stamps.given Item.turningClock 1 = some other ∧
        stamp.render true ≠ other.render false := by
  have hyear : 1000 ≤ (Item.clock 0).fields.year := by decide
  obtain ⟨stamp, hstamp⟩ : ∃ stamp, Stamps.given Item.turningClock 0 = some stamp := ⟨_, rfl⟩
  obtain ⟨other, hother⟩ : ∃ other, Stamps.given Item.turningClock 1 = some other := ⟨_, rfl⟩
  refine ⟨hyear, by decide +kernel, ((stamps_increase _ _).1 hyear).1 _ _, stamp, other, hstamp,
    hother, ?_⟩
  exact (stamps_increase {} _).2 (fun n => n == 0) 0 1 stamp other (by decide) hstamp hother

end ChangeFeed
