import ChangeFeed.Proofs.Session.Taking

/-!
# The course of a change

How far the formatting of a change gets. It may not get to its emissions at all; if it
does, they are started one after the other, each with a stamp, up to the first that has
a text without a place. As long as there are stamps, how far it gets is settled by the
cache, the change and the table, and it settles what comes of the change and which
stamps are taken.

**Results.**

* `last_later`, `length_upcoming`: the stamps that are taken, and the one remembered.
* `building_emitAll`: the emissions that are started, and the stamps that they take.
* `Building.ending_eq`: what ends the emissions is the first text without a place.
* `course_format`: every change takes its course.
-/

namespace ChangeFeed

open Session (failureOf?)

namespace Stamps

section Upcoming

variable {clock : Clock}

/-- The stamps that the next `n` calls give, as far as they give any. -/
def upcoming (clock : Clock) (stamps : Stamps) : Nat → List Instant
  | 0 => []
  | n + 1 => (stamps.next clock).1.toList ++ upcoming clock (stamps.next clock).2 n

theorem length_upcoming
    {stamps : Stamps}
    {n : Nat}
    (h : stamps.Gives clock n) :
    (stamps.upcoming clock n).length = n := by
  induction n generalizing stamps with
  | zero => rfl
  | succ n ih =>
      obtain ⟨⟨stamp, hstamp⟩, hrest⟩ := h
      rw [upcoming, hstamp, Option.toList_some, List.singleton_append, List.length_cons, ih hrest]

theorem reads_later
    (stamps : Stamps)
    (n : Nat) :
    (stamps.later clock n).reads = stamps.reads + n := by
  induction n generalizing stamps with
  | zero => rfl
  | succ n ih => rw [later, ih, reads_next, Nat.add_assoc, Nat.add_comm 1]

/-- What is remembered after a call: the stamp given, or what was remembered before. -/
theorem last_next (stamps : Stamps) :
    (stamps.next clock).2.last = (stamps.next clock).1.or stamps.last := by
  unfold next
  split <;> rfl

/-- What is remembered is the last stamp that was given. -/
theorem last_later
    (stamps : Stamps)
    (n : Nat) :
    (stamps.later clock n).last = (stamps.upcoming clock n).getLast?.or stamps.last := by
  induction n generalizing stamps with
  | zero => rfl
  | succ n ih =>
      rw [later, ih, last_next, upcoming, List.getLast?_append, Option.or_assoc]
      cases (stamps.next clock).1 <;> rfl

end Upcoming

end Stamps

theorem Session.failureOf?_eq_some_iff
    {result : Except Failure (List Emitted)}
    {failure : Failure} :
    failureOf? result = some failure ↔ result = .error failure := by
  cases result <;> simp [failureOf?]

namespace Formatter

/--
The emissions of a plan that are started, and the failure that ends them if one does:
that of the first text without a place.
-/
inductive Building
    (asText : Bool)
    (columns : List Aligned) :
    List Emission → List Emission → Option Failure → Prop
  | finished :
      Building asText columns [] [] none
  | stopped
      {emission : Emission}
      {failure : Failure}
      (rest : List Emission)
      (hfailure :
        (select columns emission.side false).findSome? (Block.failure? asText) = some failure) :
      Building asText columns (emission :: rest) [emission] (some failure)
  | built
      {emission : Emission}
      {rest started : List Emission}
      {ending : Option Failure}
      (hplaced : ∀ field ∈ select columns emission.side false, Block.Placed asText field)
      (hrest : Building asText columns rest started ending) :
      Building asText columns (emission :: rest) (emission :: started) ending

/--
The emissions of a change that are started, and the failure that it ends in if it does.
-/
inductive Course
    (settings : Settings)
    (cache : Schema.Cache)
    (change : Change)
    (table : Table) :
    List Emission → Option Failure → Prop
  -- There are no schemas for the table, and none can be built.
  | unprovided
      {fault : Fault}
      (hrefusal : cache.refusal? table.name table = some fault) :
      Course settings cache change table [] (some (.fault fault))
  -- The change has another number of columns than the table.
  | misaligned
      (hprovided : cache.Provides table.name table)
      (hlength : change.columns.length ≠ table.columns.length) :
      Course settings cache change table []
        (some (.misaligned table.name change.columns.length table.columns.length))
  -- The plan emits nothing.
  | fatal
      {reason : String}
      (hprovided : cache.Provides table.name table)
      (hlength : change.columns.length = table.columns.length)
      (hplan : Plan.ofKind change.kind settings.keyUpdates = .fatal reason) :
      Course settings cache change table [] (some (.fatal reason table.name change.kind))
  -- Emissions are started in the order of the plan.
  | emitted
      {started : List Emission}
      {ending : Option Failure}
      (hprovided : cache.Provides table.name table)
      (hlength : change.columns.length = table.columns.length)
      (hemits : (Plan.ofKind change.kind settings.keyUpdates).emissions ≠ [])
      (hbuilding :
        Building settings.asText (List.zipWith Aligned.mk table.columns change.columns)
          (Plan.ofKind change.kind settings.keyUpdates).emissions started ending) :
      Course settings cache change table started ending

section Building

variable {settings : Settings}
variable {clock : Clock}
variable {change : Change}
variable {table : Table}
variable {columns : List Aligned}
variable {hasKey : Bool}
variable {name : Text}

/-- What ends emissions is the first of their texts without a place, if there is one. -/
theorem Building.ending_eq
    {asText : Bool}
    {emissions started : List Emission}
    {ending : Option Failure}
    (h : Building asText columns emissions started ending) :
    ending = (textsOf columns emissions).findSome? (Block.failure? asText) := by
  induction h with
  | finished => rfl
  | stopped rest hfailure =>
      rw [textsOf_cons, List.findSome?_append, hfailure, Option.some_or]
  | built hplaced _ ih =>
      rw [textsOf_cons, List.findSome?_append, (Block.findSome?_eq_none_iff _ _).2 hplaced,
        Option.none_or, ih]

/-- As long as there are stamps, one is taken for each emission that is started. -/
theorem building_emitAll
    (hname : table.name = .text name)
    {stamps : Stamps}
    {emissions : List Emission}
    (hgives : stamps.Gives clock emissions.length) :
    ∃ started,
      Building settings.asText columns emissions started
        (failureOf? (emitAll settings clock change table columns hasKey stamps emissions).1) ∧
      (emitAll settings clock change table columns hasKey stamps emissions).2 =
        stamps.later clock started.length := by
  induction emissions generalizing stamps with
  | nil => exact ⟨[], .finished, rfl⟩
  | cons emission rest ih =>
      -- The stamp is taken first, so the emission counts whether it can be built or not.
      obtain ⟨⟨stamp, hstamp⟩, hrest⟩ := hgives
      have hnext : stamps.next clock = (some stamp, (stamps.next clock).2) := Prod.ext hstamp rfl
      cases hpair : pair settings stamp change table columns hasKey emission with
      | error failure =>
          rw [emitAll_cons_of_error rest hnext hpair]
          exact ⟨[emission], .stopped rest ((pair_eq_error_iff hname failure).1 hpair), rfl⟩
      | ok built =>
          rw [emitAll_cons_of_ok rest hnext hpair]
          obtain ⟨started, hbuilding, hstamps⟩ := ih hrest
          refine ⟨emission :: started, .built (placed_of_pair_ok hpair) ?_, hstamps⟩
          cases hall :
              (emitAll settings clock change table columns hasKey (stamps.next clock).2 rest).1 <;>
            rwa [hall] at hbuilding

/-- The records of emissions are stamped with the stamps taken for them. -/
theorem stamps_emitAll
    {stamps : Stamps}
    {emissions : List Emission}
    {pairs : List Emitted}
    (h :
      (emitAll settings clock change table columns hasKey stamps emissions).1 = .ok pairs) :
    pairs.map (fun built => built.record.stamp) =
      (stamps.upcoming clock emissions.length).map fun stamp =>
        stamp.render settings.isoStamps := by
  induction emissions generalizing stamps pairs with
  | nil =>
      cases h
      rfl
  | cons emission rest ih =>
      have hcons :=
        @emittedCons_emitAll settings clock change table columns hasKey stamps emission rest
      generalize emitAll settings clock change table columns hasKey stamps (emission :: rest) =
        made at *
      cases hcons with
      | unstamped => contradiction
      | failed => contradiction
      | built hnext hpair =>
          obtain ⟨others, hothers, rfl⟩ := (map_eq_ok_iff _ _ _).1 h
          obtain ⟨_, _, -, -, hrecord, -⟩ := pair_eq_ok hpair
          rw [List.length_cons, Stamps.upcoming, hnext, Option.toList_some,
            List.singleton_append, List.map_cons, List.map_cons, ih hothers, hrecord]

/-- The emissions that are started are the first of those that were to be built. -/
theorem Building.isPrefix_started
    {asText : Bool}
    {emissions started : List Emission}
    {ending : Option Failure}
    (h : Building asText columns emissions started ending) :
    started <+: emissions := by
  induction h with
  | finished => exact List.nil_prefix
  | @stopped emission failure rest _ => exact ⟨rest, rfl⟩
  | built _ _ ih => exact List.cons_prefix_cons.2 ⟨rfl, ih⟩

/-- Emissions that are all built are all started. -/
theorem Building.started_eq
    {asText : Bool}
    {emissions started : List Emission}
    (h : Building asText columns emissions started none) :
    started = emissions := by
  generalize hending : (none : Option Failure) = ending at h
  induction h with
  | finished => rfl
  | stopped => contradiction
  | built _ _ ih => rw [ih hending]

end Building

section Format

variable {settings : Settings}
variable {clock : Clock}
variable {state : Formatter}
variable {cache : Schema.Cache}
variable {change : Change}
variable {table : Table}
variable {name : Text}

theorem Course.isPrefix_started
    {started : List Emission}
    {ending : Option Failure}
    (h : Course settings cache change table started ending) :
    started <+: (Plan.ofKind change.kind settings.keyUpdates).emissions := by
  cases h with
  | unprovided => exact List.nil_prefix
  | misaligned => exact List.nil_prefix
  | fatal => exact List.nil_prefix
  | emitted _ _ _ hbuilding => exact hbuilding.isPrefix_started

/-- A change that is formatted has all its emissions started. -/
theorem Course.started_eq
    {started : List Emission}
    (h : Course settings cache change table started none) :
    started = (Plan.ofKind change.kind settings.keyUpdates).emissions := by
  cases h with
  | emitted _ _ _ hbuilding => exact hbuilding.started_eq

/-- While there are stamps, a change takes its course, and a stamp for each emission started. -/
theorem course_format
    (hname : table.name = .text name)
    (hgives :
      state.stamps.Gives clock (Plan.ofKind change.kind settings.keyUpdates).emissions.length) :
    ∃ started,
      Course settings state.cache change table started
        (failureOf? (format settings clock state change table).result) ∧
      (format settings clock state change table).state =
        ⟨(state.cache.request table.name table).cache,
          state.stamps.later clock started.length⟩ := by
  cases hrequest : (state.cache.request table.name table).result with
  | error fault =>
      obtain ⟨hresult, hstate⟩ := format_of_request_error settings clock change hrequest
      rw [hresult, hstate, Schema.Cache.cache_request_of_error hrequest]
      exact ⟨[], .unprovided (Schema.Cache.request_eq_error_iff.1 hrequest), rfl⟩
  | ok build =>
      have hprovided : state.cache.Provides table.name table :=
        Schema.Cache.exists_request_eq_ok_iff.1 ⟨build, hrequest⟩
      obtain ⟨hresult, hstate⟩ := format_of_request_ok settings clock change hrequest
      rw [hresult, hstate]
      have hassembled :=
        assembled_assemble settings clock state.stamps change table build.schemas.hasKey
      generalize assemble settings clock state.stamps change table build.schemas.hasKey = made at *
      cases hassembled with
      | misaligned halign =>
          obtain ⟨hlength, rfl⟩ := align_eq_error_iff.1 halign
          exact ⟨[], .misaligned hprovided hlength, rfl⟩
      | fatal halign hplan =>
          exact ⟨[], .fatal hprovided (align_eq_ok_iff.1 halign).1 hplan, rfl⟩
      | emitted halign hemits =>
          obtain ⟨hlength, rfl⟩ := align_eq_ok_iff.1 halign
          obtain ⟨started, hbuilding, hstamps⟩ := building_emitAll hname hgives
          rw [hstamps]
          exact ⟨started, .emitted hprovided hlength hemits hbuilding, rfl⟩

end Format

end Formatter
end ChangeFeed
