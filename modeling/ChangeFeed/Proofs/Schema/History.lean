import ChangeFeed.Proofs.Schema.Request
import Mathlib.Data.List.Chain
import Mathlib.Data.List.Induction

/-!
# Histories of a schema provider

A provider of schemas is asked for them, told to drop them, and asked whether it
keeps them, for any names in any order. What it keeps under a name is settled by
the queries for that name since it was last dropped: the first of these requests
that succeeded built it. The events of a name say the same: schemas are built and
dropped in turn. None of this depends on what builds the schemas.

**Results.**

* `eq_append_cons_snoc_iff`: what one more element does to a place in a history.
* `answered_ask`: what a query can come to.
* `lookup?_ask_of_ne`, `turns_ask`: what a query changes and reports, name by name.
* `tells_history`: what is kept under a name, from the history.
* `turns_log`: the events of a name, over the history.
* `lawful_history`: the laws of a provider.
-/

namespace ChangeFeed

/--
In a list with one more element at the end, what stands before others that are all
as is said is that element, or it did so before and the new element is as is said.
-/
theorem eq_append_cons_snoc_iff
    {α : Type}
    {P : α → Prop}
    {xs before : List α}
    {x last : α} :
    (∃ later, xs ++ [last] = before ++ x :: later ∧ ∀ y ∈ later, P y)
      ↔
    (last = x ∧ before = xs) ∨
      ((∃ later, xs = before ++ x :: later ∧ ∀ y ∈ later, P y) ∧ P last) := by
  constructor
  · rintro ⟨later, heq, hlater⟩
    cases later using List.reverseRecOn with
    | nil =>
        obtain ⟨rfl, hlast⟩ := List.append_inj' heq rfl
        exact Or.inl ⟨List.singleton_inj.1 hlast, rfl⟩
    | append_singleton later other _ =>
        rw [← List.cons_append, ← List.append_assoc] at heq
        obtain ⟨rfl, hlast⟩ := List.append_inj' heq rfl
        cases List.singleton_inj.1 hlast
        rw [List.forall_mem_append, List.forall_mem_singleton] at hlater
        exact Or.inr ⟨⟨later, rfl, hlater.1⟩, hlater.2⟩
  · rintro (⟨rfl, rfl⟩ | ⟨⟨later, rfl, hlater⟩, hlast⟩)
    · exact ⟨[], rfl, by simp⟩
    · refine ⟨later ++ [last], by simp, ?_⟩
      rw [List.forall_mem_append, List.forall_mem_singleton]
      exact ⟨hlater, hlast⟩

namespace Event

/-- What an event does to the schemas of a name: true where they are built, false where dropped. -/
def turn? (name : Text) : Event → Option Bool
  | .schemaBuilt (.text built) _ => if built = name then some true else none
  | .schemaDropped (.text dropped) => if dropped = name then some false else none
  | _ => none

/-- What events do to the schemas of a name, one after the other. -/
def turns (name : Text) (events : List Event) : List Bool :=
  events.filterMap (turn? name)

/-- Whether an event reports that schemas were built. -/
def isBuild : Event → Bool
  | .schemaBuilt .. => true
  | _ => false

end Event

namespace Schema

/-- What a provider of schemas can be asked. -/
inductive Query where
  | request (name : Text) (table : Table)
  | drop (name : Text)
  | contains (name : Text)

/-- The name that a query is about. -/
def Query.name : Query → Text
  | .request name _ => name
  | .drop name => name
  | .contains name => name

/-- The answer to a query that does not fail. -/
inductive Reply where
  | build (build : Build)
  | dropped
  | kept (kept : Bool)

namespace Cache

/-- Answers a query. -/
def ask
    (builder : Builder)
    (cache : Cache) : Query → Step Reply
  | .request name table =>
      let step := cache.requestWith builder (.text name) table
      ⟨step.result.map .build, step.cache, step.events⟩
  | .drop name =>
      let step := cache.drop (.text name)
      ⟨step.result.map fun _ => .dropped, step.cache, step.events⟩
  | .contains name => ⟨(cache.contains (.text name)).map .kept, cache, []⟩

/-- Whether schemas are kept under a text. -/
def keeps (cache : Cache) (name : Text) : Bool :=
  (cache.lookup? (.text name)).isSome

section Ask

variable {builder : Builder}
variable {cache : Cache}
variable {name : Text}
variable {table : Table}

/-- What is kept is returned, whatever table is described, and nothing is built. -/
theorem ask_request_of_kept
    {build : Build}
    (h : cache.lookup? (.text name) = some build)
    (table : Table) :
    cache.ask builder (.request name table) = ⟨.ok (.build build), cache, []⟩ := by
  simp [ask, requestWith, h, Except.map]

/-- What is not kept is built from the table that is described, kept and reported. -/
theorem ask_request_of_built
    {schemas : Schemas}
    (h : cache.lookup? (.text name) = none)
    (htable : builder cache.asText table = .ok schemas) :
    cache.ask builder (.request name table) =
      ⟨.ok (.build ⟨cache.builds, schemas⟩), cache.insert (.text name) schemas,
        [.schemaBuilt (.text name) schemas.hasKey]⟩ := by
  simp [ask, requestWith, h, htable, Except.map]

theorem ask_request_of_unbuildable
    {fault : Fault}
    (h : cache.lookup? (.text name) = none)
    (htable : builder cache.asText table = .error fault) :
    cache.ask builder (.request name table) = ⟨.error fault, cache, []⟩ := by
  simp [ask, requestWith, h, htable, Except.map]

theorem ask_drop_of_absent
    (builder : Builder)
    (h : cache.lookup? (.text name) = none) :
    cache.ask builder (.drop name) = ⟨.ok .dropped, cache, []⟩ := by
  simp only [ask, drop]
  split
  · rfl
  · simp [h, Except.map]

theorem ask_drop_of_kept
    (builder : Builder)
    {build : Build}
    (h : cache.lookup? (.text name) = some build) :
    cache.ask builder (.drop name) =
      ⟨.ok .dropped, cache.remove (.text name), [.schemaDropped (.text name)]⟩ := by
  have hentries : cache.entries.isEmpty = false := by
    cases hentries : cache.entries with
    | nil => simp [lookup?, hentries] at h
    | cons entry rest => rfl
  simp [ask, drop, hentries, h, Except.map]

theorem ask_contains
    (builder : Builder)
    (cache : Cache)
    (name : Text) :
    cache.ask builder (.contains name) = ⟨.ok (.kept (cache.keeps name)), cache, []⟩ := rfl

/-- What a query can come to. -/
inductive Answered
    (builder : Builder)
    (cache : Cache) :
    Query → Step Reply → Prop
  | kept
      {name : Text}
      {table : Table}
      {build : Build}
      (hkept : cache.lookup? (.text name) = some build) :
      Answered builder cache (.request name table) ⟨.ok (.build build), cache, []⟩
  | built
      {name : Text}
      {table : Table}
      {schemas : Schemas}
      (habsent : cache.lookup? (.text name) = none)
      (htable : builder cache.asText table = .ok schemas) :
      Answered builder cache (.request name table)
        ⟨.ok (.build ⟨cache.builds, schemas⟩), cache.insert (.text name) schemas,
          [.schemaBuilt (.text name) schemas.hasKey]⟩
  | unbuildable
      {name : Text}
      {table : Table}
      {fault : Fault}
      (habsent : cache.lookup? (.text name) = none)
      (htable : builder cache.asText table = .error fault) :
      Answered builder cache (.request name table) ⟨.error fault, cache, []⟩
  | dropped
      {name : Text}
      {build : Build}
      (hkept : cache.lookup? (.text name) = some build) :
      Answered builder cache (.drop name)
        ⟨.ok .dropped, cache.remove (.text name), [.schemaDropped (.text name)]⟩
  | absent
      {name : Text}
      (habsent : cache.lookup? (.text name) = none) :
      Answered builder cache (.drop name) ⟨.ok .dropped, cache, []⟩
  | told
      {name : Text} :
      Answered builder cache (.contains name) ⟨.ok (.kept (cache.keeps name)), cache, []⟩

theorem answered_ask
    (builder : Builder)
    (cache : Cache)
    (query : Query) :
    Answered builder cache query (cache.ask builder query) := by
  cases query with
  | request name table =>
      cases hname : cache.lookup? (.text name) with
      | some build =>
          rw [ask_request_of_kept hname]
          exact .kept hname
      | none =>
          cases htable : builder cache.asText table with
          | error fault =>
              rw [ask_request_of_unbuildable hname htable]
              exact .unbuildable hname htable
          | ok schemas =>
              rw [ask_request_of_built hname htable]
              exact .built hname htable
  | drop name =>
      cases hname : cache.lookup? (.text name) with
      | none =>
          rw [ask_drop_of_absent builder hname]
          exact .absent hname
      | some build =>
          rw [ask_drop_of_kept builder hname]
          exact .dropped hname
  | contains name => exact .told

/-- A query leaves what is kept under any other name. -/
theorem lookup?_ask_of_ne
    {query : Query}
    (builder : Builder)
    (cache : Cache)
    (h : query.name ≠ name) :
    (cache.ask builder query).cache.lookup? (.text name) = cache.lookup? (.text name) := by
  have hne : Identity.text name ≠ .text query.name :=
    fun heq => h (Identity.text.inj heq).symm
  have hanswered := answered_ask builder cache query
  generalize cache.ask builder query = step at *
  cases hanswered with
  | built => exact lookup_insert_of_ne cache _ _ _ hne
  | dropped => exact lookup_remove_of_ne cache _ _ hne
  | kept => rfl
  | unbuildable => rfl
  | absent => rfl
  | told => rfl

/-- A query turns what is kept under a name at most once, and reports it just if it does. -/
theorem turns_ask
    (builder : Builder)
    (cache : Cache)
    (query : Query)
    (name : Text) :
    (Event.turns name (cache.ask builder query).events = [] ∧
      (cache.ask builder query).cache.keeps name = cache.keeps name) ∨
    (Event.turns name (cache.ask builder query).events = [!cache.keeps name] ∧
      (cache.ask builder query).cache.keeps name = !cache.keeps name) := by
  by_cases hname : query.name = name
  · subst hname
    have hanswered := answered_ask builder cache query
    generalize cache.ask builder query = step at *
    cases hanswered with
    | kept => exact Or.inl ⟨rfl, rfl⟩
    | @built name _ schemas habsent =>
        have hkept := lookup_insert_self cache _ schemas habsent
        exact Or.inr (by simp [Event.turns, Event.turn?, Query.name, keeps, habsent, hkept])
    | unbuildable => exact Or.inl ⟨rfl, rfl⟩
    | @dropped name build hkept =>
        have habsent := lookup_remove_self cache (.text name)
        exact Or.inr (by simp [Event.turns, Event.turn?, Query.name, keeps, habsent, hkept])
    | absent => exact Or.inl ⟨rfl, rfl⟩
    | told => exact Or.inl ⟨rfl, rfl⟩
  · refine Or.inl ⟨?_, by rw [keeps, lookup?_ask_of_ne builder cache hname, keeps]⟩
    have hanswered := answered_ask builder cache query
    generalize cache.ask builder query = step at *
    cases hanswered with
    | kept => rfl
    | built => simpa [Event.turns, Event.turn?, Query.name] using hname
    | unbuildable => rfl
    | dropped => simpa [Event.turns, Event.turn?, Query.name] using hname
    | absent => rfl
    | told => rfl

@[simp] theorem asText_ask
    (builder : Builder)
    (cache : Cache)
    (query : Query) :
    (cache.ask builder query).cache.asText = cache.asText := by
  have hanswered := answered_ask builder cache query
  generalize cache.ask builder query = step at *
  cases hanswered <;> rfl

/-- Builds are counted as they are reported. -/
theorem builds_ask
    (builder : Builder)
    (cache : Cache)
    (query : Query) :
    (cache.ask builder query).cache.builds =
      cache.builds + (cache.ask builder query).events.countP Event.isBuild := by
  have hanswered := answered_ask builder cache query
  generalize cache.ask builder query = step at *
  cases hanswered <;> rfl

end Ask

/-- A provider and its log after queries, from a new one. -/
def history
    (builder : Builder)
    (asText : Bool)
    (queries : List Query) : Cache × List Event :=
  queries.foldl
    (fun before query =>
      ((before.1.ask builder query).cache, before.2 ++ (before.1.ask builder query).events))
    ({ asText := asText }, [])

/-- The provider after queries. -/
def afterAll (builder : Builder) (asText : Bool) (queries : List Query) : Cache :=
  (history builder asText queries).1

/-- The events of queries, in order. -/
def log (builder : Builder) (asText : Bool) (queries : List Query) : List Event :=
  (history builder asText queries).2

theorem afterAll_snoc
    (builder : Builder)
    (asText : Bool)
    (queries : List Query)
    (query : Query) :
    afterAll builder asText (queries ++ [query]) =
      ((afterAll builder asText queries).ask builder query).cache := by
  simp [afterAll, history]

theorem log_snoc
    (builder : Builder)
    (asText : Bool)
    (queries : List Query)
    (query : Query) :
    log builder asText (queries ++ [query]) =
      log builder asText queries ++
        ((afterAll builder asText queries).ask builder query).events := by
  simp [log, afterAll, history]

/-- Schemas are built in one way all along. -/
@[simp] theorem asText_afterAll
    (builder : Builder)
    (asText : Bool)
    (queries : List Query) :
    (afterAll builder asText queries).asText = asText := by
  induction queries using List.reverseRecOn with
  | nil => rfl
  | append_singleton queries query ih => rw [afterAll_snoc, asText_ask, ih]

/-- A request for a name with no drop of it since; the queries before it. -/
def RequestedSince
    (name : Text)
    (queries before : List Query)
    (table : Table) : Prop :=
  ∃ later,
    queries = before ++ .request name table :: later ∧
    .drop name ∉ later

/-- What the request after these queries returns, if it does not fail. -/
def Grants
    (builder : Builder)
    (asText : Bool)
    (before : List Query)
    (name : Text)
    (table : Table)
    (build : Build) : Prop :=
  ((afterAll builder asText before).ask builder (.request name table)).result = .ok (.build build)

/-- All requests for a name since it was last dropped have failed. -/
def AllFailed
    (builder : Builder)
    (asText : Bool)
    (name : Text)
    (queries : List Query) : Prop :=
  ∀ before table build,
    RequestedSince name queries before table → ¬Grants builder asText before name table build

/-- What the first request for a name that succeeded since it was last dropped has returned. -/
def FirstGranted
    (builder : Builder)
    (asText : Bool)
    (name : Text)
    (queries : List Query)
    (build : Build) : Prop :=
  ∃ before table,
    RequestedSince name queries before table ∧
    Grants builder asText before name table build ∧
    AllFailed builder asText name before

section History

variable {builder : Builder}
variable {asText : Bool}
variable {name : Text}
variable {queries : List Query}

/-- The last query is such a request itself, or it leaves them as they are unless it drops. -/
theorem requestedSince_snoc_iff
    {query : Query}
    {before : List Query}
    {table : Table} :
    RequestedSince name (queries ++ [query]) before table
      ↔
    (query = .request name table ∧ before = queries) ∨
      (RequestedSince name queries before table ∧ query ≠ .drop name) := by
  simp only [RequestedSince, ← List.forall_mem_ne']
  exact eq_append_cons_snoc_iff

theorem allFailed_snoc_iff (query : Query) :
    AllFailed builder asText name (queries ++ [query])
      ↔
    (∀ table,
        query = .request name table → ∀ build, ¬Grants builder asText queries name table build) ∧
      (query ≠ .drop name → AllFailed builder asText name queries) := by
  constructor
  · intro h
    refine ⟨fun table hquery build => ?_, fun hquery before table build hsince => ?_⟩
    · exact h queries table build (requestedSince_snoc_iff.2 (Or.inl ⟨hquery, rfl⟩))
    · exact h before table build (requestedSince_snoc_iff.2 (Or.inr ⟨hsince, hquery⟩))
  · rintro ⟨hlast, hearlier⟩ before table build hsince
    rcases requestedSince_snoc_iff.1 hsince with ⟨hquery, rfl⟩ | ⟨hsince, hquery⟩
    · exact hlast table hquery build
    · exact hearlier hquery before table build hsince

theorem firstGranted_snoc_iff
    (query : Query)
    (build : Build) :
    FirstGranted builder asText name (queries ++ [query]) build
      ↔
    (∃ table,
      query = .request name table ∧
      Grants builder asText queries name table build ∧
      AllFailed builder asText name queries) ∨
      (FirstGranted builder asText name queries build ∧ query ≠ .drop name) := by
  constructor
  · rintro ⟨before, table, hsince, hgrants, hfailed⟩
    rcases requestedSince_snoc_iff.1 hsince with ⟨hquery, rfl⟩ | ⟨hsince, hquery⟩
    · exact Or.inl ⟨table, hquery, hgrants, hfailed⟩
    · exact Or.inr ⟨⟨before, table, hsince, hgrants, hfailed⟩, hquery⟩
  · rintro (⟨table, hquery, hgrants, hfailed⟩ | ⟨⟨before, table, hsince, hgranted⟩, hquery⟩)
    · exact ⟨queries, table, requestedSince_snoc_iff.2 (Or.inl ⟨hquery, rfl⟩), hgrants, hfailed⟩
    · exact ⟨before, table, requestedSince_snoc_iff.2 (Or.inr ⟨hsince, hquery⟩), hgranted⟩

/-- What the history tells of a name is what is kept under it. -/
structure Tells
    (builder : Builder)
    (asText : Bool)
    (name : Text)
    (queries : List Query) : Prop where
  some_iff :
    ∀ build,
      (afterAll builder asText queries).lookup? (.text name) = some build
        ↔
      FirstGranted builder asText name queries build
  none_iff :
    (afterAll builder asText queries).lookup? (.text name) = none
        ↔
      AllFailed builder asText name queries

theorem Tells.request
    (h : Tells builder asText name queries)
    (table : Table) :
    Tells builder asText name (queries ++ [.request name table]) := by
  have hrequest :
      ∀ other, Query.request name table = .request name other ↔ table = other := by simp
  constructor
  · intro build
    rw [afterAll_snoc, firstGranted_snoc_iff, ← h.some_iff, ← h.none_iff]
    simp only [hrequest]
    cases hkept : (afterAll builder asText queries).lookup? (.text name) with
    | some found => simp [ask_request_of_kept hkept, hkept]
    | none =>
        cases htable : builder (afterAll builder asText queries).asText table with
        | error fault => simp [Grants, ask_request_of_unbuildable hkept htable, hkept]
        | ok schemas =>
            simp [Grants, ask_request_of_built hkept htable, lookup_insert_self _ _ _ hkept]
  · rw [afterAll_snoc, allFailed_snoc_iff, ← h.none_iff]
    simp only [hrequest]
    cases hkept : (afterAll builder asText queries).lookup? (.text name) with
    | some found => simp [ask_request_of_kept hkept, hkept]
    | none =>
        cases htable : builder (afterAll builder asText queries).asText table with
        | error fault => simp [Grants, ask_request_of_unbuildable hkept htable, hkept]
        | ok schemas =>
            simp [Grants, ask_request_of_built hkept htable, lookup_insert_self _ _ _ hkept]

theorem Tells.drop (builder : Builder) (asText : Bool) (name : Text) (queries : List Query) :
    Tells builder asText name (queries ++ [.drop name]) := by
  have hnone : (afterAll builder asText (queries ++ [.drop name])).lookup? (.text name) = none := by
    rw [afterAll_snoc]
    cases hkept : (afterAll builder asText queries).lookup? (.text name) with
    | none => rw [ask_drop_of_absent builder hkept, hkept]
    | some build =>
        rw [ask_drop_of_kept builder hkept]
        exact lookup_remove_self _ _
  constructor
  · simp [hnone, firstGranted_snoc_iff]
  · simp [hnone, allFailed_snoc_iff]

/-- A query that neither requests nor drops the name tells nothing new of it. -/
theorem Tells.other
    {query : Query}
    (h : Tells builder asText name queries)
    (hrequest : ∀ table, query ≠ .request name table)
    (hdrop : query ≠ .drop name)
    (hkept :
      (afterAll builder asText (queries ++ [query])).lookup? (.text name) =
        (afterAll builder asText queries).lookup? (.text name)) :
    Tells builder asText name (queries ++ [query]) := by
  constructor
  · simp [hkept, firstGranted_snoc_iff, hrequest, hdrop, h.some_iff]
  · simp [hkept, allFailed_snoc_iff, hrequest, hdrop, h.none_iff]

theorem tells_history (builder : Builder) (asText : Bool) (name : Text) (queries : List Query) :
    Tells builder asText name queries := by
  induction queries using List.reverseRecOn with
  | nil =>
      have hnever : ∀ before table, ¬RequestedSince name [] before table := by
        rintro before table ⟨later, heq, -⟩
        simp at heq
      constructor
      · intro build
        simp [FirstGranted, hnever, afterAll, history, lookup?]
      · simp [AllFailed, hnever, afterAll, history, lookup?]
  | append_singleton queries query ih =>
      by_cases hname : query.name = name
      · subst hname
        cases query with
        | request name table => exact ih.request table
        | drop name => exact .drop builder asText name queries
        | contains name => exact ih.other (by simp) (by simp) (by rw [afterAll_snoc]; rfl)
      · refine ih.other ?_ ?_ ?_
        · rintro table rfl
          exact hname rfl
        · rintro rfl
          exact hname rfl
        · rw [afterAll_snoc]
          exact lookup?_ask_of_ne builder _ hname

/-- Schemas of a name are built and dropped in turn, and kept where they were built last. -/
theorem turns_log (builder : Builder) (asText : Bool) (queries : List Query) (name : Text) :
    List.IsChain (· ≠ ·) (false :: Event.turns name (log builder asText queries)) ∧
      (false :: Event.turns name (log builder asText queries)).getLast? =
        some ((afterAll builder asText queries).keeps name) := by
  induction queries using List.reverseRecOn with
  | nil => exact ⟨List.isChain_singleton _, rfl⟩
  | append_singleton queries query ih =>
      obtain ⟨hchain, hlast⟩ := ih
      have happend :
          Event.turns name (log builder asText (queries ++ [query])) =
            Event.turns name (log builder asText queries) ++
              Event.turns name ((afterAll builder asText queries).ask builder query).events := by
        rw [log_snoc, Event.turns, List.filterMap_append]
        rfl
      rw [happend, afterAll_snoc, ← List.cons_append]
      rcases turns_ask builder (afterAll builder asText queries) query name with
        ⟨hnone, hkeeps⟩ | ⟨hturn, hkeeps⟩
      · rw [hnone, hkeeps, List.append_nil]
        exact ⟨hchain, hlast⟩
      · rw [hturn, hkeeps]
        refine ⟨?_, List.getLast?_concat⟩
        rw [List.isChain_append]
        refine ⟨hchain, List.isChain_singleton _, ?_⟩
        simp [hlast]

theorem builds_log (builder : Builder) (asText : Bool) (queries : List Query) :
    (afterAll builder asText queries).builds =
      (log builder asText queries).countP Event.isBuild := by
  induction queries using List.reverseRecOn with
  | nil => rfl
  | append_singleton queries query ih =>
      rw [afterAll_snoc, builds_ask, ih, log_snoc, List.countP_append]

end History

/-- The request after these queries builds schemas. -/
def Builds
    (builder : Builder)
    (asText : Bool)
    (before : List Query)
    (name : Text)
    (table : Table) : Prop :=
  ((afterAll builder asText before).ask builder (.request name table)).cache.builds =
    (afterAll builder asText before).builds + 1

/-- What a provider keeps under a name after queries, and what any further query does. -/
structure Lawful
    (builder : Builder)
    (asText : Bool)
    (queries : List Query)
    (name : Text) : Prop where
  /-- Schemas are kept just if a request has built them since the name was last dropped. -/
  keeps_iff :
    (afterAll builder asText queries).keeps name = true
      ↔
    ∃ before table,
      RequestedSince name queries before table ∧ Builds builder asText before name table
  /-- What is kept is what the first request that succeeded since then has returned. -/
  exists_granted :
    (afterAll builder asText queries).keeps name = true →
      ∃ build, FirstGranted builder asText name queries build
  /-- It is returned for any table, and nothing is built. -/
  granted :
    ∀ build table,
      FirstGranted builder asText name queries build →
      (afterAll builder asText queries).ask builder (.request name table) =
        ⟨.ok (.build build), afterAll builder asText queries, []⟩
  /-- Where nothing is kept, one build is made of the table that is described, and reported. -/
  built :
    ∀ table schemas,
      (afterAll builder asText queries).keeps name = false →
      builder asText table = .ok schemas →
      ∃ next : Cache,
        (afterAll builder asText queries).ask builder (.request name table) =
          ⟨.ok (.build ⟨(afterAll builder asText queries).builds, schemas⟩), next,
            [.schemaBuilt (.text name) schemas.hasKey]⟩ ∧
        next.builds = (afterAll builder asText queries).builds + 1 ∧
        next.keeps name = true
  /-- A build that fails changes and reports nothing. -/
  unbuildable :
    ∀ table fault,
      (afterAll builder asText queries).keeps name = false →
      builder asText table = .error fault →
      (afterAll builder asText queries).ask builder (.request name table) =
        ⟨.error fault, afterAll builder asText queries, []⟩
  dropped :
    (afterAll builder asText queries).keeps name = true →
    ∃ next : Cache,
      (afterAll builder asText queries).ask builder (.drop name) =
        ⟨.ok .dropped, next, [.schemaDropped (.text name)]⟩ ∧
      next.builds = (afterAll builder asText queries).builds ∧
      next.keeps name = false
  /-- A drop of what is not kept changes and reports nothing. -/
  absent :
    (afterAll builder asText queries).keeps name = false →
    (afterAll builder asText queries).ask builder (.drop name) =
      ⟨.ok .dropped, afterAll builder asText queries, []⟩
  told :
    (afterAll builder asText queries).ask builder (.contains name) =
      ⟨.ok (.kept ((afterAll builder asText queries).keeps name)),
        afterAll builder asText queries, []⟩
  /-- A query for another name leaves what is kept under this one. -/
  others :
    ∀ query,
      query.name ≠ name →
      ((afterAll builder asText queries).ask builder query).cache.lookup? (.text name) =
        (afterAll builder asText queries).lookup? (.text name)
  /-- Schemas of the name are built first, and then dropped and built in turn. -/
  alternate :
    List.IsChain (· ≠ ·) (false :: Event.turns name (log builder asText queries))
  /-- Schemas are kept just if the last that was done was to build them. -/
  keeps_iff_last :
    (afterAll builder asText queries).keeps name = true
      ↔
    (Event.turns name (log builder asText queries)).getLast? = some true
  /-- Nothing is built that is not reported. -/
  counted :
    (afterAll builder asText queries).builds = (log builder asText queries).countP Event.isBuild

/-- A request that finds nothing kept builds just if it succeeds. -/
theorem builds_of_grants
    {builder : Builder}
    {asText : Bool}
    {before : List Query}
    {name : Text}
    {table : Table}
    {build : Build}
    (habsent : (afterAll builder asText before).lookup? (.text name) = none)
    (h : Grants builder asText before name table build) :
    Builds builder asText before name table := by
  unfold Grants at h
  cases htable : builder (afterAll builder asText before).asText table with
  | error fault =>
      rw [ask_request_of_unbuildable habsent htable] at h
      contradiction
  | ok schemas =>
      rw [Builds, ask_request_of_built habsent htable]
      rfl

theorem exists_grants_of_builds
    {builder : Builder}
    {asText : Bool}
    {before : List Query}
    {name : Text}
    {table : Table}
    (h : Builds builder asText before name table) :
    ∃ build, Grants builder asText before name table build := by
  unfold Builds at h
  unfold Grants
  have hanswered := answered_ask builder (afterAll builder asText before) (.request name table)
  generalize (afterAll builder asText before).ask builder (.request name table) = step at *
  cases hanswered with
  | kept => exact ⟨_, rfl⟩
  | built => exact ⟨_, rfl⟩
  | unbuildable => simp at h

/-- The laws of a provider, whatever builds schemas, for every history of queries and every name. -/
theorem lawful_history
    (builder : Builder)
    (asText : Bool)
    (queries : List Query)
    (name : Text) :
    Lawful builder asText queries name := by
  have htells := tells_history builder asText name queries
  obtain ⟨hchain, hlast⟩ := turns_log builder asText queries name
  have hkeeps :
      (afterAll builder asText queries).keeps name = true ↔
        ∃ build, FirstGranted builder asText name queries build := by
    simp only [keeps, Option.isSome_iff_exists, htells.some_iff]
  have habsent :
      (afterAll builder asText queries).keeps name = false →
        (afterAll builder asText queries).lookup? (.text name) = none := by
    simp [keeps]
  exact
    { keeps_iff := by
        rw [hkeeps]
        constructor
        · rintro ⟨build, before, table, hsince, hgrants, hfailed⟩
          have hnone := (tells_history builder asText name before).none_iff.2 hfailed
          exact ⟨before, table, hsince, builds_of_grants hnone hgrants⟩
        · rintro ⟨before, table, hsince, hbuilds⟩
          obtain ⟨build, hgrants⟩ := exists_grants_of_builds hbuilds
          cases hkept : (afterAll builder asText queries).lookup? (.text name) with
          | some found => exact ⟨found, (htells.some_iff found).1 hkept⟩
          | none => exact absurd hgrants (htells.none_iff.1 hkept before table build hsince)
      exists_granted := hkeeps.1
      granted := fun build table hfirst =>
        ask_request_of_kept ((htells.some_iff build).2 hfirst) table
      built := fun table schemas hnone htable =>
        ⟨_, ask_request_of_built (habsent hnone) ((asText_afterAll ..).symm ▸ htable), rfl, by
          rw [keeps, lookup_insert_self _ _ _ (habsent hnone)]
          rfl⟩
      unbuildable := fun table fault hnone htable =>
        ask_request_of_unbuildable (habsent hnone) ((asText_afterAll ..).symm ▸ htable)
      dropped := fun hsome => by
        obtain ⟨build, hkept⟩ := Option.isSome_iff_exists.1 hsome
        refine ⟨_, ask_drop_of_kept builder hkept, rfl, ?_⟩
        rw [keeps, lookup_remove_self]
        rfl
      absent := fun hnone => ask_drop_of_absent builder (habsent hnone)
      told := ask_contains builder _ name
      others := fun query hname => lookup?_ask_of_ne builder _ hname
      alternate := hchain
      keeps_iff_last := by
        cases hturns : Event.turns name (log builder asText queries) with
        | nil =>
            rw [hturns] at hlast
            simpa using hlast.symm
        | cons turn rest =>
            rw [hturns, List.getLast?_cons_cons] at hlast
            rw [hlast]
            simp
      counted := builds_log builder asText queries }

end Cache
end Schema
end ChangeFeed
