import ChangeFeed.Formatter
import ChangeFeed.Proofs.Record.Fields
import ChangeFeed.Proofs.Schema.Request

/-!
# Emissions

What building the records of a plan comes to. The record of an emission exists
just if the name of the table is a text and every captured text of the
emission's side has a place in a block; the key record then exists too. Several
emissions are built one after the other, each with a stamp of its own.

**Results.**

* `pair_eq_ok`: the parts of a record and its key record.
* `emittedCons_emitAll`: what building an emission and then others can come to.
* `emitAll_append`: emissions in two parts are built part by part.
* `forall₂_emitAll`: a pair for each emission, built with a stamp.
* `assembled_assemble`: what assembling a change can come to.
* `format_eq_error`: what keeps a change from being formatted.
* `asText_format`, `asText_notice`: the formatter goes on building schemas in one way.
-/

namespace ChangeFeed

section Map

variable {ε α β : Type}

theorem map_eq_ok_iff
    (f : α → β)
    (result : Except ε α)
    (b : β) :
    result.map f = .ok b ↔ ∃ a, result = .ok a ∧ f a = b := by
  cases result <;> simp [Except.map]

theorem map_eq_error_iff
    (f : α → β)
    (result : Except ε α)
    (e : ε) :
    result.map f = .error e ↔ result = .error e := by
  cases result <;> simp [Except.map]

/-- What is computed of a value that is there was computed of the result. -/
theorem exists_ok_of_toOption
    {f : α → β}
    {result : Except ε α}
    {b : β}
    (h : result.toOption.map f = some b) :
    ∃ a, result = .ok a ∧ f a = b := by
  cases result with
  | error e => contradiction
  | ok a => exact ⟨a, rfl, Option.some.inj h⟩

end Map

namespace Formatter

section Pair

variable {settings : Settings}
variable {stamp : Instant}
variable {change : Change}
variable {table : Table}
variable {columns : List Aligned}
variable {hasKey : Bool}
variable {emission : Emission}

/-- The parts of a pair that was built. -/
theorem pair_eq_ok
    {built : Emitted}
    (h : pair settings stamp change table columns hasKey emission = .ok built) :
    ∃ name block,
      table.name = .text name ∧
      Block.build settings.asText columns emission.side false = .ok block ∧
      built.record =
        { table := name
          key := settings.keyOf emission
          time := change.time
          stamp := stamp.render settings.isoStamps
          position := change.position
          keyNames := if settings.withKeyNames then some table.keyNames else none
          tokens := if settings.withTokens then some change.tokens else none
          side := emission.side
          block := block } ∧
      (if hasKey then
        ∃ key,
          built.key = some key ∧
          Block.build settings.asText columns emission.side true = .ok key
      else
        built.key = none) := by
  unfold pair at h
  split at h
  · contradiction
  · next name hname =>
      have htext : table.name = .text name := by
        unfold Table.textName? at hname
        split at hname
        · next heq => rw [heq, Option.some.inj hname]
        · contradiction
      split at h
      · contradiction
      · next block hblock =>
          refine ⟨name, block, htext, hblock, ?_⟩
          cases hasKey with
          | false =>
              cases h
              exact ⟨rfl, rfl⟩
          | true =>
              simp only [if_true] at h ⊢
              split at h
              · contradiction
              · next key hbuild =>
                  cases h
                  exact ⟨rfl, key.getD [], rfl, Block.build_keys_eq_ok_iff.2 ⟨key, hbuild, rfl⟩⟩

/-- Without a text for its name, a table has no records. -/
theorem pair_of_not_text
    (hname : ∀ name, table.name ≠ .text name) :
    pair settings stamp change table columns hasKey emission =
      .error (.fault (.noAttribute table.name.kind "rsplit")) := by
  have hnone : table.textName? = none := by
    unfold Table.textName?
    split
    · next name heq => exact absurd heq (hname name)
    · rfl
  simp [pair, hnone]

/-- With a text for the name of the table, a record fails as the block of its side does. -/
theorem pair_eq_error_iff
    {name : Text}
    (hname : table.name = .text name)
    (failure : Failure) :
    pair settings stamp change table columns hasKey emission = .error failure
      ↔
    (select columns emission.side false).findSome? (Block.failure? settings.asText) =
      some failure := by
  rw [← Block.build_eq_error_iff]
  have htext : table.textName? = some name := by simp [Table.textName?, hname]
  simp only [pair, htext]
  cases hblock : Block.build settings.asText columns emission.side false with
  | error other =>
      simp
  | ok block =>
      -- The key block cannot fail any more.
      obtain ⟨key, hkey⟩ := Block.exists_build_keys _ _ _ block hblock
      obtain ⟨keyBlock, hkeyBlock, -⟩ := Block.build_keys_eq_ok_iff.1 hkey
      rw [hkeyBlock]
      cases hasKey <;> simp

theorem pair_eq_error
    {failure : Failure}
    (h : pair settings stamp change table columns hasKey emission = .error failure) :
    (∃ fault, failure = .fault fault) ∨
      ∃ field ∈ select columns emission.side false,
        Block.failure? settings.asText field = some failure := by
  by_cases hname : ∃ name, table.name = .text name
  · obtain ⟨name, hname⟩ := hname
    have hfind := (pair_eq_error_iff hname failure).1 h
    obtain ⟨field, hfield, hfailure⟩ := List.exists_of_findSome?_eq_some hfind
    exact Or.inr ⟨field, hfield, hfailure⟩
  · rw [pair_of_not_text fun name heq => hname ⟨name, heq⟩] at h
    cases h
    exact Or.inl ⟨_, rfl⟩

end Pair

section EmitAll

variable {settings : Settings}
variable {clock : Clock}
variable {change : Change}
variable {table : Table}
variable {columns : List Aligned}
variable {hasKey : Bool}

section Cons

variable {stamps stamps' : Stamps}
variable {stamp : Instant}
variable {emission : Emission}

/-- Without a stamp, nothing more is built. -/
theorem emitAll_cons_of_none
    (rest : List Emission)
    (hnext : stamps.next clock = (none, stamps')) :
    emitAll settings clock change table columns hasKey stamps (emission :: rest) =
      (.error (.fault .stampsExhausted), stamps') := by
  simp only [emitAll, emit, hnext]

/-- The failure of one emission is that of all, and its stamp is spent. -/
theorem emitAll_cons_of_error
    {failure : Failure}
    (rest : List Emission)
    (hnext : stamps.next clock = (some stamp, stamps'))
    (hpair : pair settings stamp change table columns hasKey emission = .error failure) :
    emitAll settings clock change table columns hasKey stamps (emission :: rest) =
      (.error failure, stamps') := by
  simp only [emitAll, emit, hnext, hpair]

/-- An emission that is built leaves the others to be built. -/
theorem emitAll_cons_of_ok
    {built : Emitted}
    (rest : List Emission)
    (hnext : stamps.next clock = (some stamp, stamps'))
    (hpair : pair settings stamp change table columns hasKey emission = .ok built) :
    emitAll settings clock change table columns hasKey stamps (emission :: rest) =
      ((emitAll settings clock change table columns hasKey stamps' rest).1.map (built :: ·),
        (emitAll settings clock change table columns hasKey stamps' rest).2) := by
  simp only [emitAll, emit, hnext, hpair]
  cases emitAll settings clock change table columns hasKey stamps' rest with
  | mk result stamps'' => cases result <;> rfl

end Cons

/-- What building an emission and then others can come to. -/
inductive EmittedCons
    (settings : Settings)
    (clock : Clock)
    (change : Change)
    (table : Table)
    (columns : List Aligned)
    (hasKey : Bool)
    (stamps : Stamps)
    (emission : Emission)
    (rest : List Emission) :
    Except Failure (List Emitted) × Stamps → Prop
  | unstamped
      {stamps' : Stamps}
      (hnext : stamps.next clock = (none, stamps')) :
      EmittedCons settings clock change table columns hasKey stamps emission rest
        (.error (.fault .stampsExhausted), stamps')
  | failed
      {stamp : Instant}
      {stamps' : Stamps}
      {failure : Failure}
      (hnext : stamps.next clock = (some stamp, stamps'))
      (hpair : pair settings stamp change table columns hasKey emission = .error failure) :
      EmittedCons settings clock change table columns hasKey stamps emission rest
        (.error failure, stamps')
  | built
      {stamp : Instant}
      {stamps' : Stamps}
      {built : Emitted}
      (hnext : stamps.next clock = (some stamp, stamps'))
      (hpair : pair settings stamp change table columns hasKey emission = .ok built) :
      EmittedCons settings clock change table columns hasKey stamps emission rest
        ((emitAll settings clock change table columns hasKey stamps' rest).1.map (built :: ·),
          (emitAll settings clock change table columns hasKey stamps' rest).2)

theorem emittedCons_emitAll
    (stamps : Stamps)
    (emission : Emission)
    (rest : List Emission) :
    EmittedCons settings clock change table columns hasKey stamps emission rest
      (emitAll settings clock change table columns hasKey stamps (emission :: rest)) := by
  cases hnext : stamps.next clock with
  | mk given stamps' =>
      cases given with
      | none =>
          rw [emitAll_cons_of_none rest hnext]
          exact .unstamped hnext
      | some stamp =>
          cases hpair : pair settings stamp change table columns hasKey emission with
          | error failure =>
              rw [emitAll_cons_of_error rest hnext hpair]
              exact .failed hnext hpair
          | ok built =>
              rw [emitAll_cons_of_ok rest hnext hpair]
              exact .built hnext hpair

/-- The kind of a change does not show in its records. -/
theorem emitAll_kind
    (kind : ChangeKind)
    (stamps : Stamps)
    (emissions : List Emission) :
    emitAll settings clock { change with kind := kind } table columns hasKey stamps emissions =
      emitAll settings clock change table columns hasKey stamps emissions := by
  induction emissions generalizing stamps with
  | nil =>
      rfl
  | cons emission rest ih =>
      simp only [emitAll, ih]
      rfl

theorem emitAll_append
    (stamps : Stamps)
    (first second : List Emission) :
    emitAll settings clock change table columns hasKey stamps (first ++ second) =
      match emitAll settings clock change table columns hasKey stamps first with
      | (.error failure, stamps) => (.error failure, stamps)
      | (.ok pairs, stamps) =>
          match emitAll settings clock change table columns hasKey stamps second with
          | (.error failure, stamps) => (.error failure, stamps)
          | (.ok others, stamps) => (.ok (pairs ++ others), stamps) := by
  induction first generalizing stamps with
  | nil =>
      simp only [List.nil_append, emitAll]
      cases emitAll settings clock change table columns hasKey stamps second with
      | mk result stamps => cases result <;> rfl
  | cons emission rest ih =>
      simp only [List.cons_append, emitAll]
      cases emit settings clock change table columns hasKey stamps emission with
      | mk result stamps' =>
          cases result with
          | error failure => rfl
          | ok built =>
              simp only [ih]
              cases emitAll settings clock change table columns hasKey stamps' rest with
              | mk result stamps'' =>
                  cases result with
                  | error failure => rfl
                  | ok pairs =>
                      simp only
                      cases emitAll settings clock change table columns hasKey stamps'' second with
                      | mk result stamps''' => cases result <;> rfl

/-- A pair for each emission, each built with a stamp of its own. -/
theorem forall₂_emitAll
    {stamps : Stamps}
    {emissions : List Emission}
    {pairs : List Emitted}
    (h :
      (emitAll settings clock change table columns hasKey stamps emissions).1 = .ok pairs) :
    List.Forall₂
      (fun emission built =>
        ∃ stamp, pair settings stamp change table columns hasKey emission = .ok built)
      emissions pairs := by
  induction emissions generalizing stamps pairs with
  | nil =>
      cases h
      exact .nil
  | cons emission rest ih =>
      have hcons :=
        @emittedCons_emitAll settings clock change table columns hasKey stamps emission rest
      generalize emitAll settings clock change table columns hasKey stamps (emission :: rest) =
        made at *
      cases hcons with
      | unstamped => contradiction
      | failed => contradiction
      | @built stamp _ built _ hpair =>
          obtain ⟨others, hothers, rfl⟩ := (map_eq_ok_iff _ _ _).1 h
          exact .cons ⟨stamp, hpair⟩ (ih hothers)

/-- Emissions fail for want of a stamp or of a name, or by a text without a place. -/
theorem emitAll_eq_error
    {stamps : Stamps}
    {emissions : List Emission}
    {failure : Failure}
    (h :
      (emitAll settings clock change table columns hasKey stamps emissions).1 =
        .error failure) :
    (∃ fault, failure = .fault fault) ∨
      ∃ emission ∈ emissions,
        ∃ field ∈ select columns emission.side false,
          Block.failure? settings.asText field = some failure := by
  induction emissions generalizing stamps with
  | nil =>
      contradiction
  | cons emission rest ih =>
      have hcons :=
        @emittedCons_emitAll settings clock change table columns hasKey stamps emission rest
      generalize emitAll settings clock change table columns hasKey stamps (emission :: rest) =
        made at *
      cases hcons with
      | unstamped =>
          cases h
          exact Or.inl ⟨_, rfl⟩
      | failed _ hpair =>
          cases h
          rcases pair_eq_error hpair with hfault | ⟨field, hfield, hfailure⟩
          · exact Or.inl hfault
          · exact Or.inr ⟨emission, by simp, field, hfield, hfailure⟩
      | built =>
          rcases ih ((map_eq_error_iff _ _ _).1 h) with hfault | ⟨other, hmem, hfield⟩
          · exact Or.inl hfault
          · exact Or.inr ⟨other, by simp [hmem], hfield⟩

end EmitAll

section Format

variable {settings : Settings}
variable {clock : Clock}
variable {state : Formatter}
variable {change : Change}
variable {table : Table}

/-- Without schemas, a change fails and nothing is kept of it. -/
theorem format_of_request_error
    (settings : Settings)
    (clock : Clock)
    (change : Change)
    {fault : Fault}
    (h : (state.cache.request table.name table).result = .error fault) :
    (format settings clock state change table).result = .error (.fault fault) ∧
      (format settings clock state change table).state = state := by
  have hcache := Schema.Cache.cache_request_of_error h
  simp only [format, h, hcache]
  exact ⟨trivial, trivial⟩

/-- With the schemas there, a change is assembled. -/
theorem format_of_request_ok
    (settings : Settings)
    (clock : Clock)
    (change : Change)
    {build : Schema.Build}
    (h : (state.cache.request table.name table).result = .ok build) :
    (format settings clock state change table).result =
        (assemble settings clock state.stamps change table build.schemas.hasKey).1 ∧
      (format settings clock state change table).state =
        ⟨(state.cache.request table.name table).cache,
          (assemble settings clock state.stamps change table build.schemas.hasKey).2⟩ := by
  simp only [format, h]
  cases assemble settings clock state.stamps change table build.schemas.hasKey with
  | mk result stamps => cases result <;> exact ⟨rfl, rfl⟩

/-- An aligned change whose plan is not fatal is emitted. -/
theorem assemble_of_emits
    {stamps : Stamps}
    {hasKey : Bool}
    {columns : List Aligned}
    (halign : align change table = .ok columns)
    (hplan : (Plan.ofKind change.kind settings.keyUpdates).emissions ≠ []) :
    assemble settings clock stamps change table hasKey =
      emitAll settings clock change table columns hasKey stamps
        (Plan.ofKind change.kind settings.keyUpdates).emissions := by
  simp only [assemble, halign]
  split
  · next reason heq =>
      rw [heq] at hplan
      exact absurd rfl hplan
  · rfl

theorem assemble_of_fatal
    {stamps : Stamps}
    {hasKey : Bool}
    {columns : List Aligned}
    {reason : String}
    (halign : align change table = .ok columns)
    (hplan : Plan.ofKind change.kind settings.keyUpdates = .fatal reason) :
    assemble settings clock stamps change table hasKey =
      (.error (.fatal reason table.name change.kind), stamps) := by
  simp [assemble, halign, hplan]

/-- What assembling a change can come to. -/
inductive Assembled
    (settings : Settings)
    (clock : Clock)
    (stamps : Stamps)
    (change : Change)
    (table : Table)
    (hasKey : Bool) :
    Except Failure (List Emitted) × Stamps → Prop
  | misaligned
      {failure : Failure}
      (halign : align change table = .error failure) :
      Assembled settings clock stamps change table hasKey (.error failure, stamps)
  | fatal
      {columns : List Aligned}
      {reason : String}
      (halign : align change table = .ok columns)
      (hplan : Plan.ofKind change.kind settings.keyUpdates = .fatal reason) :
      Assembled settings clock stamps change table hasKey
        (.error (.fatal reason table.name change.kind), stamps)
  | emitted
      {columns : List Aligned}
      (halign : align change table = .ok columns)
      (hemits : (Plan.ofKind change.kind settings.keyUpdates).emissions ≠ []) :
      Assembled settings clock stamps change table hasKey
        (emitAll settings clock change table columns hasKey stamps
          (Plan.ofKind change.kind settings.keyUpdates).emissions)

theorem assembled_assemble
    (settings : Settings)
    (clock : Clock)
    (stamps : Stamps)
    (change : Change)
    (table : Table)
    (hasKey : Bool) :
    Assembled settings clock stamps change table hasKey
      (assemble settings clock stamps change table hasKey) := by
  cases halign : align change table with
  | error failure =>
      simp only [assemble, halign]
      exact .misaligned halign
  | ok columns =>
      by_cases hplan : (Plan.ofKind change.kind settings.keyUpdates).emissions = []
      · obtain ⟨reason, hreason⟩ := (Plan.emissions_eq_nil_iff _).1 hplan
        rw [assemble_of_fatal halign hreason]
        exact .fatal halign hreason
      · rw [assemble_of_emits halign hplan]
        exact .emitted halign hplan

/-- A change that was formatted had its schemas, was aligned and was emitted as its plan says. -/
theorem format_eq_ok
    {pairs : List Emitted}
    (h : (format settings clock state change table).result = .ok pairs) :
    ∃ build columns,
      (state.cache.request table.name table).result = .ok build ∧
      align change table = .ok columns ∧
      (Plan.ofKind change.kind settings.keyUpdates).emissions ≠ [] ∧
      (emitAll settings clock change table columns build.schemas.hasKey state.stamps
        (Plan.ofKind change.kind settings.keyUpdates).emissions).1 = .ok pairs := by
  cases hrequest : (state.cache.request table.name table).result with
  | error fault =>
      rw [(format_of_request_error settings clock change hrequest).1] at h
      contradiction
  | ok build =>
      rw [(format_of_request_ok settings clock change hrequest).1] at h
      have hassembled :=
        assembled_assemble settings clock state.stamps change table build.schemas.hasKey
      generalize assemble settings clock state.stamps change table build.schemas.hasKey = made at *
      cases hassembled with
      | misaligned => contradiction
      | fatal => contradiction
      | emitted halign hemits => exact ⟨build, _, rfl, halign, hemits, h⟩

/-- What keeps a change from being formatted, faults of the message aside. -/
theorem format_eq_error
    {failure : Failure}
    (h : (format settings clock state change table).result = .error failure) :
    (∃ fault, failure = .fault fault) ∨
      align change table = .error failure ∨
      (∃ reason,
        Plan.ofKind change.kind settings.keyUpdates = .fatal reason ∧
        failure = .fatal reason table.name change.kind) ∨
      ∃ columns,
        align change table = .ok columns ∧
        ∃ emission ∈ (Plan.ofKind change.kind settings.keyUpdates).emissions,
          ∃ field ∈ select columns emission.side false,
            Block.failure? settings.asText field = some failure := by
  cases hrequest : (state.cache.request table.name table).result with
  | error fault =>
      rw [(format_of_request_error settings clock change hrequest).1] at h
      cases h
      exact Or.inl ⟨fault, rfl⟩
  | ok build =>
      rw [(format_of_request_ok settings clock change hrequest).1] at h
      have hassembled :=
        assembled_assemble settings clock state.stamps change table build.schemas.hasKey
      generalize assemble settings clock state.stamps change table build.schemas.hasKey = made at *
      cases hassembled with
      | misaligned halign =>
          cases h
          exact Or.inr (Or.inl halign)
      | @fatal _ reason _ hplan =>
          cases h
          exact Or.inr (Or.inr (Or.inl ⟨reason, hplan, rfl⟩))
      | @emitted columns halign _ =>
          rcases emitAll_eq_error h with hfault | hfield
          · exact Or.inl hfault
          · exact Or.inr (Or.inr (Or.inr ⟨columns, halign, hfield⟩))

/-- The cache of a formatter builds schemas as the settings say, as it was set up to do. -/
def Own
    (settings : Settings)
    (state : Formatter) : Prop :=
  state.cache.asText = settings.asText

theorem own_start (settings : Settings) :
    (start settings).Own settings := rfl

/-- Formatting a change leaves the way in which schemas are built. -/
@[simp] theorem asText_format :
    (format settings clock state change table).state.cache.asText = state.cache.asText := by
  cases hrequest : (state.cache.request table.name table).result with
  | error fault => rw [(format_of_request_error settings clock change hrequest).2]
  | ok build =>
      rw [(format_of_request_ok settings clock change hrequest).2]
      exact Schema.Cache.asText_request ..

/-- So does a notice. -/
@[simp] theorem asText_notice (notice : Notice) :
    (state.notice notice).state.cache.asText = state.cache.asText :=
  Schema.Cache.asText_drop ..

/-- Formatting into a container is formatting; the container shows in nothing else. -/
@[simp] theorem formatInto_fst
    (container : Container) :
    (formatInto settings clock state change table container).1 =
      format settings clock state change table := by
  simp only [formatInto]
  split <;> rfl

theorem formatInto_snd_of_ok
    {pairs : List Emitted}
    (container : Container)
    (h : (format settings clock state change table).result = .ok pairs) :
    (formatInto settings clock state change table container).2 = .ofList pairs := by
  simp only [formatInto, h]

theorem formatInto_snd_of_error
    {failure : Failure}
    (container : Container)
    (h : (format settings clock state change table).result = .error failure) :
    (formatInto settings clock state change table container).2 = container := by
  simp only [formatInto, h]

end Format

end Formatter
end ChangeFeed
