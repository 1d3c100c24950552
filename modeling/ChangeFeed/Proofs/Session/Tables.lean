import ChangeFeed.Proofs.Formatter.Rows
import ChangeFeed.Proofs.Session.Unstamped

/-!
# Tables do not interfere

All that messages of one table share with those of another is the sequence of
stamps. What a message comes to depends on that only in the stamps of its records,
and on the schemas that are kept only in whether those of the table it names have a
key. So as long as there are stamps, the messages of a table come to the same in
the session of these messages alone, and messages of different tables may change
places.

**Results.**

* `respond_of_named`, `schemas?_respond`: all that the formatter looks at and changes
  is what is kept under the name in the message, and the stamps.
* `exists_takesOn`: how many stamps a message takes is settled beforehand.
* `AlikeOn.respond_named`, `AlikeOn.skip`: formatters alike on one name stay so, whether a
  message names it or only one of them gets a message that does not.
* `alikeOn_interchange`: two messages that name different things leave formatters alike.
* `effects_independent`: messages of one name come to the same without the others.
-/

namespace ChangeFeed

namespace Stamps

variable {clock : Clock}

/-- Whenever one sequence gives its next stamps, another does. -/
def Outlasts
    (clock : Clock)
    (others stamps : Stamps) : Prop :=
  ∀ n, stamps.Gives clock n → others.Gives clock n

theorem Outlasts.refl (clock : Clock) (stamps : Stamps) :
    Outlasts clock stamps stamps :=
  fun _ h => h

theorem Outlasts.trans
    {first second third : Stamps}
    (h : Outlasts clock first second)
    (h' : Outlasts clock second third) :
    Outlasts clock first third :=
  fun n hn => h n (h' n hn)

/-- A sequence outlasts what is left of it after stamps that it gives. -/
theorem outlasts_later
    {stamps : Stamps}
    {n : Nat}
    (h : stamps.Gives clock n) :
    Outlasts clock stamps (stamps.later clock n) := by
  intro m hm
  exact ((gives_add_iff stamps n m).2 ⟨h, hm⟩).of_le (Nat.le_add_left m n)

/-- After the same number of stamps, the sequence that lasts longer still does. -/
theorem Outlasts.later
    {stamps others : Stamps}
    {n : Nat}
    (h : Outlasts clock others stamps)
    (hn : stamps.Gives clock n) :
    Outlasts clock (others.later clock n) (stamps.later clock n) := by
  intro m hm
  exact ((gives_add_iff others n m).1 (h _ ((gives_add_iff stamps n m).2 ⟨hn, hm⟩))).2

end Stamps

/-- Results that look alike fail alike. -/
theorem LooksAlike.ne_error
    {view : Emitted → Emitted}
    {result other : Except Failure (List Emitted)}
    {failure : Failure}
    (h : LooksAlike view result other)
    (hne : result ≠ .error failure) :
    other ≠ .error failure := by
  intro hother
  rw [LooksAlike, hother] at h
  exact hne ((map_eq_error_iff _ _ _).1 h)

/-- Whether a message names what an identity stands for. -/
def Message.names (id : Identity) (message : Message) : Bool :=
  message.subject.identity? = some id

/-- A notice that names what an identity stands for. -/
def Message.Drops (id : Identity) : Message → Prop
  | .notice dropped => dropped.objectName.identity? = some id
  | .change .. => False

theorem Message.names_iff
    {id : Identity}
    {message : Message} :
    message.names id = true ↔ message.subject.identity? = some id := by
  simp [Message.names]

namespace Formatter

open Stamps (Outlasts)

/-- What is known of a key after a message that names its table, from what was known before. -/
def keyAfter (key? : Option Bool) : Message → Option Bool
  | .notice _ => none
  | .change _ table => (key?.elim table.keyed .ok).toOption

/-- The schemas kept under a name after a message that names it, from those kept before. -/
def schemasAfter
    (asText : Bool)
    (schemas? : Option Schema.Schemas) : Message → Option Schema.Schemas
  | .notice _ => none
  | .change _ table => (schemas?.elim (Schema.Schemas.ofTable asText table) .ok).toOption

theorem map_hasKey_schemasAfter
    (asText : Bool)
    (schemas? : Option Schema.Schemas)
    (message : Message) :
    (schemasAfter asText schemas? message).map Schema.Schemas.hasKey =
      keyAfter (schemas?.map Schema.Schemas.hasKey) message := by
  cases message with
  | notice notice => rfl
  | change change table =>
      cases schemas? with
      | some schemas => rfl
      | none =>
          simp only [schemasAfter, keyAfter, Option.map_none, Option.elim_none,
            ← Schema.Schemas.map_hasKey_ofTable asText table]
          cases Schema.Schemas.ofTable asText table <;> rfl

/-- What comes of a message if what it names is known to have a key or not, and of the stamps. -/
def made
    (settings : Settings)
    (clock : Clock)
    (key? : Option Bool)
    (message : Message)
    (stamps : Stamps) : Except Failure (List Emitted) × Stamps :=
  match message with
  | .notice _ => (.ok [], stamps)
  | .change change table =>
      match key?.elim table.keyed .ok with
      | .error fault => (.error (.fault fault), stamps)
      | .ok hasKey => assemble settings clock stamps change table hasKey

theorem exists_takes_made
    (settings : Settings)
    (clock : Clock)
    (key? : Option Bool)
    (message : Message) :
    ∃ n, Takes clock n (made settings clock key? message) := by
  cases message with
  | notice notice => exact ⟨0, takes_zero clock (.ok [])⟩
  | change change table =>
      unfold made
      cases hkey : key?.elim table.keyed .ok with
      | error fault =>
          simp only [hkey]
          exact ⟨0, takes_zero clock _⟩
      | ok hasKey =>
          simp only [hkey]
          obtain ⟨n, -, htakes⟩ := exists_takes_assemble settings clock change table hasKey
          exact ⟨n, htakes⟩

section Respond

variable {settings : Settings}
variable {clock : Clock}
variable {id : Identity}
variable {message : Message}
variable {state other : Formatter}

/-- All that the formatter looks at is what is kept under the name in a message, and the stamps. -/
theorem respond_of_named
    (settings : Settings)
    (clock : Clock)
    (state : Formatter)
    (hname : message.subject.identity? = some id) :
    (respond settings clock state message).1 =
        (made settings clock (state.cache.hasKey? id) message state.stamps).1 ∧
      (respond settings clock state message).2.stamps =
        (made settings clock (state.cache.hasKey? id) message state.stamps).2 := by
  cases message with
  | notice notice =>
      rw [Message.subject] at hname
      obtain ⟨hresult, -, -⟩ := Schema.Cache.lookup?_drop state.cache hname
      simp only [respond, Formatter.notice, hresult, made]
      exact ⟨trivial, trivial⟩
  | change change table =>
      obtain ⟨hresult, -, -⟩ := Schema.Cache.hasKey?_request state.cache hname
      simp only [respond, made]
      cases hkey : (state.cache.hasKey? id).elim table.keyed .ok with
      | error fault =>
          rw [hkey] at hresult
          have hfault := (map_eq_error_iff _ _ _).1 hresult
          obtain ⟨hformat, hstate⟩ := format_of_request_error settings clock change hfault
          exact ⟨hformat, by rw [hstate]⟩
      | ok hasKey =>
          rw [hkey] at hresult
          exact format_of_hasKey clock change hresult

/-- What names nothing that is looked up leaves the formatter as it is. -/
theorem respond_of_nameless
    (settings : Settings)
    (clock : Clock)
    (state : Formatter)
    (hname : message.subject.identity? = none) :
    (respond settings clock state message).1 ≠ .error .exhausted ∧
      (respond settings clock state message).2 = state := by
  cases message with
  | notice notice =>
      rw [Message.subject] at hname
      simp only [respond, Formatter.notice, Schema.Cache.drop, hname]
      cases state.cache.entries.isEmpty <;> exact ⟨by simp [Failure.exhausted], rfl⟩
  | change change table =>
      rw [Message.subject] at hname
      have hrequest :
          (state.cache.request table.name table).result = .error (.unhashable table.name.kind) := by
        simp [Schema.Cache.request, Schema.Cache.requestWith, hname]
      obtain ⟨hresult, hstate⟩ := format_of_request_error settings clock change hrequest
      simp only [respond, hresult, hstate]
      exact ⟨by simp [Failure.exhausted], trivial⟩

/-- All that the formatter changes of what is kept is what is kept under the name in a message. -/
theorem schemas?_respond
    (settings : Settings)
    (clock : Clock)
    (state : Formatter)
    (message : Message)
    (id : Identity) :
    (respond settings clock state message).2.cache.schemas? id =
      if message.names id then
        schemasAfter state.cache.asText (state.cache.schemas? id) message
      else
        state.cache.schemas? id := by
  cases hname : message.subject.identity? with
  | none =>
      rw [(respond_of_nameless settings clock state hname).2]
      simp [Message.names, hname]
  | some found =>
      have hnames : message.names id = decide (found = id) := by
        simp [Message.names, hname]
      rw [hnames]
      cases message with
      | notice notice =>
          rw [Message.subject] at hname
          obtain ⟨hresult, hself, hothers⟩ := Schema.Cache.lookup?_drop state.cache hname
          simp only [respond, Formatter.notice, hresult, schemasAfter]
          by_cases hid : found = id
          · subst hid
            simp [Schema.Cache.schemas?, hself]
          · simp [Schema.Cache.schemas?, hothers id (Ne.symm hid), hid]
      | change change table =>
          rw [Message.subject] at hname
          obtain ⟨-, hself, hothers⟩ :=
            Schema.Cache.schemas?_request state.cache table hname
          simp only [respond, state_cache_format, schemasAfter]
          by_cases hid : found = id
          · subst hid
            simpa [Schema.Cache.provided] using hself
          · simpa [hid] using hothers id (Ne.symm hid)

theorem hasKey?_respond
    (settings : Settings)
    (clock : Clock)
    (state : Formatter)
    (message : Message)
    (id : Identity) :
    (respond settings clock state message).2.cache.hasKey? id =
      if message.names id then
        keyAfter (state.cache.hasKey? id) message
      else
        state.cache.hasKey? id := by
  rw [Schema.Cache.hasKey?_eq, schemas?_respond, Schema.Cache.hasKey?_eq,
    ← map_hasKey_schemasAfter]
  split <;> rfl

/-- What is kept stays kept by a message that does not drop it. -/
theorem schemas?_respond_of_kept
    {schemas : Schema.Schemas}
    (clock : Clock)
    (h : state.cache.schemas? id = some schemas)
    (hkept : ¬message.Drops id) :
    (respond settings clock state message).2.cache.schemas? id = some schemas := by
  rw [schemas?_respond]
  split
  · next hnames =>
      cases message with
      | notice notice => exact absurd (Message.names_iff.1 hnames) hkept
      | change change table =>
          rw [schemasAfter, h]
          rfl
  · exact h

/-- What is kept stays kept while no message drops it. -/
theorem schemas?_stateAfter_of_kept
    {schemas : Schema.Schemas}
    {messages : List Message}
    (h : state.cache.schemas? id = some schemas)
    (hkept : ∀ message ∈ messages, ¬message.Drops id) :
    (Session.stateAfter (respond settings clock) state messages).cache.schemas? id =
      some schemas := by
  induction messages generalizing state with
  | nil => exact h
  | cons message rest ih =>
      rw [List.forall_mem_cons] at hkept
      exact ih (schemas?_respond_of_kept clock h hkept.1) hkept.2

/-- The schemas that a change was given are kept under the name of its table. -/
theorem schemas?_respond_of_request
    {table : Table}
    {build : Schema.Build}
    (clock : Clock)
    (change : Change)
    (hrequest : (state.cache.request table.name table).result = .ok build) :
    ∃ id,
      table.name.identity? = some id ∧
      (respond settings clock state (.change change table)).2.cache.schemas? id =
        some build.schemas := by
  obtain ⟨id, hname, hlookup⟩ := Schema.Cache.lookup?_request hrequest
  refine ⟨id, hname, ?_⟩
  simp only [respond, state_cache_format, Schema.Cache.schemas?, hlookup]
  rfl

/--
A message takes `n` stamps of every formatter in which what is kept under the name
is known to have a key or not, and responses differ in the stamps of records alone.
-/
structure TakesOn
    (settings : Settings)
    (clock : Clock)
    (id : Identity)
    (key? : Option Bool)
    (message : Message)
    (n : Nat) : Prop where
  lasts :
    ∀ state : Formatter,
      state.cache.hasKey? id = key? →
      (respond settings clock state message).1 ≠ .error .exhausted →
      state.stamps.Gives clock n
  left :
    ∀ state : Formatter,
      state.cache.hasKey? id = key? →
      state.stamps.Gives clock n →
      (respond settings clock state message).2.stamps = state.stamps.later clock n
  alike :
    ∀ state other : Formatter,
      state.cache.hasKey? id = key? →
      other.cache.hasKey? id = key? →
      state.stamps.Gives clock n →
      other.stamps.Gives clock n →
      LooksAlike Emitted.unstamped
        (respond settings clock state message).1
        (respond settings clock other message).1

theorem exists_takesOn
    (settings : Settings)
    (clock : Clock)
    (key? : Option Bool)
    (hname : message.subject.identity? = some id) :
    ∃ n, TakesOn settings clock id key? message n := by
  obtain ⟨n, htakes⟩ := exists_takes_made settings clock key? message
  refine ⟨n, ?_, ?_, ?_⟩
  · rintro state rfl hlasts
    rw [(respond_of_named settings clock state hname).1] at hlasts
    exact htakes.lasts _ hlasts
  · rintro state rfl hgives
    rw [(respond_of_named settings clock state hname).2]
    exact htakes.left _ hgives
  · rintro state other rfl hkey hgives hgives'
    rw [(respond_of_named settings clock state hname).1,
      (respond_of_named settings clock other hname).1, hkey]
    exact htakes.alike _ _ hgives hgives'

/-- A message takes stamps from the sequence, if it takes any. -/
theorem outlasts_respond
    (hlasts : (respond settings clock state message).1 ≠ .error .exhausted) :
    Outlasts clock state.stamps (respond settings clock state message).2.stamps := by
  cases hname : message.subject.identity? with
  | none =>
      rw [(respond_of_nameless settings clock state hname).2]
      exact .refl clock state.stamps
  | some id =>
      obtain ⟨n, htakes⟩ := exists_takesOn settings clock (state.cache.hasKey? id) hname
      have hgives := htakes.lasts state rfl hlasts
      rw [htakes.left state rfl hgives]
      exact Stamps.outlasts_later hgives

/-- Whether anything is kept under a name shows in whether what is kept has a key. -/
theorem contains_eq_of_hasKey?
    {cache cache' : Schema.Cache}
    {name : Json}
    (hname : name.identity? = some id)
    (h : cache.hasKey? id = cache'.hasKey? id) :
    cache.contains name = cache'.contains name := by
  have hkept := congrArg Option.isSome h
  simp only [Schema.Cache.hasKey?, Option.isSome_map] at hkept
  simp only [Schema.Cache.contains, hname, hkept]

/-- Formatters that agree on what is kept under one name, the second with stamps as lasting. -/
structure AlikeOn
    (clock : Clock)
    (id : Identity)
    (state other : Formatter) : Prop where
  keys : state.cache.hasKey? id = other.cache.hasKey? id
  stamps : Outlasts clock other.stamps state.stamps

theorem AlikeOn.refl (clock : Clock) (id : Identity) (state : Formatter) :
    AlikeOn clock id state state :=
  ⟨rfl, .refl clock state.stamps⟩

/-- Formatters alike on one name are alike on it after a message to both. -/
theorem AlikeOn.keys_respond
    (settings : Settings)
    (message : Message)
    (h : AlikeOn clock id state other) :
    (respond settings clock state message).2.cache.hasKey? id =
      (respond settings clock other message).2.cache.hasKey? id := by
  rw [hasKey?_respond, hasKey?_respond, h.keys]

theorem AlikeOn.respond_named
    (h : AlikeOn clock id state other)
    (hname : message.subject.identity? = some id)
    (hlasts : (respond settings clock state message).1 ≠ .error .exhausted) :
    LooksAlike Emitted.unstamped
        (respond settings clock state message).1
        (respond settings clock other message).1 ∧
      AlikeOn clock id
        (respond settings clock state message).2
        (respond settings clock other message).2 := by
  obtain ⟨n, htakes⟩ := exists_takesOn settings clock (state.cache.hasKey? id) hname
  have hgives := htakes.lasts state rfl hlasts
  have hgives' := h.stamps n hgives
  refine ⟨htakes.alike state other rfl h.keys.symm hgives hgives', h.keys_respond settings message,
    ?_⟩
  rw [htakes.left state rfl hgives, htakes.left other h.keys.symm hgives']
  exact h.stamps.later hgives

theorem AlikeOn.skip
    (h : AlikeOn clock id state other)
    (hnames : ¬message.names id = true)
    (hlasts : (respond settings clock state message).1 ≠ .error .exhausted) :
    AlikeOn clock id (respond settings clock state message).2 other where
  keys := by
    rw [hasKey?_respond, if_neg hnames, h.keys]
  stamps := h.stamps.trans (outlasts_respond hlasts)

/-- Messages that name different things change what is kept alike in either order. -/
theorem hasKey?_interchange
    {first second : Message}
    (settings : Settings)
    (clock : Clock)
    (state : Formatter)
    (hapart : ¬(first.names id = true ∧ second.names id = true)) :
    (respond settings clock (respond settings clock state first).2 second).2.cache.hasKey? id =
      (respond settings clock (respond settings clock state second).2 first).2.cache.hasKey?
        id := by
  simp only [hasKey?_respond]
  by_cases hfirst : first.names id = true
  · have hsecond : ¬second.names id = true := fun hsecond => hapart ⟨hfirst, hsecond⟩
    simp only [if_pos hfirst, if_neg hsecond]
  · simp only [if_neg hfirst]

/-- Messages that name different things leave formatters alike, in whichever order they come. -/
theorem alikeOn_interchange
    {first second : Message}
    {id' : Identity}
    (hfirst : first.subject.identity? = some id)
    (hsecond : second.subject.identity? = some id')
    (hne : id ≠ id')
    (hlasts : (respond settings clock state first).1 ≠ .error .exhausted)
    (hlasts' :
      (respond settings clock (respond settings clock state first).2 second).1 ≠
        .error .exhausted) :
    (respond settings clock state second).1 ≠ .error .exhausted ∧
      (respond settings clock (respond settings clock state second).2 first).1 ≠
        .error .exhausted ∧
      ∀ found,
        AlikeOn clock found
          (respond settings clock (respond settings clock state first).2 second).2
          (respond settings clock (respond settings clock state second).2 first).2 := by
  have hkey :
      (respond settings clock state first).2.cache.hasKey? id' = state.cache.hasKey? id' := by
    rw [hasKey?_respond, if_neg (by simp [Message.names, hfirst, hne])]
  have hkey' :
      (respond settings clock state second).2.cache.hasKey? id = state.cache.hasKey? id := by
    rw [hasKey?_respond, if_neg (by simp [Message.names, hsecond, hne.symm])]
  -- What the messages look at is the same in both orders, so they take as many stamps.
  obtain ⟨m, hm⟩ := exists_takesOn settings clock (state.cache.hasKey? id) hfirst
  obtain ⟨n, hn⟩ := exists_takesOn settings clock (state.cache.hasKey? id') hsecond
  have hgives := hm.lasts state rfl hlasts
  have hleft := hm.left state rfl hgives
  have hthen := hn.lasts _ hkey hlasts'
  have hboth : state.stamps.Gives clock (n + m) := by
    rw [hleft] at hthen
    rw [Nat.add_comm]
    exact (Stamps.gives_add_iff _ m n).2 ⟨hgives, hthen⟩
  have hgives' := hboth.of_le (Nat.le_add_right n m)
  have hleft' := hn.left state rfl hgives'
  have hthen' : (respond settings clock state second).2.stamps.Gives clock m := by
    rw [hleft']
    exact ((Stamps.gives_add_iff _ n m).1 hboth).2
  refine ⟨?_, ?_, fun found => ⟨?_, ?_⟩⟩
  · exact (hn.alike _ _ hkey rfl hthen hgives').ne_error hlasts'
  · exact (hm.alike _ _ rfl hkey' hgives hthen').ne_error hlasts
  · refine hasKey?_interchange settings clock state fun hnames => hne ?_
    rw [Message.names_iff, Message.names_iff, hfirst, hsecond] at hnames
    exact (Option.some.inj hnames.1).trans (Option.some.inj hnames.2).symm
  · rw [hn.left _ hkey hthen, hm.left _ hkey' hthen', hleft, hleft', ← Stamps.later_add,
      ← Stamps.later_add, Nat.add_comm]
    exact .refl clock _

end Respond

end Formatter

/-- What shows of a message: its result, stamps aside, and whether what it names is then kept. -/
structure Effect where
  result : Except Failure (List Emitted)
  kept : Except Fault Bool

namespace Session

open Formatter (respond AlikeOn)

variable {settings : Settings}
variable {clock : Clock}
variable {id : Identity}
variable {state other : Formatter}
variable {messages : List Message}

/-- The effect of a message. -/
def effect
    (settings : Settings)
    (clock : Clock)
    (state : Formatter)
    (message : Message) : Effect where
  result := (respond settings clock state message).1.map (List.map Emitted.unstamped)
  kept := (respond settings clock state message).2.cache.contains message.subject

/-- The effects of those messages of a session that name what an identity stands for. -/
def effects
    (settings : Settings)
    (clock : Clock)
    (id : Identity)
    (state : Formatter) : List Message → List Effect
  | [] => []
  | message :: rest =>
      let others := effects settings clock id (respond settings clock state message).2 rest
      if message.names id then effect settings clock state message :: others else others

/-- No message of a session fails for want of a stamp. -/
def Lasts
    (settings : Settings)
    (clock : Clock)
    (state : Formatter) : List Message → Prop
  | [] => True
  | message :: rest =>
      (respond settings clock state message).1 ≠ .error .exhausted ∧
        Lasts settings clock (respond settings clock state message).2 rest

/-- Of what shows of the messages of one name, nothing comes from the others. -/
theorem effects_filter
    (halike : AlikeOn clock id state other)
    (hlasts : Lasts settings clock state messages) :
    Lasts settings clock other (messages.filter (Message.names id)) ∧
      effects settings clock id other (messages.filter (Message.names id)) =
        effects settings clock id state messages := by
  induction messages generalizing state other with
  | nil => exact ⟨trivial, rfl⟩
  | cons message rest ih =>
      obtain ⟨hfirst, hrest⟩ := hlasts
      by_cases hnames : message.names id = true
      · have hname := Message.names_iff.1 hnames
        obtain ⟨hresult, hnext⟩ := halike.respond_named hname hfirst
        obtain ⟨hlasts', heffects⟩ := ih hnext hrest
        have heffect :
            effect settings clock other message = effect settings clock state message := by
          rw [effect, effect, hresult.symm,
            Formatter.contains_eq_of_hasKey? hname hnext.keys]
        rw [List.filter_cons_of_pos hnames]
        refine ⟨⟨hresult.ne_error hfirst, hlasts'⟩, ?_⟩
        simp only [effects, hnames, if_true, heffect, heffects]
      · rw [List.filter_cons_of_neg hnames]
        simp only [effects, if_neg hnames]
        exact ih (halike.skip hnames hfirst) hrest

/-- A formatter that is alike on all names, with stamps as lasting, lasts for the same messages. -/
theorem Lasts.of_alikeOn
    (halike : ∀ id, AlikeOn clock id state other)
    (h : Lasts settings clock state messages) :
    Lasts settings clock other messages := by
  induction messages generalizing state other with
  | nil => trivial
  | cons message rest ih =>
      obtain ⟨hfirst, hrest⟩ := h
      cases hname : message.subject.identity? with
      | none =>
          obtain ⟨-, hstate⟩ := Formatter.respond_of_nameless settings clock state hname
          obtain ⟨hother, hstate'⟩ := Formatter.respond_of_nameless settings clock other hname
          refine ⟨hother, ih (fun id => ?_) hrest⟩
          rw [hstate, hstate']
          exact halike id
      | some id =>
          obtain ⟨hresult, hnext⟩ := (halike id).respond_named hname hfirst
          refine ⟨hresult.ne_error hfirst, ih (fun found => ⟨?_, hnext.stamps⟩) hrest⟩
          exact (halike found).keys_respond settings message

/-- Sessions last in either order of neighbours that name different things. -/
theorem Lasts.interchange
    {first second : Message}
    {id' : Identity}
    {before after : List Message}
    (hfirst : first.subject.identity? = some id)
    (hsecond : second.subject.identity? = some id')
    (hne : id ≠ id')
    (h : Lasts settings clock state (before ++ first :: second :: after)) :
    Lasts settings clock state (before ++ second :: first :: after) := by
  induction before generalizing state with
  | nil =>
      obtain ⟨hlasts, hlasts', hrest⟩ := h
      obtain ⟨hlasts₂, hlasts₁, halike⟩ :=
        Formatter.alikeOn_interchange hfirst hsecond hne hlasts hlasts'
      exact ⟨hlasts₂, hlasts₁, hrest.of_alikeOn halike⟩
  | cons message before ih => exact ⟨h.1, ih h.2⟩

/--
In a session in which there are stamps for all messages, those of any name come to
the same as in the session of these messages alone: they succeed or fail alike, with
the same records and keys but for the stamps, and leave the table kept or not. So
messages that name different tables may change places.
-/
theorem effects_independent
    (settings : Settings)
    (clock : Clock)
    (state : Formatter)
    (messages : List Message)
    (hlasts : Lasts settings clock state messages) :
    (∀ id,
      Lasts settings clock state (messages.filter (Message.names id)) ∧
      effects settings clock id state (messages.filter (Message.names id)) =
        effects settings clock id state messages)
      ∧
    ∀ before first second after id id',
      messages = before ++ first :: second :: after →
      first.subject.identity? = some id →
      second.subject.identity? = some id' →
      id ≠ id' →
      Lasts settings clock state (before ++ second :: first :: after) ∧
      ∀ found,
        effects settings clock found state (before ++ second :: first :: after) =
          effects settings clock found state messages := by
  refine ⟨fun id => effects_filter (.refl clock id state) hlasts, ?_⟩
  rintro before first second after id id' rfl hfirst hsecond hne
  have hlasts' := hlasts.interchange hfirst hsecond hne
  refine ⟨hlasts', fun found => ?_⟩
  -- At most one of the two names what is looked for, so the others leave the same messages.
  have hfilter :
      (before ++ second :: first :: after).filter (Message.names found) =
        (before ++ first :: second :: after).filter (Message.names found) := by
    have hone : first.names found = false ∨ second.names found = false := by
      simp only [Message.names, hfirst, hsecond, decide_eq_false_iff_not, Option.some.injEq]
      by_contra hboth
      rw [not_or, not_not, not_not] at hboth
      exact hne (hboth.1.trans hboth.2.symm)
    rcases hone with hother | hother <;> simp [List.filter_append, List.filter_cons, hother]
  calc
    effects settings clock found state (before ++ second :: first :: after)
      = effects settings clock found state
          ((before ++ second :: first :: after).filter (Message.names found)) :=
        (effects_filter (.refl clock found state) hlasts').2.symm
    _ = effects settings clock found state
          ((before ++ first :: second :: after).filter (Message.names found)) := by
        rw [hfilter]
    _ = effects settings clock found state (before ++ first :: second :: after) :=
        (effects_filter (.refl clock found state) hlasts).2

/-- An item is renumbered, which is refused, a parcel is sent, and an item arrives. -/
def shop : List Message :=
  [.change Item.renumbered Item.table, .change Parcel.sent Parcel.table,
    .change Item.arrived Item.priced]

/-- Items come to the same without the parcel, and with the parcel sent before them. -/
theorem effects_independent_shop :
    Lasts {} Item.clock {} shop ∧
      (effects {} Item.clock (.text "SHOP.ITEMS") {} shop).map (fun effect => effect.result.isOk) =
        [false, true] ∧
      effects {} Item.clock (.text "SHOP.ITEMS") {}
          [.change Item.renumbered Item.table, .change Item.arrived Item.priced] =
        effects {} Item.clock (.text "SHOP.ITEMS") {} shop ∧
      effects {} Item.clock (.text "SHOP.PARCELS") {}
          [.change Parcel.sent Parcel.table, .change Item.renumbered Item.table,
            .change Item.arrived Item.priced] =
        effects {} Item.clock (.text "SHOP.PARCELS") {} shop := by
  have hne :
      ∀ result : Except Failure (List Emitted),
        result.isOk = true → result ≠ .error .exhausted := by
    rintro (failure | pairs) hok
    · contradiction
    · exact nofun
  have hrefused :
      ∃ reason name kind,
        (respond {} Item.clock {} (.change Item.renumbered Item.table)).1 =
          .error (.fatal reason name kind) :=
    ⟨_, _, _, rfl⟩
  have hlasts : Lasts {} Item.clock {} shop := by
    refine ⟨?_, hne _ (by decide +kernel), hne _ (by decide +kernel), trivial⟩
    obtain ⟨reason, name, kind, hresult⟩ := hrefused
    rw [hresult]
    exact nofun
  have hindependent := effects_independent {} Item.clock {} shop hlasts
  refine ⟨hlasts, by decide +kernel, (hindependent.1 (.text "SHOP.ITEMS")).2, ?_⟩
  exact
    (hindependent.2 [] _ _ _ (.text "SHOP.ITEMS") (.text "SHOP.PARCELS") rfl rfl rfl
      (by decide)).2 _

end Session
end ChangeFeed
