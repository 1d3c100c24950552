import ChangeFeed.Proofs.Feed.Endings
import ChangeFeed.Proofs.Session.Simulation

/-!
# The schema cache cannot be noticed

As long as the changes of a table describe the same columns until a notice names
the table, it makes no difference whether its schemas are kept: what is kept under
a name is what the next change of that name would build. The invariant looks ahead
to the messages still to come, since what a cache holds for a table matters only
to the changes of it before the next notice.

**Results.**

* `simulation_respondAfresh`: the formatter is simulated by one that keeps no schemas.
* `transparent`: sessions and feeds are the same without a cache.
-/

namespace ChangeFeed

/-- What a message names: the table of its change, or the object of its notice. -/
def Message.subject : Message → Json
  | .notice given => given.objectName
  | .change _ table => table.name

namespace Message

/-- The changes of a table describe the same columns as long as no notice between them names it. -/
def Consistent (messages : List Message) : Prop :=
  ∀ before first table between second other after,
    messages = before ++ .change first table :: (between ++ .change second other :: after) →
    table.name.identity? = other.name.identity? →
    (∀ notice, .notice notice ∈ between →
      notice.objectName.identity? ≠ table.name.identity?) →
    table.columns = other.columns

/-- Every message names something that can be looked up, as all texts can. -/
def Named (messages : List Message) : Prop :=
  ∀ message ∈ messages, ∃ id, message.subject.identity? = some id

theorem consistent_nil : Consistent [] := by
  intro before first table between second other after heq
  simp at heq

/-- A message in front matters only to the changes of its table up to the next notice. -/
theorem consistent_cons
    {message : Message}
    {rest : List Message}
    (hfirst :
      ∀ first table between second other after,
        message = .change first table →
        rest = between ++ .change second other :: after →
        table.name.identity? = other.name.identity? →
        (∀ notice, .notice notice ∈ between →
          notice.objectName.identity? ≠ table.name.identity?) →
        table.columns = other.columns)
    (hrest : Consistent rest) :
    Consistent (message :: rest) := by
  intro before first table between second other after heq hname hnotices
  cases before with
  | nil =>
      obtain ⟨rfl, rfl⟩ := List.cons.inj heq
      exact hfirst first table between second other after rfl rfl hname hnotices
  | cons earlier before =>
      obtain ⟨rfl, rfl⟩ := List.cons.inj heq
      exact hrest before first table between second other after rfl hname hnotices

theorem Consistent.tail
    {message : Message}
    {rest : List Message}
    (h : Consistent (message :: rest)) :
    Consistent rest := by
  intro before first table between second other after heq
  exact h (message :: before) first table between second other after (by rw [heq]; rfl)

end Message

namespace Schema.Cache

/-- What is kept under a name is what its changes would build, up to a notice that names it. -/
def Current
    (asText : Bool)
    (cache : Cache)
    (messages : List Message) : Prop :=
  ∀ id build before change table after,
    cache.lookup? id = some build →
    messages = before ++ .change change table :: after →
    table.name.identity? = some id →
    (∀ notice, .notice notice ∈ before → notice.objectName.identity? ≠ some id) →
    Schemas.ofTable asText table = .ok build.schemas

section Current

variable {asText : Bool}
variable {cache : Cache}
variable {rest : List Message}

theorem current_start
    (settings : Settings)
    (messages : List Message) :
    Current asText (Formatter.start settings).cache messages := by
  intro id build before change table after hkept
  contradiction

/-- A change takes nothing away from what is known of the changes after it. -/
theorem Current.of_change
    {change : Change}
    {table : Table}
    (h : Current asText cache (.change change table :: rest)) :
    Current asText cache rest := by
  intro id build before second other after hkept heq hname hnotices
  refine h id build (.change change table :: before) second other after hkept ?_ hname ?_
  · rw [heq]
    rfl
  · intro notice hmem
    simp only [List.mem_cons, reduceCtorEq, false_or] at hmem
    exact hnotices notice hmem

theorem Current.drop
    {notice : Formatter.Notice}
    {id : Identity}
    (h : Current asText cache (.notice notice :: rest))
    (hname : notice.objectName.identity? = some id) :
    Current asText (cache.drop notice.objectName).cache rest := by
  obtain ⟨-, hdropped, hkept⟩ := lookup?_drop cache hname
  intro other build before change table after hfound heq htable hnotices
  have hne : other ≠ id := by
    rintro rfl
    rw [hdropped] at hfound
    contradiction
  rw [hkept other hne] at hfound
  refine h other build (.notice notice :: before) change table after hfound ?_ htable ?_
  · rw [heq]
    rfl
  · intro earlier hmem
    simp only [List.mem_cons, Message.notice.injEq] at hmem
    rcases hmem with rfl | hmem
    · rw [hname]
      exact fun heq => hne (Option.some.inj heq).symm
    · exact hnotices earlier hmem

/-- A request keeps what is current, and returns what its own table would build. -/
theorem Current.request
    {change : Change}
    {table : Table}
    {id : Identity}
    (h : Current cache.asText cache (.change change table :: rest))
    (hconsistent : Message.Consistent (.change change table :: rest))
    (hname : table.name.identity? = some id) :
    Current cache.asText (cache.request table.name table).cache rest ∧
      ((cache.request table.name table).result.map Build.schemas =
        Schemas.ofTable cache.asText table) := by
  have hrequested := requested_request cache table.name table
  generalize cache.request table.name table = step at *
  cases hrequested with
  | nameless hnone =>
      rw [hname] at hnone
      contradiction
  | @kept kept build hkeptName hkept =>
      have htable :=
        h kept build [] change table rest hkept rfl hkeptName (by simp)
      exact ⟨h.of_change, htable.symm⟩
  | unbuildable _ _ htable => exact ⟨h.of_change, htable.symm⟩
  | @built found schemas hfoundName habsent htable =>
      refine ⟨?_, htable.symm⟩
      intro other build before second later after hfound heq hlater hnotices
      by_cases hother : other = found
      · -- The new build; the next change of the table describes the same columns.
        subst hother
        rw [lookup_insert_self cache other schemas habsent] at hfound
        cases hfound
        have hcolumns : table.columns = later.columns := by
          refine hconsistent [] change table before second later after (by rw [heq]; rfl) ?_ ?_
          · rw [hfoundName, hlater]
          · rw [hfoundName]
            exact hnotices
        rw [← Schemas.ofTable_congr cache.asText hcolumns, htable]
      · rw [lookup_insert_of_ne cache found other schemas hother] at hfound
        exact h.of_change other build before second later after hfound heq hlater hnotices

end Current

end Schema.Cache

namespace Formatter

/-- With the schemas that its own table builds, a change is formatted as without a cache. -/
theorem format_eq_formatAfresh
    {settings : Settings}
    {state : Formatter}
    {table : Table}
    (clock : Clock)
    (change : Change)
    (h :
      (state.cache.request table.name table).result.map Schema.Build.schemas =
        Schema.Schemas.ofTable settings.asText table) :
    ((format settings clock state change table).result,
        (format settings clock state change table).state.stamps) =
      formatAfresh settings clock state.stamps change table := by
  unfold formatAfresh
  rw [← h]
  cases hrequest : (state.cache.request table.name table).result with
  | error fault =>
      obtain ⟨hresult, hstate⟩ := format_of_request_error settings clock change hrequest
      rw [hresult, hstate]
      rfl
  | ok build =>
      obtain ⟨hresult, hstate⟩ := format_of_request_ok settings clock change hrequest
      rw [hresult, hstate]
      rfl

theorem state_cache_format
    (settings : Settings)
    (clock : Clock)
    (state : Formatter)
    (change : Change)
    (table : Table) :
    (format settings clock state change table).state.cache =
      (state.cache.request table.name table).cache := by
  cases hrequest : (state.cache.request table.name table).result with
  | error fault =>
      rw [(format_of_request_error settings clock change hrequest).2]
      exact (Schema.Cache.cache_request_of_error hrequest).symm
  | ok build => rw [(format_of_request_ok settings clock change hrequest).2]

/-- Responding to a message leaves the way in which schemas are built. -/
theorem asText_respond
    (settings : Settings)
    (clock : Clock)
    (state : Formatter)
    (message : Message) :
    (respond settings clock state message).2.cache.asText = state.cache.asText := by
  cases message with
  | change change table => exact asText_format
  | notice notice =>
      simp only [respond]
      cases (state.notice notice).result <;> exact asText_notice notice

theorem asText_stateAfter
    (settings : Settings)
    (clock : Clock)
    (state : Formatter)
    (messages : List Message) :
    (Session.stateAfter (respond settings clock) state messages).cache.asText =
      state.cache.asText := by
  induction messages generalizing state with
  | nil => rfl
  | cons message rest ih => exact (ih _).trans (asText_respond settings clock state message)

/-- A formatter and the stamps it has given, when what it keeps is current. -/
structure Mirrors
    (settings : Settings)
    (state : Formatter)
    (stamps : Stamps)
    (messages : List Message) : Prop where
  stamps_eq : state.stamps = stamps
  own : state.Own settings
  current : state.cache.Current settings.asText messages
  consistent : Message.Consistent messages
  named : Message.Named messages

theorem simulation_respondAfresh
    (settings : Settings)
    (clock : Clock) :
    Simulation id (respond settings clock) (respondAfresh settings clock)
      (Mirrors settings) := by
  have hstep :
      ∀ state stamps message rest,
        Mirrors settings state stamps (message :: rest) →
        (respond settings clock state message).1 =
            (respondAfresh settings clock stamps message).1 ∧
          Mirrors settings (respond settings clock state message).2
            (respondAfresh settings clock stamps message).2 rest := by
    rintro state stamps message rest ⟨rfl, hown, hcurrent, hconsistent, hnamed⟩
    obtain ⟨id, hid⟩ := hnamed message (List.mem_cons_self ..)
    unfold Message.subject at hid
    have hrest : Message.Named rest :=
      fun later hmem => hnamed later (List.mem_cons_of_mem _ hmem)
    cases message with
    | notice notice =>
        obtain ⟨hresult, -⟩ := Schema.Cache.lookup?_drop state.cache hid
        have hcurrent' := hcurrent.drop hid
        simp only [respond, respondAfresh, Formatter.notice, hresult]
        exact ⟨trivial, rfl, (asText_notice notice).trans hown, hcurrent', hconsistent.tail, hrest⟩
    | change change table =>
        rw [← hown] at hcurrent
        obtain ⟨hcurrent', hbuild⟩ := hcurrent.request hconsistent hid
        rw [hown] at hcurrent' hbuild
        have hformat := format_eq_formatAfresh clock change hbuild
        obtain ⟨hresult, hstamps⟩ := Prod.mk.inj hformat
        simp only [respond, respondAfresh]
        refine ⟨hresult, hstamps, asText_format.trans hown, ?_, hconsistent.tail, hrest⟩
        rw [state_cache_format]
        exact hcurrent'
  exact
    { alike := fun state stamps message rest h =>
        (looksAlike_id_iff _ _).2 (hstep state stamps message rest h).1
      next := fun state stamps message rest h => (hstep state stamps message rest h).2 }

end Formatter

/--
Where the changes of a table describe the same columns until a notice names it, a
session with a new formatter gets the answers, and a feed has the output and the
ending, that they have where no schemas are kept.
-/
theorem Formatter.transparent
    (settings : Settings)
    (clock : Clock) :
    (∀ (containers : String → Container) (calls : List Call),
      Message.Named (calls.map Call.message) →
      Message.Consistent (calls.map Call.message) →
      Session.answers (respond settings clock) (start settings) containers calls =
        Session.answers (respondAfresh settings clock) {} containers calls)
      ∧
    (∀ (warnings : List PolicyWarning) (text : String),
      Message.Named (Feed.messagesOf (Feed.splitLines text.toList)) →
      Message.Consistent (Feed.messagesOf (Feed.splitLines text.toList)) →
      ((Feed.run settings warnings clock text).output,
          (Feed.run settings warnings clock text).ending) =
        Feed.follow (respondAfresh settings clock) {} 1 (Feed.splitLines text.toList)) := by
  have hsimulation := simulation_respondAfresh settings clock
  have hstart :
      ∀ messages,
        Message.Named messages →
        Message.Consistent messages →
        Mirrors settings (start settings) {} messages :=
    fun messages hnamed hconsistent =>
      ⟨rfl, own_start settings, Schema.Cache.current_start settings _, hconsistent, hnamed⟩
  constructor
  · intro containers calls hnamed hconsistent
    have hsame : ∀ name, (containers name).seen id = (containers name).seen id := fun _ => rfl
    have hanswers := hsimulation.answers_seen calls (hstart _ hnamed hconsistent) hsame
    simpa using hanswers
  · intro warnings text hnamed hconsistent
    rw [← hsimulation.follow_eq 1 _ (hstart _ hnamed hconsistent)]
    exact (Feed.follow_respond settings clock { state := start settings } _).symm

namespace Item

/-- The table of items after prices were added. -/
def priced : Table :=
  ⟨.text "SHOP.ITEMS",
    [⟨.text "ID", 4, true⟩, ⟨.text "NAME", 12, false⟩, ⟨.text "PRICE", 2, false⟩]⟩

/-- A new item with a price. -/
def arrived : Change where
  kind := .insert
  code := "I"
  table := .text "SHOP.ITEMS"
  columns := [⟨.absent, .captured "3"⟩, ⟨.absent, .captured "desk"⟩, ⟨.absent, .captured "0.5"⟩]
  time := "2026-10-17 09:15:03"
  position := "8"
  tokens := []

/-- An item is renumbered, prices are added, and an item arrives. -/
def calls : List Call :=
  [.format renumbered table "out", .notify ⟨.text "TABLE", .text "SHOP.ITEMS", .text ""⟩,
    .format arrived priced "out"]

theorem named_calls : Message.Named (calls.map Call.message) := by
  intro message hmem
  simp only [calls, List.map_cons, List.map_nil, Call.message, List.mem_cons,
    List.not_mem_nil, or_false] at hmem
  rcases hmem with rfl | rfl | rfl <;> exact ⟨_, rfl⟩

/-- The table differs only after the notice. -/
theorem consistent_calls : Message.Consistent (calls.map Call.message) := by
  refine Message.consistent_cons ?_ (Message.consistent_cons ?_
    (Message.consistent_cons ?_ Message.consistent_nil))
  · intro first described between second other after hfirst hrest hname hnotices
    cases hfirst
    cases between with
    | nil => simp [Call.message] at hrest
    | cons message between =>
        obtain ⟨rfl, -⟩ := List.cons.inj hrest
        exact absurd rfl (hnotices _ (List.mem_cons_self ..))
  · intro first described between second other after hfirst
    contradiction
  · intro first described between second other after hfirst hrest
    simp at hrest

end Item

namespace Feed

/-- Whether a message is a change of the table `T` without columns. -/
def isBare : Message → Bool
  | .change _ table => table.textName? == some "T" && table.columns.isEmpty
  | .notice _ => false

theorem eq_of_isBare
    {message : Message}
    (h : isBare message = true) :
    ∃ change, message = .change change ⟨.text "T", []⟩ := by
  cases message with
  | notice notice => contradiction
  | change change table =>
      obtain ⟨name, columns⟩ := table
      simp only [isBare, Bool.and_eq_true, beq_iff_eq, List.isEmpty_iff] at h
      obtain ⟨hname, rfl⟩ := h
      cases name with
      | text s =>
          cases hname
          exact ⟨change, rfl⟩
      | _ => contradiction

/-- The third line is no message, and the others are changes of one table. -/
theorem exists_of_mem_haltingText
    {message : Message}
    (h : message ∈ messagesOf (splitLines haltingText.toList)) :
    ∃ change, message = .change change ⟨.text "T", []⟩ := by
  have hall : (messagesOf (splitLines haltingText.toList)).all isBare = true := by
    decide +kernel
  exact eq_of_isBare (List.all_eq_true.1 hall message h)

theorem named_haltingText :
    Message.Named (messagesOf (splitLines haltingText.toList)) := by
  intro message hmem
  obtain ⟨change, rfl⟩ := exists_of_mem_haltingText hmem
  exact ⟨_, rfl⟩

theorem consistent_haltingText :
    Message.Consistent (messagesOf (splitLines haltingText.toList)) := by
  intro before first table between second other after heq hname hnotices
  have hfirst :
      Message.change first table ∈ messagesOf (splitLines haltingText.toList) := by
    rw [heq]
    simp
  have hsecond :
      Message.change second other ∈ messagesOf (splitLines haltingText.toList) := by
    rw [heq]
    simp
  obtain ⟨change, hchange⟩ := exists_of_mem_haltingText hfirst
  obtain ⟨change', hchange'⟩ := exists_of_mem_haltingText hsecond
  cases hchange
  cases hchange'
  rfl

end Feed

/-- A table may change in a session if a notice says so, and a feed may halt. -/
theorem Formatter.transparent_items :
    (Message.Named (Item.calls.map Call.message) ∧
      Message.Consistent (Item.calls.map Call.message) ∧
      Session.answers (respond { keyUpdates := .deleteInsert } Item.clock)
          (start { keyUpdates := .deleteInsert }) (fun _ => {}) Item.calls =
        Session.answers (respondAfresh { keyUpdates := .deleteInsert } Item.clock) {}
          (fun _ => {}) Item.calls)
      ∧
    (Message.Named (Feed.messagesOf (Feed.splitLines Feed.haltingText.toList)) ∧
      Message.Consistent (Feed.messagesOf (Feed.splitLines Feed.haltingText.toList)) ∧
      ((Feed.run {} [] Item.clock Feed.haltingText).output,
          (Feed.run {} [] Item.clock Feed.haltingText).ending) =
        Feed.follow (respondAfresh {} Item.clock) {} 1
          (Feed.splitLines Feed.haltingText.toList)) :=
  ⟨⟨Item.named_calls, Item.consistent_calls,
      (transparent _ _).1 _ _ Item.named_calls Item.consistent_calls⟩,
    ⟨Feed.named_haltingText, Feed.consistent_haltingText,
      (transparent _ _).2 _ _ Feed.named_haltingText Feed.consistent_haltingText⟩⟩

end ChangeFeed
