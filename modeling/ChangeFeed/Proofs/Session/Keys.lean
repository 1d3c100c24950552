import ChangeFeed.Proofs.Record.Keys
import ChangeFeed.Proofs.Schema.History
import ChangeFeed.Proofs.Session.FailedCall

/-!
# Key records in sessions

Whether the records of a table come with key records depends on the past: on the
first description of the table since it was last dropped whose schemas could be
built, even if the change that brought it has failed. What a key record holds
depends on the change at hand alone: it is that part of its record which the key
columns of the table, as it is described now, have.

**Results.**

* `changedSince_snoc_iff`, `noneBuilt_snoc_iff`, `firstBuilt_snoc_iff`: what one more
  message does to what is told of a name.
* `tells_stateAfter`: what is kept under a name, from the messages so far.
* `keys_of_format`: which of the pairs of a change have key records, and what they hold.
-/

namespace ChangeFeed

namespace Formatter

section Pair

variable {settings : Settings}
variable {change : Change}
variable {table : Table}
variable {columns : List Aligned}
variable {hasKey : Bool}
variable {stamp : Instant}
variable {emission : Emission}
variable {built : Emitted}

/-- A pair has a key record just if there is a key, and that is part of its record. -/
theorem isKeyPart_pair
    (hnames : table.NamesDistinct)
    (halign : align change table = .ok columns)
    (h : pair settings stamp change table columns hasKey emission = .ok built) :
    built.key.isSome = hasKey ∧
      ∀ key,
        built.key = some key →
        built.record.block.IsKeyPart change table built.record.side key := by
  obtain ⟨name, block, -, hblock, hrecord, hkey⟩ := pair_eq_ok h
  rw [hrecord]
  cases hasKey with
  | false =>
      rw [if_neg (by simp)] at hkey
      simp [hkey]
  | true =>
      rw [if_pos rfl] at hkey
      obtain ⟨key, hsome, hbuild⟩ := hkey
      rw [build_keys hnames halign hblock] at hbuild
      cases hbuild
      rw [hsome]
      refine ⟨rfl, fun found hfound => ?_⟩
      cases hfound
      exact isKeyPart_build hnames halign hblock

end Pair

end Formatter

namespace Session

open Formatter (respond schemasAfter)

/-- A change of a table of this name with no notice of the name since; the messages before it. -/
def ChangedSince
    (id : Identity)
    (messages before : List Message)
    (table : Table) : Prop :=
  ∃ change later,
    messages = before ++ .change change table :: later ∧
    table.name.identity? = some id ∧
    ∀ message ∈ later, ¬message.Drops id

/-- No description of a table of this name since the last notice of it can be built. -/
def NoneBuilt
    (asText : Bool)
    (id : Identity)
    (messages : List Message) : Prop :=
  ∀ before table schemas,
    ChangedSince id messages before table → Schema.Schemas.ofTable asText table ≠ .ok schemas

/-- The first description of a table since the last notice of it that can be built, and as what. -/
def FirstBuilt
    (asText : Bool)
    (id : Identity)
    (messages : List Message)
    (table : Table)
    (schemas : Schema.Schemas) : Prop :=
  ∃ before,
    ChangedSince id messages before table ∧
    Schema.Schemas.ofTable asText table = .ok schemas ∧
    NoneBuilt asText id before

section Snoc

variable {asText : Bool}
variable {id : Identity}
variable {messages : List Message}

/-- The last message is such a change itself, or it leaves them as they are unless it drops. -/
theorem changedSince_snoc_iff
    {message : Message}
    {before : List Message}
    {table : Table} :
    ChangedSince id (messages ++ [message]) before table
      ↔
    (∃ change,
      message = .change change table ∧ table.name.identity? = some id ∧ before = messages) ∨
      (ChangedSince id messages before table ∧ ¬message.Drops id) := by
  constructor
  · rintro ⟨change, later, heq, hname, hlater⟩
    rcases eq_append_cons_snoc_iff.1 ⟨later, heq, hlater⟩ with
      ⟨hlast, hbefore⟩ | ⟨⟨later, heq, hlater⟩, hkept⟩
    · exact Or.inl ⟨change, hlast, hname, hbefore⟩
    · exact Or.inr ⟨⟨change, later, heq, hname, hlater⟩, hkept⟩
  · rintro (⟨change, hlast, hname, hbefore⟩ | ⟨⟨change, later, heq, hname, hlater⟩, hkept⟩)
    · obtain ⟨later, heq, hlater⟩ := eq_append_cons_snoc_iff.2 (Or.inl ⟨hlast, hbefore⟩)
      exact ⟨change, later, heq, hname, hlater⟩
    · obtain ⟨later, heq, hlater⟩ :=
        eq_append_cons_snoc_iff.2 (Or.inr ⟨⟨later, heq, hlater⟩, hkept⟩)
      exact ⟨change, later, heq, hname, hlater⟩

theorem noneBuilt_snoc_iff (message : Message) :
    NoneBuilt asText id (messages ++ [message])
      ↔
    (∀ change table,
      message = .change change table →
      table.name.identity? = some id →
      ∀ schemas, Schema.Schemas.ofTable asText table ≠ .ok schemas) ∧
      (¬message.Drops id → NoneBuilt asText id messages) := by
  constructor
  · intro h
    refine ⟨fun change table hmessage hname schemas => ?_,
      fun hkept before table schemas hsince => ?_⟩
    · exact h messages table schemas
        (changedSince_snoc_iff.2 (Or.inl ⟨change, hmessage, hname, rfl⟩))
    · exact h before table schemas (changedSince_snoc_iff.2 (Or.inr ⟨hsince, hkept⟩))
  · rintro ⟨hlast, hearlier⟩ before table schemas hsince
    rcases changedSince_snoc_iff.1 hsince with ⟨change, hmessage, hname, -⟩ | ⟨hsince, hkept⟩
    · exact hlast change table hmessage hname schemas
    · exact hearlier hkept before table schemas hsince

theorem firstBuilt_snoc_iff
    (message : Message)
    (table : Table)
    (schemas : Schema.Schemas) :
    FirstBuilt asText id (messages ++ [message]) table schemas
      ↔
    (∃ change,
      message = .change change table ∧
      table.name.identity? = some id ∧
      Schema.Schemas.ofTable asText table = .ok schemas ∧
      NoneBuilt asText id messages) ∨
      (FirstBuilt asText id messages table schemas ∧ ¬message.Drops id) := by
  constructor
  · rintro ⟨before, hsince, hbuilt, hnone⟩
    rcases changedSince_snoc_iff.1 hsince with ⟨change, hmessage, hname, rfl⟩ | ⟨hsince, hkept⟩
    · exact Or.inl ⟨change, hmessage, hname, hbuilt, hnone⟩
    · exact Or.inr ⟨⟨before, hsince, hbuilt, hnone⟩, hkept⟩
  · rintro (⟨change, hmessage, hname, hbuilt, hnone⟩ | ⟨⟨before, hsince, hfirst⟩, hkept⟩)
    · exact ⟨messages, changedSince_snoc_iff.2 (Or.inl ⟨change, hmessage, hname, rfl⟩), hbuilt,
        hnone⟩
    · exact ⟨before, changedSince_snoc_iff.2 (Or.inr ⟨hsince, hkept⟩), hfirst⟩

end Snoc

/-- What the messages so far tell of a name is what is kept under it. -/
structure Tells
    (asText : Bool)
    (id : Identity)
    (messages : List Message)
    (kept : Option Schema.Schemas) : Prop where
  some_iff :
    ∀ schemas,
      kept = some schemas ↔ ∃ table, FirstBuilt asText id messages table schemas
  none_iff : kept = none ↔ NoneBuilt asText id messages

section Tells

variable {asText : Bool}
variable {id : Identity}
variable {messages : List Message}
variable {kept : Option Schema.Schemas}

theorem tells_nil (asText : Bool) (id : Identity) :
    Tells asText id [] none := by
  have hnone : ∀ before table, ¬ChangedSince id [] before table := by
    rintro before table ⟨change, later, heq, -⟩
    simp at heq
  constructor
  · intro schemas
    constructor
    · intro h
      contradiction
    · rintro ⟨table, before, hsince, -⟩
      exact absurd hsince (hnone before table)
  · exact ⟨fun _ before table schemas hsince => absurd hsince (hnone before table), fun _ => rfl⟩

/-- What messages tell of a name is no different after one that does not name it. -/
theorem Tells.snoc_of_not_names
    {message : Message}
    (h : Tells asText id messages kept)
    (hnames : ¬message.names id = true) :
    Tells asText id (messages ++ [message]) kept := by
  rw [Message.names_iff] at hnames
  have hkept : ¬message.Drops id := by
    cases message with
    | notice notice => exact hnames
    | change change table => exact not_false
  have hchange :
      ∀ change table, message = .change change table → ¬table.name.identity? = some id := by
    rintro change table rfl
    exact hnames
  constructor
  · intro schemas
    rw [h.some_iff]
    refine exists_congr fun table => ?_
    rw [firstBuilt_snoc_iff]
    constructor
    · exact fun hfirst => Or.inr ⟨hfirst, hkept⟩
    · rintro (⟨change, hmessage, hname, -⟩ | ⟨hfirst, -⟩)
      · exact absurd hname (hchange change table hmessage)
      · exact hfirst
  · rw [h.none_iff, noneBuilt_snoc_iff]
    constructor
    · exact fun hnone =>
        ⟨fun change table hmessage hname => absurd hname (hchange change table hmessage),
          fun _ => hnone⟩
    · exact fun hnone => hnone.2 hkept

/-- A change of a table that is told to be kept tells nothing new of it. -/
theorem Tells.snoc_change_of_kept
    {schemas : Schema.Schemas}
    (change : Change)
    (table : Table)
    (h : Tells asText id messages (some schemas)) :
    Tells asText id (messages ++ [.change change table]) (some schemas) := by
  have hsome : ¬NoneBuilt asText id messages := fun hnone => nomatch h.none_iff.2 hnone
  have hkept : ¬(Message.change change table).Drops id := not_false
  constructor
  · intro found
    rw [h.some_iff]
    refine exists_congr fun other => ?_
    simp [firstBuilt_snoc_iff, hsome, hkept]
  · simp [noneBuilt_snoc_iff, hsome, hkept]

/-- A change of a table that is not kept tells what its description builds. -/
theorem Tells.snoc_change_of_absent
    {table : Table}
    (change : Change)
    (h : Tells asText id messages none)
    (hname : table.name.identity? = some id) :
    Tells asText id (messages ++ [.change change table])
      (Schema.Schemas.ofTable asText table).toOption := by
  have hnone := h.none_iff.1 rfl
  have hearlier : ∀ other schemas, ¬FirstBuilt asText id messages other schemas :=
    fun other schemas hfirst => nomatch (h.some_iff schemas).2 ⟨other, hfirst⟩
  cases hbuilt : Schema.Schemas.ofTable asText table with
  | ok schemas =>
      constructor
      · intro found
        simp [Except.toOption, firstBuilt_snoc_iff, hearlier, hname, hbuilt, hnone]
      · simp [Except.toOption, noneBuilt_snoc_iff, hname, hbuilt]
  | error fault =>
      constructor
      · intro found
        simp [Except.toOption, firstBuilt_snoc_iff, hearlier, hbuilt]
      · simp [Except.toOption, noneBuilt_snoc_iff, hbuilt, hnone]

/-- What is kept after one more message is what all of them tell. -/
theorem Tells.snoc
    (message : Message)
    (h : Tells asText id messages kept) :
    Tells asText id (messages ++ [message])
      (if message.names id then schemasAfter asText kept message else kept) := by
  split
  · next hnames =>
      rw [Message.names_iff] at hnames
      cases message with
      | notice notice =>
          have hdrops : (Message.notice notice).Drops id := hnames
          constructor
          · simp [schemasAfter, firstBuilt_snoc_iff, hdrops]
          · simp [schemasAfter, noneBuilt_snoc_iff, hdrops]
      | change change table =>
          cases kept with
          | none => exact h.snoc_change_of_absent change hnames
          | some schemas => exact h.snoc_change_of_kept change table
  · next hnames => exact h.snoc_of_not_names hnames

/-- What a new formatter keeps under a name after messages is what they tell. -/
theorem tells_stateAfter
    (settings : Settings)
    (clock : Clock)
    (id : Identity)
    (messages : List Message) :
    Tells settings.asText id messages
      ((stateAfter (respond settings clock) (.start settings) messages).cache.schemas? id) := by
  induction messages using List.reverseRecOn with
  | nil => exact tells_nil settings.asText id
  | append_singleton messages message ih =>
      rw [stateAfter_snoc, Formatter.schemas?_respond, Formatter.asText_stateAfter]
      exact ih.snoc message

end Tells

/--
In any session, the pairs of a change that was formatted have key records just if
the first description of its table since it was last dropped that could be built,
which is what is kept of the table, has a key column. A key record is that part of
its record which the key columns of the change's own description have. It can be
built whenever the record can.
-/
theorem keys_of_format
    (settings : Settings)
    (clock : Clock)
    (messages : List Message)
    (change : Change)
    (table : Table)
    (pairs : List Emitted)
    (hnames : table.NamesDistinct)
    (hok :
      (Formatter.format settings clock
        (stateAfter (respond settings clock) (.start settings) messages) change table).result =
          .ok pairs) :
    ∃ id,
      table.name.identity? = some id ∧
      (∃ builder schemas,
        FirstBuilt settings.asText id (messages ++ [.change change table]) builder schemas) ∧
      (∀ builder schemas,
        FirstBuilt settings.asText id (messages ++ [.change change table]) builder schemas →
        (stateAfter (respond settings clock) (.start settings)
            (messages ++ [.change change table])).cache.schemas? id = some schemas ∧
        ∀ built ∈ pairs, built.key.isSome = builder.columns.any Column.isKey) ∧
      (∀ built ∈ pairs, ∀ key,
        built.key = some key →
        built.record.block.IsKeyPart change table built.record.side key) ∧
      ∀ columns side block,
        align change table = .ok columns →
        Block.build settings.asText columns side false = .ok block →
        ∃ key,
          Block.buildKey settings.asText columns side = .ok key ∧
          block.IsKeyPart change table side (key.getD []) := by
  obtain ⟨build, columns, hrequest, halign, -, hemit⟩ := Formatter.format_eq_ok hok
  obtain ⟨id, hname, hkept⟩ := Formatter.schemas?_respond_of_request clock change hrequest
  rw [← stateAfter_snoc] at hkept
  have htells := tells_stateAfter settings clock id (messages ++ [.change change table])
  have hpairs :
      ∀ built ∈ pairs,
        built.key.isSome = build.schemas.hasKey ∧
        ∀ key,
          built.key = some key →
          built.record.block.IsKeyPart change table built.record.side key := by
    intro built hmem
    obtain ⟨emission, -, stamp, hpair⟩ :=
      exists_match_of_mem (Formatter.forall₂_emitAll hemit).flip hmem
    exact Formatter.isKeyPart_pair hnames halign hpair
  obtain ⟨builder, hfirst⟩ := (htells.some_iff _).1 hkept
  refine ⟨id, hname, ⟨builder, _, hfirst⟩, fun other schemas hother => ?_,
    fun built hmem => (hpairs built hmem).2,
    fun columns side block halign hbuild => exists_buildKey hnames halign hbuild⟩
  -- Whichever description is said to have built the schemas, they are what is kept.
  have hsame := (htells.some_iff schemas).2 ⟨other, hother⟩
  cases hkept.symm.trans hsame
  obtain ⟨before, -, hschemas, -⟩ := hother
  refine ⟨hkept, fun built hmem => ?_⟩
  rw [(hpairs built hmem).1, Schema.Schemas.hasKey_ofTable _ _ _ hschemas]

end Session

namespace Item

/-- An item that cannot be read, from a table with a key. -/
def unread : List Message :=
  [.change misread priced]

theorem namesDistinct_keyless : keyless.NamesDistinct :=
  ⟨["ID", "NAME", "PRICE"], rfl, by decide⟩

/-- The table with a key is what is kept, even after the table was described without one. -/
theorem firstBuilt_unread :
    Session.FirstBuilt false (.text "SHOP.ITEMS") (unread ++ [.change arrived keyless]) priced
      ⟨[.of "ID" .int32, .of "NAME" .string, .of "PRICE" .float64], some [.of "ID" .int32]⟩ := by
  refine ⟨[], ⟨misread, [.change arrived keyless], rfl, rfl, ?_⟩, rfl, ?_⟩
  · rw [List.forall_mem_singleton]
    exact not_false
  · exact (Session.tells_nil false _).none_iff.1 rfl

end Item

/--
After an item from a table with a key could not be read, an item that comes from
the table described without one gets a key record, with nothing in it.
-/
theorem Session.keys_of_format_unread :
    Item.keyless.NamesDistinct ∧
      ∃ pairs,
        (Formatter.format {} Item.clock
          (stateAfter (Formatter.respond {} Item.clock) (.start {}) Item.unread)
          Item.arrived Item.keyless).result = .ok pairs ∧
        pairs.length = 1 ∧
        ∀ built ∈ pairs, built.key = some [] := by
  obtain ⟨pairs, hok, hlength⟩ :
      ∃ pairs,
        (Formatter.format {} Item.clock
          (stateAfter (Formatter.respond {} Item.clock) (.start {}) Item.unread)
          Item.arrived Item.keyless).result = .ok pairs ∧
        pairs.length = 1 :=
    exists_ok_of_toOption (by decide +kernel)
  obtain ⟨id, hname, -, hkeys, hparts, -⟩ :=
    keys_of_format {} Item.clock Item.unread Item.arrived Item.keyless pairs
      Item.namesDistinct_keyless hok
  cases hname
  obtain ⟨-, hpresent⟩ := hkeys _ _ Item.firstBuilt_unread
  refine ⟨Item.namesDistinct_keyless, pairs, hok, hlength, fun built hmem => ?_⟩
  obtain ⟨key, hkey⟩ := Option.isSome_iff_exists.1 (hpresent built hmem)
  rw [hkey, (hparts built hmem key hkey).eq_nil_iff.2 ?_]
  intro i column images hcolumn _ hmarked
  have hall : ∀ column ∈ Item.keyless.columns, column.isKey = false := by simp [Item.keyless]
  rw [hall column (List.mem_of_getElem? hcolumn)] at hmarked
  contradiction

end ChangeFeed
