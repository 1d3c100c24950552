import ChangeFeed.Proofs.Formatter.Emission

/-!
# What a formatted change leaves in its container

The router's contract: an insert and an update carry the row after the change, a
delete the row before it, each under its own operation key; an update of key
columns is one of these, or a delete and an insert, as the policy says. A
container holds the records so prescribed and nothing of what it held before.

**Results.**

* `prescribed_formatInto`: a change that succeeds leaves what is prescribed.
-/

namespace ChangeFeed
namespace Formatter

/--
What a pair carries for an operation key and a side: the metadata of the change,
the fields of that side and no block for the other, and the key fields of the
same side if the schemas have a key.
-/
structure Carries
    (settings : Settings)
    (change : Change)
    (table : Table)
    (hasKey : Bool)
    (operationKey : Json)
    (side : Side)
    (built : Emitted) : Prop where
  table_eq : table.name = .text built.record.table
  key_eq : built.record.key = operationKey
  time_eq : built.record.time = change.time
  position_eq : built.record.position = change.position
  keyNames_eq :
    built.record.keyNames = if settings.withKeyNames then some table.keyNames else none
  tokens_eq :
    built.record.tokens = if settings.withTokens then some change.tokens else none
  fields :
    ∃ block,
      built.record.on side = some block ∧
      change.IsSide settings.asText table side false block
  otherSide : ∀ other, other ≠ side → built.record.on other = none
  keyFields :
    if hasKey then
      ∃ key,
        built.key = some key ∧
        change.IsSide settings.asText table side true key
    else
      built.key = none

/-- The container that a change calls for; a change that no case covers calls for none. -/
inductive Prescribed
    (settings : Settings)
    (change : Change)
    (table : Table)
    (hasKey : Bool) :
    Container → Prop
  | insert
      {built : Emitted}
      (hkind : change.kind = .insert)
      (hbuilt : Carries settings change table hasKey settings.insertKey .after built) :
      Prescribed settings change table hasKey ⟨some built, none⟩
  | delete
      {built : Emitted}
      (hkind : change.kind = .delete)
      (hbuilt : Carries settings change table hasKey settings.deleteKey .before built) :
      Prescribed settings change table hasKey ⟨some built, none⟩
  | update
      {built : Emitted}
      (hkind : change.kind = .update)
      (hbuilt : Carries settings change table hasKey settings.updateKey .after built) :
      Prescribed settings change table hasKey ⟨some built, none⟩
  | keyUpdate
      {built : Emitted}
      (hkind : change.kind = .keyUpdate)
      (hpolicy : settings.keyUpdates = .update)
      (hbuilt : Carries settings change table hasKey settings.updateKey .after built) :
      Prescribed settings change table hasKey ⟨some built, none⟩
  | split
      {deleted inserted : Emitted}
      (hkind : change.kind = .keyUpdate)
      (hpolicy : settings.keyUpdates = .deleteInsert)
      (hdeleted : Carries settings change table hasKey settings.deleteKey .before deleted)
      (hinserted : Carries settings change table hasKey settings.insertKey .after inserted) :
      Prescribed settings change table hasKey ⟨some deleted, some inserted⟩

section Prescription

variable {settings : Settings}
variable {change : Change}
variable {table : Table}
variable {columns : List Aligned}
variable {hasKey : Bool}

/-- The pair of an emission carries what the emission says. -/
theorem carries_pair
    {stamp : Instant}
    {emission : Emission}
    {built : Emitted}
    (hnames : table.NamesDistinct)
    (halign : align change table = .ok columns)
    (h : pair settings stamp change table columns hasKey emission = .ok built) :
    Carries settings change table hasKey (settings.keyOf emission) emission.side built := by
  obtain ⟨name, block, hname, hblock, hrecord, hkey⟩ := pair_eq_ok h
  have hside := isSide_build hnames halign hblock
  refine
    { table_eq := by rw [hname, hrecord]
      key_eq := by rw [hrecord]
      time_eq := by rw [hrecord]
      position_eq := by rw [hrecord]
      keyNames_eq := by rw [hrecord]
      tokens_eq := by rw [hrecord]
      fields := ⟨block, by simp [Record.on, hrecord], hside⟩
      otherSide := ?_
      keyFields := ?_ }
  · intro other hother
    simp [Record.on, hrecord, Ne.symm hother]
  · cases hasKey with
    | false => exact hkey
    | true =>
        obtain ⟨key, hsome, hbuild⟩ := hkey
        exact ⟨key, hsome, isSide_build hnames halign hbuild⟩

/-- The pairs of one emission are one pair. -/
theorem exists_of_forall₂_singleton
    {R : Emission → Emitted → Prop}
    {emission : Emission}
    {pairs : List Emitted}
    (h : List.Forall₂ R [emission] pairs) :
    ∃ built, pairs = [built] ∧ R emission built := by
  cases h with
  | cons hbuilt hrest =>
      cases hrest
      exact ⟨_, rfl, hbuilt⟩

/-- The pairs of a plan's emissions fill a container as prescribed. -/
theorem prescribed_of_carries
    {pairs : List Emitted}
    (hplan : (Plan.ofKind change.kind settings.keyUpdates).emissions ≠ [])
    (h :
      List.Forall₂
        (fun emission built =>
          Carries settings change table hasKey (settings.keyOf emission) emission.side built)
        (Plan.ofKind change.kind settings.keyUpdates).emissions pairs) :
    Prescribed settings change table hasKey (Container.ofList pairs) := by
  cases hkind : change.kind with
  | insert =>
      rw [hkind] at h
      obtain ⟨built, rfl, hbuilt⟩ := exists_of_forall₂_singleton h
      exact .insert hkind hbuilt
  | update =>
      rw [hkind] at h
      obtain ⟨built, rfl, hbuilt⟩ := exists_of_forall₂_singleton h
      exact .update hkind hbuilt
  | delete =>
      rw [hkind] at h
      obtain ⟨built, rfl, hbuilt⟩ := exists_of_forall₂_singleton h
      exact .delete hkind hbuilt
  | keyUpdate =>
      cases hpolicy : settings.keyUpdates with
      | abend =>
          rw [hkind, hpolicy] at hplan
          exact absurd rfl hplan
      | update =>
          rw [hkind, hpolicy] at h
          obtain ⟨built, rfl, hbuilt⟩ := exists_of_forall₂_singleton h
          exact .keyUpdate hkind hpolicy hbuilt
      | deleteInsert =>
          rw [hkind, hpolicy] at h
          cases h with
          | cons hdeleted hrest =>
              obtain ⟨inserted, rfl, hinserted⟩ := exists_of_forall₂_singleton hrest
              exact .split hkind hpolicy hdeleted hinserted
  | unknown =>
      rw [hkind] at hplan
      exact absurd rfl hplan

end Prescription

/--
Whatever a formatter has done before and whatever the container holds: a change
of a table with distinct names that succeeds leaves in the container what is
prescribed, where the keys go by the schemas kept for the table.
-/
theorem prescribed_formatInto
    (settings : Settings)
    (clock : Clock)
    (state : Formatter)
    (change : Change)
    (table : Table)
    (container : Container)
    (pairs : List Emitted)
    (hnames : table.NamesDistinct)
    (hok : (formatInto settings clock state change table container).1.result = .ok pairs) :
    ∃ id build,
      table.name.identity? = some id ∧
      (formatInto settings clock state change table container).1.state.cache.lookup? id =
        some build ∧
      Prescribed settings change table build.schemas.hasKey
        (formatInto settings clock state change table container).2 := by
  rw [formatInto_fst] at hok ⊢
  obtain ⟨build, columns, hrequest, halign, hplan, hemit⟩ := format_eq_ok hok
  obtain ⟨id, hid, hkept⟩ := Schema.Cache.lookup?_request hrequest
  refine ⟨id, build, hid, ?_, ?_⟩
  · rw [(format_of_request_ok settings clock change hrequest).2]
    exact hkept
  · rw [formatInto_snd_of_ok container hok]
    refine prescribed_of_carries hplan ((forall₂_emitAll hemit).imp ?_)
    rintro emission built ⟨stamp, hpair⟩
    exact carries_pair hnames halign hpair

end Formatter

/-- The first half of a pair alone. -/
def Text.oneHalf : Text :=
  .ofUnits [0xD800]

/-! A table of items whose key is a number, and the renumbering of an item. -/

namespace Item

def table : Table :=
  ⟨.text "SHOP.ITEMS", [⟨.text "ID", 4, true⟩, ⟨.text "NAME", 12, false⟩]⟩

/-- Items with a column whose name is half of a pair. -/
def tornTable : Table :=
  ⟨.text "SHOP.ITEMS",
    [⟨.text "ID", 4, true⟩, ⟨.text Text.oneHalf, 12, false⟩, ⟨.text "PRICE", 2, false⟩]⟩

/-- The item gets another number; its name is captured before the change only. -/
def renumbered : Change where
  kind := .keyUpdate
  code := "PK"
  table := .text "SHOP.ITEMS"
  columns := [⟨.captured "1", .captured "2"⟩, ⟨.captured "lamp", .absent⟩]
  time := "2026-10-17 09:15:02"
  position := "7"
  tokens := []

/-- A clock that stands still. -/
def clock : Clock :=
  fun _ => ⟨⟨2026, 10, 17, 9, 15, 2, 0⟩, by decide⟩

/-- A record of an earlier change. -/
def stale : Emitted :=
  ⟨⟨"SHOP.ITEMS", .text "D", "", "", "6", none, none, .before, []⟩, none⟩

theorem namesDistinct_table : table.NamesDistinct :=
  ⟨["ID", "NAME"], rfl, by decide⟩

theorem namesAreWhole_table : table.NamesAreWhole := by
  simp [Table.NamesAreWhole, table]

end Item

/-- Renumbering an item replaces both records that a container held. -/
theorem Formatter.prescribed_formatInto_renumbered :
    Item.table.NamesDistinct ∧
    ∃ pairs,
      (formatInto { keyUpdates := .deleteInsert } Item.clock {} Item.renumbered Item.table
        ⟨some Item.stale, some Item.stale⟩).1.result = .ok pairs ∧
      ∃ id build,
        Item.table.name.identity? = some id ∧
        (formatInto { keyUpdates := .deleteInsert } Item.clock {} Item.renumbered Item.table
          ⟨some Item.stale, some Item.stale⟩).1.state.cache.lookup? id = some build ∧
        Prescribed { keyUpdates := .deleteInsert } Item.renumbered Item.table
          build.schemas.hasKey
          (formatInto { keyUpdates := .deleteInsert } Item.clock {} Item.renumbered Item.table
            ⟨some Item.stale, some Item.stale⟩).2 :=
  ⟨Item.namesDistinct_table, _, rfl,
    prescribed_formatInto _ _ _ _ _ _ _ Item.namesDistinct_table rfl⟩

end ChangeFeed
