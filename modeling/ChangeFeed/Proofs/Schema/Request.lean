import ChangeFeed.Proofs.Record.Fields
import ChangeFeed.Schema.Cache

/-!
# Requests of schemas

What a request can do to the cache, once for all: it fails without a trace, it
returns the build kept under the name, or it builds and keeps. All that later
modules need of a request follows from these four cases.

**Results.**

* `map_hasKey_ofTable`: what the description of a table tells of its key schema.
* `ofTable_eq_error_iff`: the column whose name keeps the schemas of a table from being built.
* `requested_requestWith`: a request is one of the four cases, whatever builds schemas.
* `request_eq_error_iff`: which fault a request fails with.
* `request_again`: after a request that succeeded, the same name gives the same
  build whatever the table, and nothing changes any more.
* `exists_request_eq_ok_iff`: when a request succeeds.
* `cache_request_of_built`, `cache_request_of_kept`, `exists_events_request`: the cache and
  the events after a request.
* `schemas?_request`: what a request returns and leaves kept, name by name.
* `lookup?_drop`: after a drop, nothing is kept under the name.
-/

namespace ChangeFeed

/-- What is at fault with the name of a column that can have no field. -/
def Column.nameFault? (column : Column) : Option Fault :=
  match column.name with
  | .text (.whole _) => none
  | .text name => some (.unencodable name)
  | name => some (.notName name.kind)

/-- What is at fault with the first name of a column that can have no field. -/
def Table.nameFault? (table : Table) : Option Fault :=
  table.columns.findSome? Column.nameFault?

/-- Whether a table has a key, if it has schemas: that of a table without them is at fault. -/
def Table.keyed (table : Table) : Except Fault Bool :=
  match table.nameFault? with
  | some fault => .error fault
  | none => .ok (table.columns.any Column.isKey)

theorem Column.nameFault?_eq_none_iff
    {column : Column} :
    column.nameFault? = none ↔ ∃ name : String, column.name = .text name := by
  unfold nameFault?
  split
  · next name hname => simp [hname]
  · next name hname hwhole =>
      refine iff_of_false (by simp) ?_
      rintro ⟨other, hother⟩
      exact hname other (Json.text.inj (hwhole.symm.trans hother))
  · next hname =>
      refine iff_of_false (by simp) ?_
      rintro ⟨other, hother⟩
      exact hname other hother

theorem Table.nameFault?_eq_none_iff
    {table : Table} :
    table.nameFault? = none ↔ table.NamesAreWhole := by
  simp only [nameFault?, NamesAreWhole, List.findSome?_eq_none_iff,
    Column.nameFault?_eq_none_iff]

theorem Table.keyed_eq_ok
    {table : Table}
    (hnames : table.NamesAreWhole) :
    table.keyed = .ok (table.columns.any Column.isKey) := by
  rw [keyed, nameFault?_eq_none_iff.2 hnames]

namespace Schema

/-- A column has a field just if its name is a whole text, and else the name is at fault. -/
theorem columnField_eq_error_iff
    {asText : Bool}
    {column : Column}
    {fault : Fault} :
    columnField asText column = .error fault ↔ column.nameFault? = some fault := by
  unfold columnField Column.nameFault?
  cases column.name with
  | text name => cases name <;> simp
  | _ => simp

/-- The fields of columns fail at the first whose name is at fault. -/
theorem columnFields_eq_error_iff
    {asText : Bool}
    {columns : List Column}
    {fault : Fault} :
    columnFields asText columns = .error fault ↔
      columns.findSome? Column.nameFault? = some fault := by
  induction columns with
  | nil => simp [columnFields]
  | cons column rest ih =>
      rw [columnFields, List.findSome?_cons]
      cases hfield : columnField asText column with
      | error found =>
          rw [columnField_eq_error_iff.1 hfield]
          simp
      | ok field =>
          have hnone : column.nameFault? = none := by
            rw [Option.eq_none_iff_forall_ne_some]
            intro found hfound
            rw [columnField_eq_error_iff.2 hfound] at hfield
            contradiction
          rw [hnone]
          cases hrest : columnFields asText rest with
          | error found => simpa [hrest] using ih
          | ok fields => simpa [hrest] using ih

namespace Schemas

/-- The schemas of a table fail at its first column whose name is at fault. -/
theorem ofTable_eq_error_iff
    {asText : Bool}
    {table : Table}
    {fault : Fault} :
    ofTable asText table = .error fault ↔ table.nameFault? = some fault := by
  have hcolumns :
      columnFields asText table.columns = .error fault ↔ table.nameFault? = some fault :=
    columnFields_eq_error_iff
  rw [← hcolumns, ofTable]
  split
  · next hfields hkey => simp [hfields]
  · next hfields => simp [hfields]
  · next found hkey hfields =>
      -- A key column is a column of the table, so its name cannot be at fault alone.
      rw [columnFields_eq_error_iff] at hkey
      obtain ⟨column, hcolumn, hfault⟩ := List.exists_of_findSome?_eq_some hkey
      cases hnone : table.columns.findSome? Column.nameFault? with
      | none =>
          rw [List.findSome?_eq_none_iff] at hnone
          rw [hnone column (List.mem_filter.1 hcolumn).1] at hfault
          contradiction
      | some first => exact absurd (columnFields_eq_error_iff.2 hnone) (hfields first)

theorem exists_ofTable_eq_ok_iff
    (asText : Bool)
    (table : Table) :
    (∃ schemas, ofTable asText table = .ok schemas)
      ↔
    table.NamesAreWhole := by
  rw [← Table.nameFault?_eq_none_iff]
  cases hbuilt : ofTable asText table with
  | ok schemas =>
      refine iff_of_true ⟨schemas, rfl⟩ (Option.eq_none_iff_forall_ne_some.2 fun fault hfault => ?_)
      rw [ofTable_eq_error_iff.2 hfault] at hbuilt
      contradiction
  | error fault => simp [ofTable_eq_error_iff.1 hbuilt]

/-- Of the schemas of a table, its description tells whether they have a key. -/
theorem map_hasKey_ofTable
    (asText : Bool)
    (table : Table) :
    (ofTable asText table).map hasKey = table.keyed := by
  cases hbuilt : ofTable asText table with
  | error fault => rw [Table.keyed, ofTable_eq_error_iff.1 hbuilt, Except.map]
  | ok schemas =>
      have hnames := (exists_ofTable_eq_ok_iff asText table).1 ⟨schemas, hbuilt⟩
      rw [Table.keyed_eq_ok hnames, Except.map, hasKey_ofTable asText table schemas hbuilt]

/-- The schemas of a table are those of its columns, whatever its name. -/
theorem ofTable_congr
    (asText : Bool)
    {table other : Table}
    (hcolumns : table.columns = other.columns) :
    ofTable asText table = ofTable asText other := by
  unfold ofTable
  rw [hcolumns]

end Schemas

namespace Cache

/-- A cache has schemas for a table: its name is looked up, and they are kept or can be built. -/
def Provides
    (cache : Cache)
    (name : Json)
    (table : Table) : Prop :=
  ∃ id,
    name.identity? = some id ∧
    ((∃ build, cache.lookup? id = some build) ∨ table.NamesAreWhole)

/-- Why a request fails, if it does: the name of the table or that of a column is at fault. -/
def refusal?
    (cache : Cache)
    (name : Json)
    (table : Table) : Option Fault :=
  match name.identity? with
  | none => some (.unhashable name.kind)
  | some id => if (cache.lookup? id).isSome then none else table.nameFault?

/-- What a request can come to. -/
inductive Requested
    (builder : Builder)
    (cache : Cache)
    (name : Json)
    (table : Table) :
    Step Build → Prop
  | nameless
      (hname : name.identity? = none) :
      Requested builder cache name table ⟨.error (.unhashable name.kind), cache, []⟩
  | kept
      {id : Identity}
      {build : Build}
      (hname : name.identity? = some id)
      (hkept : cache.lookup? id = some build) :
      Requested builder cache name table ⟨.ok build, cache, []⟩
  | unbuildable
      {id : Identity}
      {fault : Fault}
      (hname : name.identity? = some id)
      (habsent : cache.lookup? id = none)
      (htable : builder cache.asText table = .error fault) :
      Requested builder cache name table ⟨.error fault, cache, []⟩
  | built
      {id : Identity}
      {schemas : Schemas}
      (hname : name.identity? = some id)
      (habsent : cache.lookup? id = none)
      (htable : builder cache.asText table = .ok schemas) :
      Requested builder cache name table
        ⟨.ok ⟨cache.builds, schemas⟩, cache.insert id schemas,
          [.schemaBuilt name schemas.hasKey]⟩

theorem requested_requestWith
    (builder : Builder)
    (cache : Cache)
    (name : Json)
    (table : Table) :
    Requested builder cache name table (requestWith builder cache name table) := by
  unfold requestWith
  split
  · next hname => exact .nameless hname
  · next id hname =>
      split
      · next build hkept => exact .kept hname hkept
      · next habsent =>
          split
          · next fault htable => exact .unbuildable hname habsent htable
          · next schemas htable => exact .built hname habsent htable

section Request

variable {cache : Cache}
variable {name : Json}
variable {table : Table}

theorem requested_request
    (cache : Cache)
    (name : Json)
    (table : Table) :
    Requested Schemas.ofTable cache name table (request cache name table) :=
  requested_requestWith Schemas.ofTable cache name table

/-- A request leaves the way in which schemas are built. -/
@[simp] theorem asText_request
    (cache : Cache)
    (name : Json)
    (table : Table) :
    (request cache name table).cache.asText = cache.asText := by
  have hrequested := requested_request cache name table
  generalize request cache name table = step at *
  cases hrequested <;> rfl

/-- What a successful request returns is kept under the name from then on. -/
theorem lookup?_request
    {build : Build}
    (h : (request cache name table).result = .ok build) :
    ∃ id,
      name.identity? = some id ∧
      (request cache name table).cache.lookup? id = some build := by
  have hrequested := requested_request cache name table
  generalize request cache name table = step at *
  cases hrequested with
  | nameless => contradiction
  | @kept id _ hname hkept =>
      cases h
      exact ⟨id, hname, hkept⟩
  | unbuildable => contradiction
  | @built id schemas hname habsent =>
      cases h
      exact ⟨id, hname, lookup_insert_self cache id schemas habsent⟩

theorem request_again
    {build : Build}
    (h : (request cache name table).result = .ok build)
    (other : Table) :
    request (request cache name table).cache name other =
      ⟨.ok build, (request cache name table).cache, []⟩ := by
  obtain ⟨id, hname, hkept⟩ := lookup?_request h
  generalize (request cache name table).cache = after at *
  simp only [request, requestWith, hname, hkept]

/-- A request that fails does so with the one fault that there is, and leaves the cache as it is. -/
theorem request_eq_error_iff
    {fault : Fault} :
    (request cache name table).result = .error fault ↔ cache.refusal? name table = some fault := by
  have hrequested := requested_request cache name table
  unfold refusal?
  generalize request cache name table = step at *
  cases hrequested with
  | nameless hname => simp [hname]
  | kept hname hkept => simp [hname, hkept]
  | unbuildable hname habsent htable =>
      rw [Schemas.ofTable_eq_error_iff] at htable
      simp [hname, habsent, htable]
  | @built id schemas hname habsent htable =>
      have hnone : table.nameFault? = none :=
        Table.nameFault?_eq_none_iff.2 ((Schemas.exists_ofTable_eq_ok_iff _ table).1 ⟨_, htable⟩)
      simp [hname, habsent, hnone]

theorem cache_request_of_error
    {fault : Fault}
    (h : (request cache name table).result = .error fault) :
    (request cache name table).cache = cache := by
  have hrequested := requested_request cache name table
  generalize request cache name table = step at *
  cases hrequested with
  | nameless => rfl
  | kept => rfl
  | unbuildable => rfl
  | built => contradiction

/-- Schemas are provided just if nothing is at fault. -/
theorem refusal?_eq_none_iff :
    cache.refusal? name table = none ↔ cache.Provides name table := by
  unfold refusal? Provides
  cases name.identity? with
  | none => simp
  | some id => cases hkept : cache.lookup? id <;> simp [hkept, Table.nameFault?_eq_none_iff]

theorem exists_request_eq_ok_iff :
    (∃ build, (request cache name table).result = .ok build)
      ↔
    cache.Provides name table := by
  rw [← refusal?_eq_none_iff, Option.eq_none_iff_forall_ne_some]
  simp only [ne_eq, ← request_eq_error_iff]
  cases (request cache name table).result <;> simp

/-- The schemas kept under an identity. -/
def schemas? (cache : Cache) (id : Identity) : Option Schemas :=
  (cache.lookup? id).map Build.schemas

/-- The schemas that a request under an identity comes to: those kept, or else those built. -/
def provided
    (cache : Cache)
    (id : Identity)
    (table : Table) : Except Fault Schemas :=
  (cache.schemas? id).elim (Schemas.ofTable cache.asText table) .ok

/-- A request returns what is kept under the name, or else what is built, and changes no other. -/
theorem schemas?_request
    {id : Identity}
    (cache : Cache)
    (table : Table)
    (hname : name.identity? = some id) :
    (request cache name table).result.map Build.schemas = cache.provided id table ∧
      (request cache name table).cache.schemas? id = (cache.provided id table).toOption ∧
      ∀ other, other ≠ id →
        (request cache name table).cache.schemas? other = cache.schemas? other := by
  have hrequested := requested_request cache name table
  unfold provided
  generalize request cache name table = step at *
  cases hrequested with
  | nameless hnone =>
      rw [hname] at hnone
      contradiction
  | @kept found build hfound hkept =>
      cases hname.symm.trans hfound
      simp [schemas?, hkept, Except.map, Except.toOption]
  | @unbuildable found fault hfound habsent htable =>
      cases hname.symm.trans hfound
      simp [schemas?, habsent, htable, Except.map, Except.toOption]
  | @built found schemas hfound habsent htable =>
      cases hname.symm.trans hfound
      refine ⟨?_, ?_, fun other hother => ?_⟩
      · simp [schemas?, habsent, htable, Except.map]
      · simp [schemas?, lookup_insert_self, habsent, htable, Except.toOption]
      · simp [schemas?, lookup_insert_of_ne cache id other schemas hother]

/-- Schemas that are not kept are built, and put at the end of the cache. -/
theorem cache_request_of_built
    {id : Identity}
    {schemas : Schemas}
    (hname : name.identity? = some id)
    (habsent : cache.lookup? id = none)
    (htable : Schemas.ofTable cache.asText table = .ok schemas) :
    (request cache name table).cache = cache.insert id schemas := by
  simp only [request, requestWith, hname, habsent, htable]

/-- Where schemas are kept or cannot be built, the cache stays as it is. -/
theorem cache_request_of_kept
    {id : Identity}
    (hname : name.identity? = some id)
    (hkept : cache.lookup? id = none → ¬ table.NamesAreWhole) :
    (request cache name table).cache = cache := by
  have hrequested := requested_request cache name table
  generalize request cache name table = step at *
  cases hrequested with
  | nameless => rfl
  | kept => rfl
  | unbuildable => rfl
  | built hfound habsent htable =>
      cases hname.symm.trans hfound
      have hnames := (Schemas.exists_ofTable_eq_ok_iff cache.asText table).1 ⟨_, htable⟩
      exact absurd hnames (hkept habsent)

/-- A request reports that it built schemas, with whether the table has a key, and else nothing. -/
theorem exists_events_request
    {id : Identity}
    (hname : name.identity? = some id) :
    ∃ built : Option Event,
      (request cache name table).events = built.toList ∧
      ∀ event,
        built = some event ↔
          cache.lookup? id = none ∧
            table.NamesAreWhole ∧
            event = .schemaBuilt name (table.columns.any Column.isKey) := by
  have hrequested := requested_request cache name table
  generalize request cache name table = step at *
  cases hrequested with
  | nameless hnone =>
      rw [hname] at hnone
      contradiction
  | kept hfound hkept =>
      cases hname.symm.trans hfound
      exact ⟨none, rfl, by simp [hkept]⟩
  | unbuildable hfound habsent htable =>
      have hnames : ¬ table.NamesAreWhole := by
        rw [← Schemas.exists_ofTable_eq_ok_iff cache.asText, htable]
        simp
      exact ⟨none, rfl, by simp [hnames]⟩
  | @built _ schemas hfound habsent htable =>
      cases hname.symm.trans hfound
      have hnames := (Schemas.exists_ofTable_eq_ok_iff cache.asText table).1 ⟨_, htable⟩
      rw [← Schemas.hasKey_ofTable cache.asText table schemas htable]
      exact ⟨some _, rfl, by simp [habsent, hnames, eq_comm]⟩

end Request

/-- A drop leaves the way in which schemas are built. -/
@[simp] theorem asText_drop
    (cache : Cache)
    (name : Json) :
    (cache.drop name).cache.asText = cache.asText := by
  unfold drop
  split
  · rfl
  · split
    · rfl
    · split <;> rfl

/-- A name that can be looked up can be dropped, and then nothing else is missing. -/
theorem lookup?_drop
    (cache : Cache)
    {name : Json}
    {id : Identity}
    (hname : name.identity? = some id) :
    (cache.drop name).result = .ok () ∧
      (cache.drop name).cache.lookup? id = none ∧
      ∀ other, other ≠ id → (cache.drop name).cache.lookup? other = cache.lookup? other := by
  unfold drop
  cases hentries : cache.entries with
  | nil => simp [lookup?, hentries]
  | cons entry rest =>
      simp only [List.isEmpty_cons, Bool.false_eq_true, if_false, hname]
      cases hkept : cache.lookup? id with
      | none => simp [hkept]
      | some build =>
          refine ⟨rfl, lookup_remove_self cache id, fun other hother => ?_⟩
          exact lookup_remove_of_ne cache id other hother

end Cache
end Schema
end ChangeFeed
