import ChangeFeed.Fault
import ChangeFeed.Schema.Field
import ChangeFeed.Table

/-!
# Schemas of a table

The schema of the records of a table has the fields common to all records and
the columns of the table before and after the change. The schema of its key
records has the key columns, and there is none for a table without a key. With
all columns kept as texts, every column field is a text. A schema can be built
only of columns whose names are whole texts.

**Results.**

* `hasKey_ofTable`: a table has a key schema just if it has a key column.
-/

namespace ChangeFeed
namespace Schema

/-- The schemas of a table. -/
structure Schemas where
  /-- The columns of the table. -/
  columns : List ScalarField
  /-- The columns of its key, if it has one. -/
  key : Option (List ScalarField)
deriving DecidableEq

/-- The field of a column. -/
def columnField (asText : Bool) (column : Column) : Except Fault ScalarField :=
  match column.name with
  | .text (.whole name) => .ok (.of name (.ofCode asText column.code))
  | .text name => .error (.unencodable name)
  | name => .error (.notName name.kind)

/-- The fields of columns, up to the first whose name can name no field. -/
def columnFields (asText : Bool) : List Column → Except Fault (List ScalarField)
  | [] => .ok []
  | column :: rest =>
      match columnField asText column, columnFields asText rest with
      | .ok field, .ok fields => .ok (field :: fields)
      | .error fault, _ => .error fault
      | _, .error fault => .error fault

/-- The fields of the source of a record. -/
def sourceFields : List ScalarField :=
  [.of "entity" .string, .of "snapshot_lastone" .bool, .of "is_increment" .bool,
    .of "total_size" .int64, .of "index" .int64]

namespace Schemas

/-- The schemas of a table. -/
def ofTable (asText : Bool) (table : Table) : Except Fault Schemas :=
  match columnFields asText table.columns,
    columnFields asText (table.columns.filter Column.isKey) with
  | .ok columns, .ok key =>
      .ok
        { columns := columns
          key := if key.isEmpty then none else some key }
  | .error fault, _ => .error fault
  | _, .error fault => .error fault

/-- Whether the table has a key. -/
def hasKey (schemas : Schemas) : Bool :=
  schemas.key.isSome

/-- The schema of the records of the table. -/
def record (schemas : Schemas) : List Field :=
  [.of "table" (.scalar .string), .of "op_type" (.scalar .string), .of "op_ts" (.scalar .string),
    .of "current_ts" (.scalar .string), .of "pos" (.scalar .string),
    .of "primary_keys" .textList, .of "tokens" .textMap, .of "source" (.row sourceFields),
    .of "before" (.row schemas.columns), .of "after" (.row schemas.columns)]

theorem hasKey_ofTable
    (asText : Bool)
    (table : Table)
    (schemas : Schemas)
    (h : ofTable asText table = .ok schemas) :
    schemas.hasKey = table.columns.any Column.isKey := by
  unfold ofTable at h
  split at h
  case h_1 columns key _ hkey =>
    cases h
    cases hf : table.columns.filter Column.isKey with
    | nil =>
        rw [hf] at hkey
        cases hkey
        have hnone := List.filter_eq_nil_iff.1 hf
        simpa [hasKey] using hnone
    | cons column rest =>
        rw [hf, columnFields] at hkey
        have hmem : column ∈ table.columns.filter Column.isKey := by simp [hf]
        have hany : table.columns.any Column.isKey = true :=
          List.any_eq_true.2 ⟨column, (List.mem_filter.1 hmem).1, (List.mem_filter.1 hmem).2⟩
        rw [hany]
        split at hkey <;> cases hkey
        rfl
  all_goals contradiction

end Schemas
end Schema
end ChangeFeed
