import ChangeFeed.Failure
import ChangeFeed.Json.Identity
import ChangeFeed.Table

/-!
# Blocks

A block holds the values of the columns of one side, by name, in the order of
the table. The columns of a table are aligned with the images of a change by
position; of those, a block takes the ones whose image on its side is a captured
text, and reads it by the type of its column. Where two columns have one name,
the place is that of the first and the value that of the last.

**Results.**

* `select_true`: the key columns selected are those selected that are key columns.
-/

namespace ChangeFeed

/-- A column of a table with its images in a change. -/
structure Aligned where
  column : Column
  images : Images

/-- The columns of a table with the images of a change, by position. -/
def align (change : Change) (table : Table) : Except Failure (List Aligned) :=
  if change.columns.length = table.columns.length then
    .ok (List.zipWith Aligned.mk table.columns change.columns)
  else
    .error (.misaligned table.name change.columns.length table.columns.length)

/--
The columns with a captured text on a side, in the order of the table, and
these texts; with `keysOnly`, the key columns among them.
-/
def select
    (columns : List Aligned)
    (side : Side)
    (keysOnly : Bool) : List (Column × Text) :=
  (columns.filter fun a => !keysOnly || a.column.isKey).filterMap fun a =>
    (a.images.on side).captured?.map fun text => (a.column, text)

/-- Values by name, in order. No two names have one identity. -/
abbrev Block := List (Json × Value)

namespace Block

/-- The block with a value under a name, in place if the name is there. -/
def insert (block : Block) (name : Json) (value : Value) : Block :=
  match block with
  | [] => [(name, value)]
  | (key, old) :: rest =>
      if key.identity? = name.identity? then
        (key, value) :: rest
      else
        (key, old) :: Block.insert rest name value

/-- The value under a name that is a text. -/
def find? (block : Block) (name : Text) : Option Value :=
  (List.find? (fun field => field.1.identity? = some (.text name)) block).map Prod.snd

/--
The block with the values of further columns, each read and then put under its
name, up to the first that fails.
-/
def extend
    (asText : Bool)
    (block : Block) : List (Column × Text) → Except Failure Block
  | [] => .ok block
  | (column, raw) :: rest =>
      match coerce asText column.code column.name raw with
      | .error failure => .error (.coercion failure)
      | .ok value =>
          match column.name.identity? with
          | none => .error (.fault (.unhashable column.name.kind))
          | some _ => extend asText (block.insert column.name value) rest

/-- The block of one side of aligned columns. -/
def build
    (asText : Bool)
    (columns : List Aligned)
    (side : Side)
    (keysOnly : Bool) : Except Failure Block :=
  extend asText [] (select columns side keysOnly)

/-- The block of the key columns, none if there is no key column. -/
def buildKey
    (asText : Bool)
    (columns : List Aligned)
    (side : Side) : Except Failure (Option Block) :=
  if columns.any fun a => a.column.isKey then
    (build asText columns side true).map some
  else
    .ok none

end Block

theorem select_true
    (columns : List Aligned)
    (side : Side) :
    select columns side true =
      (select columns side false).filter fun field => field.1.isKey := by
  induction columns with
  | nil => rfl
  | cons a rest ih =>
      simp only [select, Bool.not_true, Bool.false_or, Bool.not_false, Bool.true_or] at ih ⊢
      cases hkey : a.column.isKey <;> cases htext : (a.images.on side).captured? <;>
        simpa [hkey, htext] using ih

end ChangeFeed
