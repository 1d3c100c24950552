import ChangeFeed.Record.Block
import ChangeFeed.Settings
import ChangeFeed.Stamp.Sequence

/-!
# Records

What one emission of a change yields: a record, which carries the block of one
side of the row, and a key record if the table has a key. A container owned by
the caller holds the result of the last change formatted into it.

**Results.**

* `toList_ofList`: a container holds the pairs put into it, up to two.
-/

namespace ChangeFeed

/-- A record of a change. -/
structure Record where
  /-- The name of the table. -/
  table : Text
  /-- The operation key. -/
  key : Json
  /-- The time of the change. -/
  time : Text
  /-- The stamp of the record. -/
  stamp : String
  /-- The position of the change. -/
  position : Text
  /-- The names of the key columns, if the records list them. -/
  keyNames : Option (List Json)
  /-- The tokens of the change, if the records carry them. -/
  tokens : Option (List (Text × Text))
  /-- The side of the row that the record carries. -/
  side : Side
  /-- The values of that side. -/
  block : Block

namespace Record

/-- The block under one side, none on the other. -/
def on (record : Record) (side : Side) : Option Block :=
  if record.side = side then some record.block else none

/-- The name of the table without its qualifier. -/
def entity (record : Record) : Text :=
  Table.unqualified record.table

/-- The source of a record: its entity and fixed entries. -/
def source (record : Record) : List (Text × Value) :=
  [("entity", .text record.entity), ("snapshot_lastone", .boolean false),
    ("is_increment", .boolean true), ("total_size", .integer 0), ("index", .integer 0)]

end Record

/-- A record with its key record. -/
structure Emitted where
  record : Record
  key : Option Block

/-- The result of one change, owned by the caller. -/
structure Container where
  primary : Option Emitted := none
  secondary : Option Emitted := none

namespace Container

/-- The container that holds these pairs. -/
def ofList : List Emitted → Container
  | [] => {}
  | [first] => ⟨some first, none⟩
  | first :: second :: _ => ⟨some first, some second⟩

/-- The pairs of a container in order. -/
def toList (container : Container) : List Emitted :=
  container.primary.toList ++ container.secondary.toList

/-- The number of pairs in a container. -/
def length (container : Container) : Nat :=
  container.toList.length

/-- The container with its slots emptied. -/
def clear (container : Container) : Container :=
  { container with primary := none, secondary := none }

theorem toList_ofList
    (pairs : List Emitted)
    (h : pairs.length ≤ 2) :
    (ofList pairs).toList = pairs := by
  match pairs, h with
  | [], _ => rfl
  | [_], _ => rfl
  | [_, _], _ => rfl
  | _ :: _ :: _ :: _, h => simp at h

end Container
end ChangeFeed
