import ChangeFeed.Json.Basic

/-!
# Tables

The description of a table that comes with every change: its name and its
columns in order. Names are kept as they came, as JSON values; only where a name
has to be a text does another one fail.
-/

namespace ChangeFeed

/-- The description of a column. -/
structure Column where
  /-- The name, a text in every proper message. -/
  name : Json
  /-- The type code that the capture layer reports. -/
  code : Int
  /-- Whether the column belongs to the key of its table. -/
  isKey : Bool

/-- The description of a table. -/
structure Table where
  /-- The name, a text in every proper message. -/
  name : Json
  /-- The columns in the order of the table. -/
  columns : List Column

namespace Table

/-- The names of the columns of the key, in the order of the table. -/
def keyNames (table : Table) : List Json :=
  (table.columns.filter Column.isKey).map Column.name

/-- The name, if it is a text. -/
def textName? (table : Table) : Option Text :=
  match table.name with
  | .text name => some name
  | _ => none

/-- What follows the last point of a name, all of it if there is none. -/
def unqualified : Text → Text
  | .whole name => String.ofList (name.toList.reverse.takeWhile (· ≠ '.')).reverse
  | .torn units _ =>
      .ofUnits (units.reverse.takeWhile fun unit => unit.toNat ≠ '.'.toNat).reverse

/-- The name without its qualifier, if the name is a text. -/
def shortName? (table : Table) : Option Text :=
  table.textName?.map unqualified

end Table
end ChangeFeed
