import ChangeFeed.Change
import ChangeFeed.Column.Coercion
import ChangeFeed.Fault
import ChangeFeed.Json.Display

/-!
# Failures

Why a change was not formatted. Three causes are a formatter's own: the change
does not fit the table, it is fatal by its plan, or a text could not be read.
The rest are faults of the values in the message, which end the feed.
-/

namespace ChangeFeed

/-- Why a change was not formatted. -/
inductive Failure where
  /-- The change has another number of columns than the table. -/
  | misaligned (table : Json) (changed described : Nat)
  /-- The plan of the change is fatal. -/
  | fatal (reason : String) (table : Json) (kind : ChangeKind)
  /-- A captured text could not be read. -/
  | coercion (failure : Coercion.Failure)
  /-- A value of the message is not as it should be. -/
  | fault (cause : Fault)

namespace Coercion

/-- The wording of a text that could not be read; a nameless column is called a value. -/
def Failure.message (failure : Failure) : Text :=
  let target : Text :=
    if failure.column.isTruthy then
      "column [" ++ failure.column.display ++ "]"
    else
      "value"
  "Unable to coerce " ++ target ++
    ↑(" of source type " ++ toString failure.code ++ ": " ++ Text.quoted failure.raw)

end Coercion

namespace Failure

/-- The wording of a failure. -/
def message : Failure → Text
  | .misaligned table changed described =>
      "Operation on [" ++ table.display ++
        ↑("] has " ++ toString changed ++ " columns, table metadata has " ++ toString described)
  | .fatal reason _ _ => reason
  | .coercion failure => failure.message
  | .fault cause => cause.message

end Failure
end ChangeFeed
