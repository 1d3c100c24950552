import ChangeFeed.Change

/-!
# Plans

What a change emits. An insert, an update and a delete emit one record; an
update of key columns is treated as the policy says, and a change of an unknown
kind is fatal. An emission has one side, whose images it carries.

**Results.**

* `emissions_eq_nil_iff`: only a fatal plan emits nothing.
-/

namespace ChangeFeed

/-- What to do with an update of key columns. -/
inductive KeyUpdatePolicy where
  | abend
  | update
  | deleteInsert
deriving DecidableEq

namespace KeyUpdatePolicy

/-- The option word of a policy. -/
def name : KeyUpdatePolicy → String
  | .abend => "abend"
  | .update => "update"
  | .deleteInsert => "delete-insert"

/-- What a policy does, in the words of the start message. -/
def description : KeyUpdatePolicy → String
  | .abend => "abend"
  | .update => "process as a normal update"
  | .deleteInsert => "process as a delete and an insert"

/-- All policies. -/
def all : List KeyUpdatePolicy :=
  [.abend, .update, .deleteInsert]

/-- The policy of an option word. -/
def ofName? (word : String) : Option KeyUpdatePolicy :=
  all.find? fun policy => policy.name = word

end KeyUpdatePolicy

/-- One record to emit. -/
inductive Emission where
  | insert
  | update
  | delete
deriving DecidableEq

namespace Emission

/-- The kind of change that the record reports. -/
def kind : Emission → ChangeKind
  | .insert => .insert
  | .update => .update
  | .delete => .delete

/-- The side whose images the record carries. -/
def side : Emission → Side
  | .insert => .after
  | .update => .after
  | .delete => .before

end Emission

/-- What a change emits. -/
inductive Plan where
  | single (emission : Emission)
  | pair (first second : Emission)
  | fatal (reason : String)
deriving DecidableEq

namespace Plan

/-- The records of a plan in order. -/
def emissions : Plan → List Emission
  | .single emission => [emission]
  | .pair first second => [first, second]
  | .fatal _ => []

/-- Why an update of key columns is fatal. -/
def keyUpdateReason : String :=
  "Encountered an update including a primary key. " ++
    "The behavior is configured to ABEND in this scenario."

/-- Why a change of an unknown kind is fatal. -/
def unknownReason : String :=
  "Encountered an unknown operation [" ++ ChangeKind.unknown.name ++ "]."

/-- The plan for a kind of change under a policy. -/
def ofKind (kind : ChangeKind) (policy : KeyUpdatePolicy) : Plan :=
  match kind, policy with
  | .insert, _ => .single .insert
  | .update, _ => .single .update
  | .delete, _ => .single .delete
  | .keyUpdate, .update => .single .update
  | .keyUpdate, .deleteInsert => .pair .delete .insert
  | .keyUpdate, .abend => .fatal keyUpdateReason
  | .unknown, _ => .fatal unknownReason

theorem emissions_eq_nil_iff (plan : Plan) :
    plan.emissions = [] ↔ ∃ reason, plan = .fatal reason := by
  cases plan <;> simp [emissions]

end Plan
end ChangeFeed
