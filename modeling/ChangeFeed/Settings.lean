import ChangeFeed.Message.Fields
import ChangeFeed.Json.Display
import ChangeFeed.Plan
import ChangeFeed.Text.Blank

/-!
# Settings

The eight options of the formatter, fixed before the first change. They come
from named properties, which may be any JSON values, or from environment
variables, which are texts. A policy word that is not known is reported and
means to abend.
-/

namespace ChangeFeed

/-- The options of the formatter. -/
structure Settings where
  /-- The operation key of inserts. -/
  insertKey : Json := .text "I"
  /-- The operation key of updates. -/
  updateKey : Json := .text "U"
  /-- The operation key of deletes. -/
  deleteKey : Json := .text "D"
  /-- What to do with updates of key columns. -/
  keyUpdates : KeyUpdatePolicy := .abend
  /-- Whether all columns are kept as texts. -/
  asText : Bool := false
  /-- Whether stamps have a `T` between date and time, not a space. -/
  isoStamps : Bool := true
  /-- Whether records list the key columns. -/
  withKeyNames : Bool := false
  /-- Whether records carry the tokens of the change. -/
  withTokens : Bool := false

/-- A value that names no policy was given for one. -/
structure PolicyWarning where
  value : Json

namespace Settings

/-- The operation key written for an emission. -/
def keyOf (settings : Settings) : Emission → Json
  | .insert => settings.insertKey
  | .update => settings.updateKey
  | .delete => settings.deleteKey

/-- The operation key of a kind of change, for kinds that records are emitted as. -/
def key? (settings : Settings) : ChangeKind → Option Json
  | .insert => some settings.insertKey
  | .update => some settings.updateKey
  | .delete => some settings.deleteKey
  | .keyUpdate => none
  | .unknown => none

/-- The policy of a text, blanks around it and the case of its letters aside. -/
def policyOfText (value : Text) : KeyUpdatePolicy × List PolicyWarning :=
  match KeyUpdatePolicy.ofName? (Text.lower (Text.strip value.shown)) with
  | some policy => (policy, [])
  | none => (.abend, [⟨.text value⟩])

/-- The policy of a property; null names none, and only a text can be read. -/
def policyOfJson (v : Json) : Except Fault (KeyUpdatePolicy × List PolicyWarning) :=
  match v with
  | .null => .ok (.abend, [⟨.null⟩])
  | .text value => .ok (policyOfText value)
  | _ => .error (.noAttribute v.kind "strip")

/-- A truth value in a property: the word `true`, blanks and case aside. -/
def flagOfJson (default : Bool) : Option Json → Bool
  | none => default
  | some .null => default
  | some v => Text.lower (Text.strip v.display.shown) = "true"

/-- The settings given by properties; unknown names are ignored. -/
def ofProperties (props : Json) : Except Fault (Settings × List PolicyWarning) := do
  let insertKey ← props.optionalMember "insert-op-key"
  let updateKey ← props.optionalMember "update-op-key"
  let deleteKey ← props.optionalMember "delete-op-key"
  let handling ← props.optionalMember "pk-update-handling"
  let (policy, warnings) ← policyOfJson (handling.getD (.text KeyUpdatePolicy.abend.name))
  let asText ← props.optionalMember "treat-all-as-strings"
  let isoStamps ← props.optionalMember "use-iso8601-timestamp"
  let withKeyNames ← props.optionalMember "include-primary-keys"
  let withTokens ← props.optionalMember "include-tokens"
  let settings : Settings :=
    { insertKey := insertKey.getD (.text "I")
      updateKey := updateKey.getD (.text "U")
      deleteKey := deleteKey.getD (.text "D")
      keyUpdates := policy
      asText := flagOfJson false asText
      isoStamps := flagOfJson true isoStamps
      withKeyNames := flagOfJson false withKeyNames
      withTokens := flagOfJson false withTokens }
  .ok (settings, warnings)

/-- A truth value in a variable: the word `true`, case aside. -/
def flagOfText (default : Bool) : Option Text → Bool
  | none => default
  | some value => Text.lower value.shown = "true"

/-- The variables that give the settings. -/
def variableNames : List String :=
  ["FORMATTER_INSERT_OP_KEY", "FORMATTER_UPDATE_OP_KEY", "FORMATTER_DELETE_OP_KEY",
    "FORMATTER_PK_UPDATE_HANDLING", "FORMATTER_TREAT_ALL_AS_STRINGS", "FORMATTER_USE_ISO8601",
    "FORMATTER_INCLUDE_PRIMARY_KEYS", "FORMATTER_INCLUDE_TOKENS"]

/-- The settings given by environment variables. -/
def ofEnvironment (env : List (String × Text)) : Settings × List PolicyWarning :=
  let textOr (default name : String) : Json :=
    .text ((env.lookup name).getD default)
  let (policy, warnings) :=
    policyOfText
      ((env.lookup "FORMATTER_PK_UPDATE_HANDLING").getD KeyUpdatePolicy.abend.name)
  ({ insertKey := textOr "I" "FORMATTER_INSERT_OP_KEY"
     updateKey := textOr "U" "FORMATTER_UPDATE_OP_KEY"
     deleteKey := textOr "D" "FORMATTER_DELETE_OP_KEY"
     keyUpdates := policy
     asText := flagOfText false (env.lookup "FORMATTER_TREAT_ALL_AS_STRINGS")
     isoStamps := flagOfText true (env.lookup "FORMATTER_USE_ISO8601")
     withKeyNames := flagOfText false (env.lookup "FORMATTER_INCLUDE_PRIMARY_KEYS")
     withTokens := flagOfText false (env.lookup "FORMATTER_INCLUDE_TOKENS") },
    warnings)

theorem key?_kind
    (settings : Settings)
    (emission : Emission) :
    settings.key? emission.kind = some (settings.keyOf emission) := by
  cases emission <;> rfl

end Settings
end ChangeFeed
