import ChangeFeed.Json.Writer
import ChangeFeed.Record.Basic

/-!
# Records as lines

A record and its key record are written as one line of strict JSON. Numbers that
are not finite are written as texts. A name that is no text is written as one,
which a number that is not finite cannot be. An operation key or a name that is
nested too deeply keeps the line from being written; this is the fault even where
another name cannot be written.

**Results.**

* `memberName?_text`: a text is its own member name.
-/

namespace ChangeFeed

/-- The member name that a name is written as. -/
def Json.memberName? : Json → Option Text
  | .null => some "null"
  | .bool b => some ↑(if b then "true" else "false")
  | .integer n => some (String.ofList (Writer.integer n))
  | .number x => if x.isFinite then some x.text else none
  | .text s => some s
  | _ => none

@[simp] theorem Json.memberName?_text (s : Text) :
    Json.memberName? (.text s) = some s := rfl

namespace Block

/-- The members that a block is written as. -/
def members : Block → Except Fault (List (Text × Json))
  | [] => .ok []
  | (name, value) :: rest =>
      match name.memberName? with
      | none => .error .nonFiniteName
      | some member => do
          let others ← members rest
          .ok ((member, value.toJson) :: others)

/-- The JSON value that a block is written as, null for none. -/
def toJson : Option Block → Except Fault Json
  | none => .ok .null
  | some block => do
      let members ← members block
      .ok (.object members)

end Block

namespace Record

/-- The JSON value of the source of a record. -/
def sourceJson (record : Record) : Json :=
  .object (record.source.map fun entry => (entry.1, entry.2.toJson))

/-- The JSON value of optional key names. -/
def keyNamesJson (record : Record) : Json :=
  match record.keyNames with
  | none => .null
  | some names => .array names

/-- The number of arrays and objects inside one another in the parts whose form is free. -/
def nesting (record : Record) : Nat :=
  max record.key.depth record.keyNamesJson.depth

/-- The JSON value of optional tokens. -/
def tokensJson (record : Record) : Json :=
  match record.tokens with
  | none => .null
  | some tokens => .object (tokens.map fun token => (token.1, .text token.2))

/-- The JSON value of a record. -/
def toJson (record : Record) : Except Fault Json := do
  let before ← Block.toJson (record.on .before)
  let after ← Block.toJson (record.on .after)
  .ok
    (.object
      [("table", .text record.table), ("op_type", record.key), ("op_ts", .text record.time),
        ("current_ts", .text record.stamp), ("pos", .text record.position),
        ("primary_keys", record.keyNamesJson), ("tokens", record.tokensJson),
        ("source", record.sourceJson), ("before", before), ("after", after)])

end Record

namespace Emitted

/-- The JSON value of a pair. -/
def toJson (pair : Emitted) : Except Fault Json := do
  let key ← Block.toJson pair.key
  let value ← pair.record.toJson
  .ok (.object [("key", key), ("value", value)])

/--
The greatest number of arrays and objects inside one another that a line may have.
Each of them takes two of the thousand calls that may be made inside one another, and
the eight calls that lead to the writer take theirs.
-/
def nestingLimit : Nat := (1000 - 8) / 2

/--
The line of a pair, without its end. The free parts of a record stand two levels
deep in it, and all other parts are nested to a few levels only.
-/
def line (pair : Emitted) : Except Fault String :=
  if pair.record.nesting + 2 ≤ nestingLimit then do
    let v ← pair.toJson
    .ok (String.ofList v.strict.write)
  else
    .error .tooDeep

/-- The lines of pairs, up to the first that cannot be written, and why it cannot. -/
def lines : List Emitted → String × Option Fault
  | [] => ("", none)
  | pair :: rest =>
      match pair.line with
      | .error fault => ("", some fault)
      | .ok text =>
          let (others, fault) := lines rest
          (text ++ "\n" ++ others, fault)

end Emitted
end ChangeFeed
