import ChangeFeed.Json.Basic

/-!
# Identity of names

Names of tables and columns may be any JSON value. Names are the same when
their identities are: integers, truth values and doubles of one numeric value
are one name, as true and 1 are, and NaN is the same as itself. Arrays and
objects have no identity and cannot name anything that is looked up.

**Results.**

* `identity?_eq_text_iff`: nothing but a text has the identity of a text.
-/

namespace ChangeFeed

/-- What a name is looked up by. -/
inductive Identity where
  | null
  | integer (n : Int)
  | number (x : Number.Double)
  | text (s : Text)
deriving DecidableEq

namespace Json

/-- The identity of a double: an integer if its value is one. -/
def identityOfNumber (x : Number.Double) : Identity :=
  match x.toRat? with
  | some v => if v.den = 1 then .integer v.num else .number x
  | none => .number x

/-- The identity of a value that can be a name. -/
def identity? : Json → Option Identity
  | .null => some .null
  | .bool b => some (.integer (if b then 1 else 0))
  | .integer n => some (.integer n)
  | .number x => some (identityOfNumber x)
  | .text s => some (.text s)
  | .array _ => none
  | .object _ => none

@[simp] theorem identity?_text (s : Text) :
    identity? (.text s) = some (.text s) := rfl

theorem identity?_eq_text_iff
    {v : Json}
    {s : Text} :
    v.identity? = some (.text s) ↔ v = .text s := by
  cases v with
  | number x =>
      simp only [identity?, identityOfNumber]
      split
      · split <;> simp
      · simp
  | _ => simp [identity?]

end Json
end ChangeFeed
