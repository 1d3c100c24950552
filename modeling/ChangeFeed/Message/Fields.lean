import ChangeFeed.Fault
import ChangeFeed.Json.Basic

/-!
# Taking messages apart

A message may be any JSON value. These functions ask it for a member, for its
elements or for an integer, and fail with the fault of the first value that is
not as it should be.

**Results.**

* `member_object`: a member that is there is found.
-/

namespace ChangeFeed
namespace Json

/-- The member that an object has to have. -/
def member (v : Json) (name : String) : Except Fault Json :=
  match v with
  | .object members =>
      match find? members name with
      | some value => .ok value
      | none => .error (.missingMember name)
  | _ => .error (.notSubscriptable v.kind)

/-- The member of an object, if it has one of this name. -/
def optionalMember (v : Json) (name : String) : Except Fault (Option Json) :=
  match v with
  | .object members => .ok (find? members name)
  | _ => .error (.noAttribute v.kind "get")

/--
The elements of a value in order: the items of an array, the characters of a
text, the names of the members of an object.
-/
def elements (v : Json) : Except Fault (List Json) :=
  match v with
  | .array items => .ok items
  | .text s => .ok (s.symbols.map fun symbol => .text (.ofUnits symbol.units))
  | .object members => .ok (members.map fun m => .text m.1)
  | _ => .error (.notIterable v.kind)

/-- The members of an object, none for a value that counts as false. -/
def membersIfAny (v : Json) : Except Fault (List (Text × Json)) :=
  if v.isTruthy then
    match v with
    | .object members => .ok members
    | _ => .error (.noAttribute v.kind "items")
  else
    .ok []

/-- The double without its fraction. -/
def truncate (x : Number.Double) : Except Fault Int :=
  match x, x.truncate? with
  | _, some n => .ok n
  | .nan, none => .error .integerFromNaN
  | _, none => .error .integerFromInfinity

/-- The integer that a value stands for. -/
def toInteger (v : Json) : Except Fault Int :=
  match v with
  | .integer n => .ok n
  | .bool b => .ok (if b then 1 else 0)
  | .number x => truncate x
  | .text s =>
      match Number.Integer.read s.shown with
      | .ok n => .ok n
      | .error .malformed => .error (.notInteger s)
      | .error (.tooLong digits) => .error (.tooManyDigits digits)
  | _ => .error (.notNumber v.kind)

theorem member_object
    (members : List (Text × Json))
    (name : String)
    (value : Json)
    (h : find? members name = some value) :
    (Json.object members).member name = .ok value := by
  simp [member, h]

end Json
end ChangeFeed
