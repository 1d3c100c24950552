import ChangeFeed.Number.Floating
import ChangeFeed.Text.Basic

/-!
# JSON values

The values that messages carry. Integers are unbounded and apart from numbers
with a point or an exponent, which are doubles; the members of an object keep
their order. `Json.ofMembers` makes an object of members in which a name may
come twice: the last value wins, at the place of the first.

**Results.**

* `keys_insert_of_mem`, `keys_insert_of_not_mem`: inserting under a known name
  keeps the names, inserting under a new one adds it at the end.
-/

namespace ChangeFeed

/-- A JSON value. -/
inductive Json where
  | null
  | bool (b : Bool)
  | integer (n : Int)
  | number (x : Number.Double)
  | text (s : Text)
  | array (items : List Json)
  | object (members : List (Text × Json))

namespace Json

/-- The kinds of JSON values, integers apart from other numbers. -/
inductive Kind where
  | null
  | bool
  | integer
  | number
  | text
  | array
  | object
deriving DecidableEq

/-- The word for a kind. -/
def Kind.word : Kind → String
  | .null => "NoneType"
  | .bool => "bool"
  | .integer => "int"
  | .number => "float"
  | .text => "str"
  | .array => "list"
  | .object => "dict"

/-- The kind of a value. -/
def kind : Json → Kind
  | .null => .null
  | .bool _ => .bool
  | .integer _ => .integer
  | .number _ => .number
  | .text _ => .text
  | .array _ => .array
  | .object _ => .object

/-- The value of the member of this name. -/
def find? (members : List (Text × Json)) (name : Text) : Option Json :=
  members.lookup name

/-- The members with `value` under `name`, in place if the name is there. -/
def insert
    (members : List (Text × Json))
    (name : Text)
    (value : Json) : List (Text × Json) :=
  match members with
  | [] => [(name, value)]
  | (key, old) :: rest =>
      if key = name then
        (key, value) :: rest
      else
        (key, old) :: insert rest name value

/-- The object of these members, in which a name may come more than once. -/
def ofMembers (members : List (Text × Json)) : Json :=
  .object (members.foldl (fun acc member => insert acc member.1 member.2) [])

/--
Whether the value counts as true: all do but null, false, the zeros and the
empty text, array and object.
-/
def isTruthy : Json → Bool
  | .null => false
  | .bool b => b
  | .integer n => n != 0
  | .number x => !x.isZero
  | .text s => !s.isEmpty
  | .array items => !items.isEmpty
  | .object members => !members.isEmpty

mutual

/-- The number of arrays and objects inside one another. -/
def depth : Json → Nat
  | .array items => itemsDepth items + 1
  | .object members => membersDepth members + 1
  | _ => 0

/-- The greatest depth of the items of an array. -/
def itemsDepth : List Json → Nat
  | [] => 0
  | item :: rest => max (depth item) (itemsDepth rest)

/-- The greatest depth of the members of an object. -/
def membersDepth : List (Text × Json) → Nat
  | [] => 0
  | (_, v) :: rest => max (depth v) (membersDepth rest)

end

theorem keys_insert_of_mem
    (members : List (Text × Json))
    (name : Text)
    (value : Json)
    (h : name ∈ members.map Prod.fst) :
    (insert members name value).map Prod.fst = members.map Prod.fst := by
  induction members with
  | nil => simp at h
  | cons member rest ih =>
      obtain ⟨key, old⟩ := member
      by_cases hk : key = name
      · simp [insert, hk]
      · have h' : name ∈ rest.map Prod.fst := by
          simpa [Ne.symm hk] using h
        simpa [insert, hk] using ih h'

theorem keys_insert_of_not_mem
    (members : List (Text × Json))
    (name : Text)
    (value : Json)
    (h : name ∉ members.map Prod.fst) :
    (insert members name value).map Prod.fst = members.map Prod.fst ++ [name] := by
  induction members with
  | nil => rfl
  | cons member rest ih =>
      obtain ⟨key, old⟩ := member
      simp only [List.map_cons, List.mem_cons, not_or] at h
      simp only [insert, Ne.symm h.1, if_false, List.map_cons, List.cons_append]
      rw [ih h.2]

end Json
end ChangeFeed
