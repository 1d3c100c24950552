import ChangeFeed.Json.Reader
import ChangeFeed.Json.Writer

/-!
# Values that can be read

Only three things can be in the way when a value is read from what was written of
it, which the reader refuses or does not tell apart: an integer of too many digits,
a name that comes twice in an object, and too many arrays and objects inside one
another. A value without the first two is readable; the third is a matter of its
depth. Texts in place of numbers that are not finite change neither.

**Results.**

* `ofMembers_of_nodup`: members with different names are an object as they are.
* `readable_strict`, `depth_strict`: what the strict value has of these.
-/

namespace ChangeFeed
namespace Json

mutual

/-- All integers of a value are short enough to be read, and names do not repeat. -/
def Readable : Json → Prop
  | .integer n => (Nat.toDigits 10 n.natAbs).length ≤ Number.Integer.digitLimit
  | .array items => ItemsReadable items
  | .object members => (members.map Prod.fst).Nodup ∧ MembersReadable members
  | _ => True

/-- The items of an array are readable. -/
def ItemsReadable : List Json → Prop
  | [] => True
  | item :: rest => Readable item ∧ ItemsReadable rest

/-- The members of an object are readable. -/
def MembersReadable : List (Text × Json) → Prop
  | [] => True
  | (_, v) :: rest => Readable v ∧ MembersReadable rest

end

theorem membersReadable_iff (members : List (Text × Json)) :
    MembersReadable members ↔ ∀ member ∈ members, Readable member.2 := by
  induction members with
  | nil =>
      simp [MembersReadable]
  | cons member rest ih =>
      obtain ⟨name, v⟩ := member
      simp [MembersReadable, ih]

theorem membersDepth_le_iff
    (members : List (Text × Json))
    (depth : Nat) :
    membersDepth members ≤ depth ↔ ∀ member ∈ members, member.2.depth ≤ depth := by
  induction members with
  | nil =>
      simp [membersDepth]
  | cons member rest ih =>
      obtain ⟨name, v⟩ := member
      rw [membersDepth, Nat.max_le, ih, List.forall_mem_cons]

section Members

/-- Members with different names are put one after another. -/
theorem insert_of_not_mem
    (members : List (Text × Json))
    (name : Text)
    (v : Json)
    (h : name ∉ members.map Prod.fst) :
    insert members name v = members ++ [(name, v)] := by
  induction members with
  | nil =>
      rfl
  | cons member rest ih =>
      obtain ⟨key, old⟩ := member
      simp only [List.map_cons, List.mem_cons, not_or] at h
      simp [insert, Ne.symm h.1, ih h.2]

theorem foldl_insert
    {done members : List (Text × Json)}
    (h : ((done ++ members).map Prod.fst).Nodup) :
    members.foldl (fun acc member => insert acc member.1 member.2) done = done ++ members := by
  induction members generalizing done with
  | nil =>
      simp
  | cons member rest ih =>
      have hnew : member.1 ∉ done.map Prod.fst := by
        rw [List.map_append, List.map_cons] at h
        intro hmem
        exact (List.nodup_append.1 h).2.2 _ hmem _ (List.mem_cons_self ..) rfl
      rw [List.foldl_cons, insert_of_not_mem done member.1 member.2 hnew, ih (by simpa using h)]
      simp

theorem ofMembers_of_nodup
    {members : List (Text × Json)}
    (h : (members.map Prod.fst).Nodup) :
    ofMembers members = .object members := by
  rw [ofMembers, foldl_insert (by simpa using h), List.nil_append]

end Members

section Strict

theorem keys_strictMembers (members : List (Text × Json)) :
    (strictMembers members).map Prod.fst = members.map Prod.fst := by
  induction members with
  | nil =>
      rfl
  | cons member rest ih =>
      obtain ⟨name, v⟩ := member
      simp [strictMembers, ih]

mutual

theorem readable_strict
    (v : Json)
    (h : Readable v) :
    Readable v.strict := by
  match v with
  | .null => exact h
  | .bool _ => exact h
  | .integer _ => exact h
  | .number .nan => trivial
  | .number (.infinite _) => trivial
  | .number (.finite ..) => trivial
  | .text _ => exact h
  | .array items => exact itemsReadable_strictItems items h
  | .object members =>
      have hnames : ((strictMembers members).map Prod.fst).Nodup := by
        rw [keys_strictMembers]
        exact h.1
      exact ⟨hnames, membersReadable_strictMembers members h.2⟩

theorem itemsReadable_strictItems
    (items : List Json)
    (h : ItemsReadable items) :
    ItemsReadable (strictItems items) := by
  match items with
  | [] => trivial
  | item :: rest =>
      exact ⟨readable_strict item h.1, itemsReadable_strictItems rest h.2⟩

theorem membersReadable_strictMembers
    (members : List (Text × Json))
    (h : MembersReadable members) :
    MembersReadable (strictMembers members) := by
  match members with
  | [] => trivial
  | (_, v) :: rest =>
      exact ⟨readable_strict v h.1, membersReadable_strictMembers rest h.2⟩

end

mutual

theorem depth_strict (v : Json) :
    v.strict.depth = v.depth := by
  match v with
  | .null => rfl
  | .bool _ => rfl
  | .integer _ => rfl
  | .number .nan => rfl
  | .number (.infinite _) => rfl
  | .number (.finite ..) => rfl
  | .text _ => rfl
  | .array items => exact congrArg (· + 1) (itemsDepth_strictItems items)
  | .object members => exact congrArg (· + 1) (membersDepth_strictMembers members)

theorem itemsDepth_strictItems (items : List Json) :
    itemsDepth (strictItems items) = itemsDepth items := by
  match items with
  | [] => rfl
  | item :: rest =>
      rw [strictItems, itemsDepth, itemsDepth, depth_strict item, itemsDepth_strictItems rest]

theorem membersDepth_strictMembers (members : List (Text × Json)) :
    membersDepth (strictMembers members) = membersDepth members := by
  match members with
  | [] => rfl
  | (_, v) :: rest =>
      rw [strictMembers, membersDepth, membersDepth, depth_strict v,
        membersDepth_strictMembers rest]

end

end Strict

end Json
end ChangeFeed
