import ChangeFeed.Proofs.Session.Stamped

/-!
# What containers hold

A caller formats changes into containers of its own and clears them as it likes.
Of all that it does, two things tell in a container: a change that was formatted
into it, and clearing it. The last of these settles what the container holds.

**Results.**

* `containers_act`: what an action leaves in a container.
* `containers_run_eq`: what actions leave in a container.
* `containers_act_of_error`, `containers_act_of_not_given`: what leaves a container as it is.
* `containers_run`: what containers hold after actions, from empty ones on.
-/

namespace ChangeFeed

/-- The pairs are all that a container holds, in order, with the first slot filled first. -/
structure Container.Holds
    (container : Container)
    (pairs : List Emitted) : Prop where
  toList_eq : container.toList = pairs
  primary_eq : container.primary = pairs[0]?
  secondary_eq : container.secondary = pairs[1]?
  primary_of_secondary : container.secondary.isSome = true → container.primary.isSome = true
  length_eq : container.length = container.primary.isSome.toNat + container.secondary.isSome.toNat

/-- A container holds the pairs that were put into it, if there are not too many. -/
theorem Container.holds_ofList
    {pairs : List Emitted}
    (h : pairs.length ≤ 2) :
    (ofList pairs).Holds pairs := by
  match pairs, h with
  | [], _ => exact ⟨rfl, rfl, rfl, id, rfl⟩
  | [_], _ => exact ⟨rfl, rfl, rfl, nofun, rfl⟩
  | [_, _], _ => exact ⟨rfl, rfl, rfl, id, rfl⟩
  | _ :: _ :: _ :: _, h => simp at h

namespace Session

/-- What tells in a container: pairs that were put into it, or that it was cleared. -/
inductive Deed where
  | filled (name : String) (pairs : List Emitted)
  | cleared (name : String)

/-- The container that an action is given. -/
def Action.given? : Action → Option String
  | .call (.format _ _ into) => some into
  | .call (.notify _) => none
  | .clear name => some name

namespace Deed

/-- The container that a deed is about. -/
def name : Deed → String
  | .filled name _ => name
  | .cleared name => name

/-- The pairs that a deed leaves. -/
def leaves : Deed → List Emitted
  | .filled _ pairs => pairs
  | .cleared _ => []

end Deed

/-- What an action does that tells in a container: a failed call and a notice do nothing. -/
def deed?
    (settings : Settings)
    (clock : Clock)
    (formatter : Formatter) : Action → Option Deed
  | .clear name => some (.cleared name)
  | .call (.notify _) => none
  | .call (.format change table into) =>
      match (formatter.format settings clock change table).result with
      | .ok pairs => some (.filled into pairs)
      | .error _ => none

/-- The deeds of actions, in order. -/
def deeds
    (settings : Settings)
    (clock : Clock)
    (state : State) : List Action → List Deed
  | [] => []
  | action :: rest =>
      (deed? settings clock state.formatter action).toList ++
        deeds settings clock (act settings clock state action) rest

/-- What the last deed about a container leaves, if there is one. -/
def held? (name : String) (deeds : List Deed) : Option (List Emitted) :=
  (deeds.filter fun deed => deed.name = name).getLast?.map Deed.leaves

theorem held?_append
    (name : String)
    (first second : List Deed) :
    held? name (first ++ second) = (held? name second).or (held? name first) := by
  rw [held?, List.filter_append, List.getLast?_append, Option.map_or]
  rfl

section Containers

variable {settings : Settings}
variable {clock : Clock}

/-- An action leaves in a container what its deed leaves, if that is about the container. -/
theorem containers_act
    (state : State)
    (action : Action)
    (name : String) :
    (act settings clock state action).containers name =
      ((held? name (deed? settings clock state.formatter action).toList).map
        Container.ofList).getD (state.containers name) := by
  cases action with
  | clear other =>
      by_cases hname : name = other
      · simp [act, deed?, held?, Deed.name, Deed.leaves, hname, Container.clear, Container.ofList]
      · simp [act, deed?, held?, Deed.name, hname, Ne.symm hname]
  | call call =>
      cases call with
      | notify notice => rfl
      | format change table into =>
          simp only [act, answer, Call.fill, Call.message, Formatter.respond, deed?]
          cases (state.formatter.format settings clock change table).result with
          | error failure => rfl
          | ok pairs =>
              by_cases hname : name = into
              · simp [held?, Deed.name, Deed.leaves, hname]
              · simp [held?, Deed.name, hname, Ne.symm hname]

/-- A container holds what the last deed about it leaves. -/
theorem containers_run_eq
    (state : State)
    (actions : List Action)
    (name : String) :
    (run settings clock state actions).containers name =
      ((held? name (deeds settings clock state actions)).map Container.ofList).getD
        (state.containers name) := by
  induction actions generalizing state with
  | nil => rfl
  | cons action rest ih =>
      have hrest := ih (act settings clock state action)
      rw [containers_act] at hrest
      rw [run, List.foldl_cons, ← run, hrest, deeds, held?_append, Option.map_or]
      cases held? name (deeds settings clock (act settings clock state action) rest) <;> simp

/-- A deed is about the container that the action was given, and leaves what a container holds. -/
theorem deed?_eq_some
    {formatter : Formatter}
    {action : Action}
    {deed : Deed}
    (h : deed? settings clock formatter action = some deed) :
    action.given? = some deed.name ∧ deed.leaves.length ≤ 2 := by
  unfold deed? at h
  split at h
  · cases h
    exact ⟨rfl, Nat.zero_le 2⟩
  · contradiction
  · split at h
    · next pairs hok =>
        cases h
        exact ⟨rfl, Formatter.length_le_of_format hok⟩
    · contradiction

theorem length_le_of_mem_deeds
    {state : State}
    {actions : List Action}
    {deed : Deed}
    (h : deed ∈ deeds settings clock state actions) :
    deed.leaves.length ≤ 2 := by
  induction actions generalizing state with
  | nil => contradiction
  | cons action rest ih =>
      rcases List.mem_append.1 h with hfirst | hrest
      · exact (deed?_eq_some (Option.mem_toList.1 hfirst)).2
      · exact ih hrest

theorem exists_mem_of_held?
    {name : String}
    {deeds : List Deed}
    {pairs : List Emitted}
    (h : held? name deeds = some pairs) :
    ∃ deed ∈ deeds, deed.name = name ∧ deed.leaves = pairs := by
  obtain ⟨deed, hlast, hleaves⟩ := Option.map_eq_some_iff.1 h
  obtain ⟨hmem, hname⟩ := List.mem_filter.1 (List.mem_of_getLast? hlast)
  exact ⟨deed, hmem, by simpa using hname, hleaves⟩

/-- An action tells in no container but the one that it is given. -/
theorem containers_act_of_not_given
    {action : Action}
    {name : String}
    (state : State)
    (h : action.given? ≠ some name) :
    (act settings clock state action).containers name = state.containers name := by
  have hnone : held? name (deed? settings clock state.formatter action).toList = none := by
    rw [Option.eq_none_iff_forall_ne_some]
    intro pairs hheld
    obtain ⟨deed, hmem, hname, -⟩ := exists_mem_of_held? hheld
    exact h (hname ▸ (deed?_eq_some (Option.mem_toList.1 hmem)).1)
  rw [containers_act, hnone]
  rfl

/-- A call that fails tells in no container. -/
theorem containers_act_of_error
    {change : Change}
    {table : Table}
    {failure : Failure}
    (state : State)
    (into : String)
    (h : (state.formatter.format settings clock change table).result = .error failure) :
    (act settings clock state (.call (.format change table into))).containers =
      state.containers := by
  funext name
  rw [containers_act]
  simp only [deed?, h]
  rfl

/-- A call that succeeds replaces all that its container held. -/
theorem holds_act_of_ok
    {change : Change}
    {table : Table}
    {pairs : List Emitted}
    (state : State)
    (into : String)
    (h : (state.formatter.format settings clock change table).result = .ok pairs) :
    pairs ≠ [] ∧
      ((act settings clock state (.call (.format change table into))).containers into).Holds
        pairs := by
  constructor
  · obtain ⟨build, columns, -, -, hplan, hemit⟩ := Formatter.format_eq_ok h
    rw [← List.length_pos_iff, Formatter.emitAll_length _ _ _ _ _ _ _ _ _ hemit]
    exact List.length_pos_iff.2 hplan
  · rw [containers_act]
    simp only [deed?, h, held?, Option.toList_some, Deed.name, decide_true, List.filter_cons_of_pos,
      List.filter_nil, List.getLast?_singleton, Option.map_some, Deed.leaves, Option.getD_some]
    exact Container.holds_ofList (Formatter.length_le_of_format h)

end Containers

/--
Whatever a caller formats into empty containers and clears, a container holds the
pairs of the last change that was formatted into it, or nothing if it was cleared
since or never filled. A call that succeeds replaces all that the container held; a
call that fails changes no container, and no other action changes any container but
the one that it is given.
-/
theorem containers_run
    (settings : Settings)
    (clock : Clock)
    (formatter : Formatter)
    (actions : List Action) :
    (∀ name,
      ((run settings clock { formatter := formatter } actions).containers name).Holds
        ((held? name (deeds settings clock { formatter := formatter } actions)).getD []))
      ∧
    (∀ (state : State) (change : Change) (table : Table) (into : String) (pairs : List Emitted),
      (state.formatter.format settings clock change table).result = .ok pairs →
      pairs ≠ [] ∧
      ((act settings clock state (.call (.format change table into))).containers into).Holds
        pairs)
      ∧
    (∀ (state : State) (change : Change) (table : Table) (into : String) (failure : Failure),
      (state.formatter.format settings clock change table).result = .error failure →
      (act settings clock state (.call (.format change table into))).containers =
        state.containers)
      ∧
    ∀ (state : State) (action : Action) (name : String),
      action.given? ≠ some name →
      (act settings clock state action).containers name = state.containers name := by
  refine ⟨fun name => ?_, fun state change table into pairs => holds_act_of_ok state into,
    fun state change table into failure => containers_act_of_error state into,
    fun state action name => containers_act_of_not_given state⟩
  rw [containers_run_eq]
  cases hheld : held? name (deeds settings clock { formatter := formatter } actions) with
  | none =>
      have hempty : (Container.ofList []).Holds [] := Container.holds_ofList (Nat.zero_le 2)
      exact hempty
  | some pairs =>
      obtain ⟨deed, hmem, -, rfl⟩ := exists_mem_of_held? hheld
      exact Container.holds_ofList (length_le_of_mem_deeds hmem)

end Session

namespace Item

/-- An item is renumbered, another cannot be read, an item arrives, and the container is cleared. -/
def refilled : List Session.Action :=
  [.call (.format renumbered table "out"), .call (.format misread priced "out"),
    .call (.format arrived priced "out"), .clear "out"]

/-- The container after so many of these actions. -/
def outAfter (n : Nat) : Container :=
  (Session.run { keyUpdates := .deleteInsert } clock (.start { keyUpdates := .deleteInsert })
    (refilled.take n)).containers "out"

/-- What the last deed about the container leaves, after so many of these actions. -/
def heldAfter (n : Nat) : List Emitted :=
  (Session.held? "out"
    (Session.deeds { keyUpdates := .deleteInsert } clock (.start { keyUpdates := .deleteInsert })
    (refilled.take n))).getD []

end Item

/-- Two records stay where a call fails, then give way to one, until the container is cleared. -/
theorem Session.containers_run_refilled :
    (∃ failure,
      ((run { keyUpdates := .deleteInsert } Item.clock (.start { keyUpdates := .deleteInsert })
        (Item.refilled.take 1)).formatter.format { keyUpdates := .deleteInsert } Item.clock
          Item.misread Item.priced).result = .error failure) ∧
      Item.outAfter 2 = Item.outAfter 1 ∧
      (Item.outAfter 2).toList.length = 2 ∧
      (Item.outAfter 3).toList.length = 1 ∧
      (Item.outAfter 3).secondary = none ∧
      (Item.outAfter 4).toList = [] := by
  have hfailed :
      ∃ failure,
        ((run { keyUpdates := .deleteInsert } Item.clock (.start { keyUpdates := .deleteInsert })
          (Item.refilled.take 1)).formatter.format { keyUpdates := .deleteInsert } Item.clock
            Item.misread Item.priced).result = .error failure :=
    ⟨_, rfl⟩
  have hrules :=
    containers_run { keyUpdates := .deleteInsert } Item.clock
      (.start { keyUpdates := .deleteInsert })
  have hholds : ∀ n, (Item.outAfter n).Holds (Item.heldAfter n) :=
    fun n => (hrules (Item.refilled.take n)).1 "out"
  obtain ⟨failure, hfailure⟩ := hfailed
  have hkept := (hrules []).2.2.1 _ _ _ "out" _ hfailure
  have hlengths :
      (Item.heldAfter 2).length = 2 ∧
        (Item.heldAfter 3).length = 1 ∧
        (Item.heldAfter 4).length = 0 := by
    decide +kernel
  obtain ⟨htwo, hone, hnone⟩ := hlengths
  refine ⟨⟨failure, hfailure⟩, congrFun hkept "out", ?_, ?_, ?_, ?_⟩
  · rw [(hholds 2).toList_eq, htwo]
  · rw [(hholds 3).toList_eq, hone]
  · rw [(hholds 3).secondary_eq, List.getElem?_eq_none hone.le]
  · rw [(hholds 4).toList_eq, List.eq_nil_of_length_eq_zero hnone]

end ChangeFeed
