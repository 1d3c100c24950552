import ChangeFeed.Proofs.Formatter.Prescription

/-!
# Updates of key columns as other changes

Under the policy that splits them, an update of key columns is a delete and then
an insert of the same row, not only in what it emits but in all it does to the
formatter: the schemas are asked for once and found the second time, and the
stamps are taken in the same order. Under the policy that treats it as an update
it is one.

**Results.**

* `format_split`: a split is the delete and then the insert, up to the first
  failure.
* `formatInto_keyUpdate`: both policies, with the container.
-/

namespace ChangeFeed

namespace Change

/-- The same change under another kind. -/
def retyped (change : Change) (kind : ChangeKind) : Change :=
  { change with kind := kind }

theorem retyped_eq_self
    {change : Change}
    {kind : ChangeKind}
    (h : change.kind = kind) :
    change.retyped kind = change := by
  subst h
  rfl

end Change

namespace Formatter

/-- A step and, if it succeeds, another one from the formatter it leaves. -/
def andThen
    (first : Outcome Failure (List Emitted))
    (second : Formatter → Outcome Failure (List Emitted)) :
    Except Failure (List Emitted) × Formatter :=
  match first.result with
  | .error failure => (.error failure, first.state)
  | .ok pairs =>
      match (second first.state).result with
      | .error failure => (.error failure, (second first.state).state)
      | .ok others => (.ok (pairs ++ others), (second first.state).state)

section KeyUpdate

variable {settings : Settings}
variable {change : Change}
variable {table : Table}

/-- A change that fits its table comes to the emissions of the kind it is given. -/
theorem format_of_emissions
    (clock : Clock)
    (state : Formatter)
    (kind : ChangeKind)
    {build : Schema.Build}
    {columns : List Aligned}
    {emissions : List Emission}
    (hrequest : (state.cache.request table.name table).result = .ok build)
    (halign : align change table = .ok columns)
    (hplan : (Plan.ofKind kind settings.keyUpdates).emissions = emissions)
    (hemits : emissions ≠ []) :
    (format settings clock state (change.retyped kind) table).result =
        (emitAll settings clock change table columns build.schemas.hasKey state.stamps
          emissions).1 ∧
      (format settings clock state (change.retyped kind) table).state =
        ⟨(state.cache.request table.name table).cache,
          (emitAll settings clock change table columns build.schemas.hasKey state.stamps
            emissions).2⟩ := by
  obtain ⟨hresult, hstate⟩ := format_of_request_ok settings clock (change.retyped kind) hrequest
  have halign' : align (change.retyped kind) table = .ok columns := halign
  have hplan' :
      (Plan.ofKind (change.retyped kind).kind settings.keyUpdates).emissions = emissions :=
    hplan
  have hassemble :
      assemble settings clock state.stamps (change.retyped kind) table build.schemas.hasKey =
        emitAll settings clock change table columns build.schemas.hasKey state.stamps
          emissions := by
    rw [assemble_of_emits halign' (by rw [hplan']; exact hemits), hplan']
    exact emitAll_kind kind state.stamps emissions
  rw [hresult, hstate, hassemble]
  exact ⟨rfl, rfl⟩

/-- A change that does not fit its table takes no stamp, whatever its kind. -/
theorem format_of_misaligned
    (settings : Settings)
    (clock : Clock)
    (state : Formatter)
    (kind : ChangeKind)
    {build : Schema.Build}
    {failure : Failure}
    (hrequest : (state.cache.request table.name table).result = .ok build)
    (halign : align change table = .error failure) :
    (format settings clock state (change.retyped kind) table).result = .error failure ∧
      (format settings clock state (change.retyped kind) table).state =
        ⟨(state.cache.request table.name table).cache, state.stamps⟩ := by
  obtain ⟨hresult, hstate⟩ := format_of_request_ok settings clock (change.retyped kind) hrequest
  have halign' : align (change.retyped kind) table = .error failure := halign
  have hassemble :
      assemble settings clock state.stamps (change.retyped kind) table build.schemas.hasKey =
        (.error failure, state.stamps) := by
    simp [assemble, halign']
  rw [hresult, hstate, hassemble]
  exact ⟨rfl, rfl⟩

/-- The schemas that the delete was built with are found by the insert after it. -/
theorem format_split_of_emits
    (clock : Clock)
    (state : Formatter)
    {build : Schema.Build}
    {columns : List Aligned}
    (hpolicy : settings.keyUpdates = .deleteInsert)
    (hrequest : (state.cache.request table.name table).result = .ok build)
    (halign : align change table = .ok columns) :
    ((format settings clock state (change.retyped .keyUpdate) table).result,
        (format settings clock state (change.retyped .keyUpdate) table).state) =
      andThen
        (format settings clock state (change.retyped .delete) table)
        (fun after => format settings clock after (change.retyped .insert) table) := by
  have hsplit :
      (Plan.ofKind .keyUpdate settings.keyUpdates).emissions = [.delete] ++ [.insert] := by
    rw [hpolicy]
    rfl
  have hdelete : (Plan.ofKind .delete settings.keyUpdates).emissions = [.delete] := rfl
  have hinsert : (Plan.ofKind .insert settings.keyUpdates).emissions = [.insert] := rfl
  obtain ⟨hresult, hstate⟩ :=
    format_of_emissions clock state .keyUpdate hrequest halign hsplit (by simp)
  obtain ⟨hdeleted, hdeletedState⟩ :=
    format_of_emissions clock state .delete hrequest halign hdelete (by simp)
  rw [hresult, hstate, emitAll_append]
  cases hfirst :
    emitAll settings clock change table columns build.schemas.hasKey state.stamps [.delete] with
  | mk first stamps =>
      rw [hfirst] at hdeleted hdeletedState
      cases first with
      | error failure =>
          simp only [andThen, hdeleted, hdeletedState]
      | ok pairs =>
          have hagain := Schema.Cache.request_again hrequest table
          generalize (state.cache.request table.name table).cache = cache at *
          have hfound : (cache.request table.name table).result = .ok build := by
            rw [hagain]
          obtain ⟨hinserted, hinsertedState⟩ :=
            format_of_emissions clock ⟨cache, stamps⟩ .insert hfound halign hinsert (by simp)
          simp only [andThen, hdeleted, hdeletedState, hinserted, hinsertedState, hagain]
          cases emitAll settings clock change table columns build.schemas.hasKey stamps
              [.insert] with
          | mk second stamps' => cases second <;> rfl

/-- A split is the delete and then the insert, up to the first failure. -/
theorem format_split
    (clock : Clock)
    (state : Formatter)
    (change : Change)
    (table : Table)
    (hpolicy : settings.keyUpdates = .deleteInsert) :
    ((format settings clock state (change.retyped .keyUpdate) table).result,
        (format settings clock state (change.retyped .keyUpdate) table).state) =
      andThen
        (format settings clock state (change.retyped .delete) table)
        (fun after => format settings clock after (change.retyped .insert) table) := by
  cases hrequest : (state.cache.request table.name table).result with
  | error fault =>
      obtain ⟨hresult, hstate⟩ :=
        format_of_request_error settings clock (change.retyped .keyUpdate) hrequest
      obtain ⟨hdeleted, hdeletedState⟩ :=
        format_of_request_error settings clock (change.retyped .delete) hrequest
      simp only [andThen, hresult, hstate, hdeleted, hdeletedState]
  | ok build =>
      cases halign : align change table with
      | error failure =>
          obtain ⟨hresult, hstate⟩ :=
            format_of_misaligned settings clock state .keyUpdate hrequest halign
          obtain ⟨hdeleted, hdeletedState⟩ :=
            format_of_misaligned settings clock state .delete hrequest halign
          simp only [andThen, hresult, hstate, hdeleted, hdeletedState]
      | ok columns =>
          exact format_split_of_emits clock state hpolicy hrequest halign

/-- An update of key columns that is treated as an update is one. -/
theorem format_treatedAsUpdate
    (clock : Clock)
    (state : Formatter)
    (change : Change)
    (table : Table)
    (hpolicy : settings.keyUpdates = .update) :
    (format settings clock state (change.retyped .keyUpdate) table).result =
        (format settings clock state (change.retyped .update) table).result ∧
      (format settings clock state (change.retyped .keyUpdate) table).state =
        (format settings clock state (change.retyped .update) table).state := by
  cases hrequest : (state.cache.request table.name table).result with
  | error fault =>
      obtain ⟨hresult, hstate⟩ :=
        format_of_request_error settings clock (change.retyped .keyUpdate) hrequest
      obtain ⟨hupdated, hupdatedState⟩ :=
        format_of_request_error settings clock (change.retyped .update) hrequest
      rw [hresult, hstate, hupdated, hupdatedState]
      exact ⟨rfl, rfl⟩
  | ok build =>
      cases halign : align change table with
      | error failure =>
          obtain ⟨hresult, hstate⟩ :=
            format_of_misaligned settings clock state .keyUpdate hrequest halign
          obtain ⟨hupdated, hupdatedState⟩ :=
            format_of_misaligned settings clock state .update hrequest halign
          rw [hresult, hstate, hupdated, hupdatedState]
          exact ⟨rfl, rfl⟩
      | ok columns =>
          have hkey : (Plan.ofKind .keyUpdate settings.keyUpdates).emissions = [.update] := by
            rw [hpolicy]
            rfl
          have hupdate : (Plan.ofKind .update settings.keyUpdates).emissions = [.update] := rfl
          obtain ⟨hresult, hstate⟩ :=
            format_of_emissions clock state .keyUpdate hrequest halign hkey (by simp)
          obtain ⟨hupdated, hupdatedState⟩ :=
            format_of_emissions clock state .update hrequest halign hupdate (by simp)
          rw [hresult, hstate, hupdated, hupdatedState]
          exact ⟨rfl, rfl⟩

/-- A plan of one emission comes to one pair. -/
theorem exists_pair_of_format
    {clock : Clock}
    {state : Formatter}
    {pairs : List Emitted}
    (emission : Emission)
    (hplan : Plan.ofKind change.kind settings.keyUpdates = .single emission)
    (h : (format settings clock state change table).result = .ok pairs) :
    ∃ built, pairs = [built] := by
  obtain ⟨build, columns, -, -, -, hemit⟩ := format_eq_ok h
  rw [hplan] at hemit
  obtain ⟨built, hbuilt, -⟩ := exists_of_forall₂_singleton (forall₂_emitAll hemit)
  exact ⟨built, hbuilt⟩

end KeyUpdate

/--
One call that amounts to two, the second made from where the first ends: it
succeeds just if both do, then with the pair of the one and the pair of the
other, and otherwise fails as the first of them that fails, with its container
as it was.
-/
structure IsSplit
    (container : Container)
    (whole first second : Outcome Failure (List Emitted) × Container) : Prop where
  succeeds_iff :
    (∃ pairs, whole.1.result = .ok pairs)
      ↔
    (∃ pairs, first.1.result = .ok pairs) ∧ ∃ pairs, second.1.result = .ok pairs
  pairs_eq :
    ∀ pairs,
      whole.1.result = .ok pairs →
      ∃ deleted inserted,
        pairs = [deleted, inserted] ∧
        first.2 = ⟨some deleted, none⟩ ∧
        second.2 = ⟨some inserted, none⟩ ∧
        whole.2 = ⟨some deleted, some inserted⟩ ∧
        whole.1.state = second.1.state
  first_fails :
    ∀ failure,
      first.1.result = .error failure →
      whole.1.result = .error failure ∧
        whole.1.state = first.1.state ∧
        whole.2 = container
  second_fails :
    ∀ pairs failure,
      first.1.result = .ok pairs →
      second.1.result = .error failure →
      whole.1.result = .error failure ∧
        whole.1.state = second.1.state ∧
        whole.2 = container

section Container

variable {settings : Settings}
variable {clock : Clock}
variable {state : Formatter}
variable {change : Change}
variable {table : Table}

/-- A split into a container is the delete into it and then the insert into what comes of it. -/
theorem isSplit_formatInto
    (container : Container)
    (hkind : change.kind = .keyUpdate)
    (hpolicy : settings.keyUpdates = .deleteInsert) :
    IsSplit container
      (formatInto settings clock state change table container)
      (formatInto settings clock state (change.retyped .delete) table container)
      (formatInto settings clock
        (formatInto settings clock state (change.retyped .delete) table container).1.state
        (change.retyped .insert) table
        (formatInto settings clock state (change.retyped .delete) table container).2) := by
  have hsplit := format_split clock state change table hpolicy
  rw [Change.retyped_eq_self hkind] at hsplit
  simp only [formatInto_fst]
  cases hdelete : (format settings clock state (change.retyped .delete) table).result with
  | error failure =>
      simp only [andThen, hdelete] at hsplit
      obtain ⟨hresult, hstate⟩ := Prod.mk.inj hsplit
      have hcontainer := formatInto_snd_of_error container hresult
      constructor <;> simp [hresult, hstate, hdelete, hcontainer]
  | ok pairs =>
      obtain ⟨deleted, rfl⟩ := exists_pair_of_format .delete rfl hdelete
      have hdeleted := formatInto_snd_of_ok container hdelete
      rw [hdeleted]
      generalize hafter :
        (format settings clock state (change.retyped .delete) table).state = after at *
      cases hinsert : (format settings clock after (change.retyped .insert) table).result with
      | error failure =>
          simp only [andThen, hdelete, hafter, hinsert] at hsplit
          obtain ⟨hresult, hstate⟩ := Prod.mk.inj hsplit
          have hcontainer := formatInto_snd_of_error container hresult
          constructor <;> simp [hresult, hstate, hdelete, hinsert, hcontainer]
      | ok others =>
          obtain ⟨inserted, rfl⟩ := exists_pair_of_format .insert rfl hinsert
          simp only [andThen, hdelete, hafter, hinsert] at hsplit
          obtain ⟨hresult, hstate⟩ := Prod.mk.inj hsplit
          have hcontainer := formatInto_snd_of_ok container hresult
          have hinserted := formatInto_snd_of_ok (Container.ofList [deleted]) hinsert
          refine
            { succeeds_iff := by simp [hresult, hdelete, hinsert]
              pairs_eq := ?_
              first_fails := by simp [hdelete]
              second_fails := by simp [hinsert] }
          intro pairs hpairs
          rw [formatInto_fst, hresult] at hpairs
          cases hpairs
          refine ⟨deleted, inserted, rfl, hdeleted, hinserted, hcontainer, ?_⟩
          simp only [formatInto_fst, hstate]

end Container

/--
What an update of key columns does to a formatter and a container: under the
policy that splits it, what a delete and then an insert do; under the policy that
treats it as an update, what an update does.
-/
theorem formatInto_keyUpdate
    (settings : Settings)
    (clock : Clock)
    (state : Formatter)
    (change : Change)
    (table : Table)
    (container : Container)
    (hkind : change.kind = .keyUpdate) :
    (settings.keyUpdates = .deleteInsert →
      IsSplit container
        (formatInto settings clock state change table container)
        (formatInto settings clock state (change.retyped .delete) table container)
        (formatInto settings clock
          (formatInto settings clock state (change.retyped .delete) table container).1.state
          (change.retyped .insert) table
          (formatInto settings clock state (change.retyped .delete) table container).2))
      ∧
    (settings.keyUpdates = .update →
      (formatInto settings clock state change table container).1.result =
          (formatInto settings clock state (change.retyped .update) table container).1.result ∧
        (formatInto settings clock state change table container).1.state =
          (formatInto settings clock state (change.retyped .update) table container).1.state ∧
        (formatInto settings clock state change table container).2 =
          (formatInto settings clock state (change.retyped .update) table container).2) := by
  constructor
  · exact isSplit_formatInto container hkind
  · intro hpolicy
    obtain ⟨hresult, hstate⟩ := format_treatedAsUpdate clock state change table hpolicy
    rw [Change.retyped_eq_self hkind] at hresult hstate
    simp only [formatInto_fst]
    refine ⟨hresult, hstate, ?_⟩
    cases hupdate : (format settings clock state (change.retyped .update) table).result with
    | error failure =>
        rw [formatInto_snd_of_error container hupdate,
          formatInto_snd_of_error container (hresult.trans hupdate)]
    | ok pairs =>
        rw [formatInto_snd_of_ok container hupdate,
          formatInto_snd_of_ok container (hresult.trans hupdate)]

/-- Renumbering an item, split, deletes it and inserts it. -/
theorem formatInto_keyUpdate_renumbered :
    Item.renumbered.kind = .keyUpdate ∧
    (∃ pairs,
      (formatInto { keyUpdates := .deleteInsert } Item.clock {} Item.renumbered Item.table
        ⟨some Item.stale, none⟩).1.result = .ok pairs) ∧
    IsSplit ⟨some Item.stale, none⟩
      (formatInto { keyUpdates := .deleteInsert } Item.clock {} Item.renumbered Item.table
        ⟨some Item.stale, none⟩)
      (formatInto { keyUpdates := .deleteInsert } Item.clock {}
        (Item.renumbered.retyped .delete) Item.table ⟨some Item.stale, none⟩)
      (formatInto { keyUpdates := .deleteInsert } Item.clock
        (formatInto { keyUpdates := .deleteInsert } Item.clock {}
          (Item.renumbered.retyped .delete) Item.table ⟨some Item.stale, none⟩).1.state
        (Item.renumbered.retyped .insert) Item.table
        (formatInto { keyUpdates := .deleteInsert } Item.clock {}
          (Item.renumbered.retyped .delete) Item.table ⟨some Item.stale, none⟩).2) :=
  ⟨rfl, ⟨_, rfl⟩, (formatInto_keyUpdate _ _ _ _ _ _ rfl).1 rfl⟩

end Formatter
end ChangeFeed
