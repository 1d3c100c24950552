import ChangeFeed.Proofs.Formatter.Emission
import ChangeFeed.Proofs.Record.Writing

/-!
# Faults of changes

The faults that a change can have although it was taken from a message. They
come up when its records are built, where they compete with texts that cannot be
read, or only when the records are written.

**Results.**

* `emitAll_ok_iff`: when all emissions of a plan are built.
* `emitAll_fault_iff`: when building them ends in a fault.
* `exists_line_error_iff_unwritable`: when a record that was built is not written.
* `emissionsFault_iff`: all faults of emissions.
-/

namespace ChangeFeed

/-- The next `n` stamps are all given. -/
def Stamps.Gives (clock : Clock) (stamps : Stamps) : Nat → Prop
  | 0 => True
  | n + 1 =>
      (∃ stamp, (stamps.next clock).1 = some stamp) ∧
        Stamps.Gives clock (stamps.next clock).2 n

namespace Formatter

/-- The captured texts that emissions take, in the order in which they are read. -/
def textsOf (columns : List Aligned) (emissions : List Emission) : List (Column × Text) :=
  emissions.flatMap fun emission => select columns emission.side false

/--
An emission that is built but not written: its operation key or the key names
are nested too deeply, or a column with a captured text has a number that is not
finite for its name.
-/
def Unwritable
    (settings : Settings)
    (table : Table)
    (columns : List Aligned)
    (emission : Emission) : Prop :=
  Emitted.nestingLimit <
      max (settings.keyOf emission).depth
        (if settings.withKeyNames then (Json.array table.keyNames).depth else 0) + 2
    ∨
  ∃ field ∈ select columns emission.side false, field.1.name.IsNonFinite

section Faults

variable {settings : Settings}
variable {clock : Clock}
variable {change : Change}
variable {table : Table}
variable {columns : List Aligned}
variable {hasKey : Bool}
variable {name : Text}

/-- The block of a key has no names that the block of its record does not have. -/
theorem exists_line_error_iff_unwritable
    {stamp : Instant}
    {emission : Emission}
    {built : Emitted}
    (h : pair settings stamp change table columns hasKey emission = .ok built) :
    (∃ fault, built.line = .error fault) ↔ Unwritable settings table columns emission := by
  obtain ⟨name, block, -, hblock, hrecord, hkey⟩ := pair_eq_ok h
  have hnesting :
      built.record.nesting =
        max (settings.keyOf emission).depth
          (if settings.withKeyNames then (Json.array table.keyNames).depth else 0) := by
    rw [hrecord]
    simp only [Record.nesting, Record.keyNamesJson]
    cases settings.withKeyNames <;> rfl
  have hnames :
      (∃ field ∈ built.record.block, field.1.memberName? = none)
        ↔
      ∃ field ∈ select columns emission.side false, field.1.name.IsNonFinite := by
    rw [hrecord]
    exact Block.exists_memberName?_build_iff hblock
  have hkeys :
      (∃ key, built.key = some key ∧ ∃ field ∈ key, field.1.memberName? = none) →
        ∃ field ∈ select columns emission.side false, field.1.name.IsNonFinite := by
    rintro ⟨key, hsome, hkeyNames⟩
    cases hasKey with
    | false =>
        simp only [Bool.false_eq_true, if_false] at hkey
        rw [hkey] at hsome
        contradiction
    | true =>
        obtain ⟨found, hfound, hbuild⟩ := hkey
        rw [hsome] at hfound
        cases hfound
        obtain ⟨field, hfield, hname⟩ := (Block.exists_memberName?_build_iff hbuild).1 hkeyNames
        rw [select_true] at hfield
        exact ⟨field, (List.mem_filter.1 hfield).1, hname⟩
  rw [Emitted.exists_line_error_iff, hnesting, hnames]
  unfold Unwritable
  constructor
  · rintro (hdeep | hkey | hname)
    · exact Or.inl hdeep
    · exact Or.inr (hkeys hkey)
    · exact Or.inr hname
  · rintro (hdeep | hname)
    · exact Or.inl hdeep
    · exact Or.inr (Or.inr hname)

/-- All captured texts of an emission that is built have a place. -/
theorem placed_of_pair_ok
    {stamp : Instant}
    {emission : Emission}
    {built : Emitted}
    (h : pair settings stamp change table columns hasKey emission = .ok built) :
    ∀ field ∈ select columns emission.side false, Block.Placed settings.asText field := by
  obtain ⟨-, block, -, hblock, -⟩ := pair_eq_ok h
  exact (Block.exists_build_eq_ok_iff _ _ _ _).1 ⟨block, hblock⟩

/-- A text of an emission that fails has no place. -/
theorem not_placed_of_pair_error
    {stamp : Instant}
    {emission : Emission}
    {failure : Failure}
    (hname : table.name = .text name)
    (h : pair settings stamp change table columns hasKey emission = .error failure) :
    ¬∀ field ∈ select columns emission.side false, Block.Placed settings.asText field := by
  rw [← Block.findSome?_eq_none_iff, (pair_eq_error_iff hname failure).1 h]
  simp

theorem textsOf_cons
    (columns : List Aligned)
    (emission : Emission)
    (rest : List Emission) :
    textsOf columns (emission :: rest) =
      select columns emission.side false ++ textsOf columns rest :=
  List.flatMap_cons

/-- All emissions are built just if there are stamps for them and places for their texts. -/
theorem emitAll_ok_iff
    (hname : table.name = .text name)
    (stamps : Stamps)
    (emissions : List Emission) :
    (∃ pairs,
      (emitAll settings clock change table columns hasKey stamps emissions).1 = .ok pairs)
      ↔
    stamps.Gives clock emissions.length ∧
      ∀ field ∈ textsOf columns emissions, Block.Placed settings.asText field := by
  induction emissions generalizing stamps with
  | nil =>
      simp [emitAll, Stamps.Gives, textsOf]
  | cons emission rest ih =>
      rw [List.length_cons, Stamps.Gives, textsOf_cons, List.forall_mem_append]
      have hcons :=
        @emittedCons_emitAll settings clock change table columns hasKey stamps emission rest
      generalize emitAll settings clock change table columns hasKey stamps (emission :: rest) =
        made at *
      cases hcons with
      | unstamped hnext =>
          rw [hnext]
          simp
      | failed _ hpair =>
          have hplaced := not_placed_of_pair_error hname hpair
          constructor
          · rintro ⟨pairs, hpairs⟩
            contradiction
          · rintro ⟨-, hall, -⟩
            exact absurd hall hplaced
      | @built stamp stamps' built hnext hpair =>
          have hplaced := placed_of_pair_ok hpair
          rw [hnext]
          constructor
          · rintro ⟨all, hall⟩
            obtain ⟨pairs, hpairs, -⟩ := (map_eq_ok_iff _ _ _).1 hall
            obtain ⟨hgives, hrest⟩ := (ih stamps').1 ⟨pairs, hpairs⟩
            exact ⟨⟨⟨stamp, rfl⟩, hgives⟩, hplaced, hrest⟩
          · rintro ⟨⟨-, hgives⟩, -, hrest⟩
            obtain ⟨pairs, hpairs⟩ := (ih stamps').2 ⟨hgives, hrest⟩
            exact ⟨built :: pairs, (map_eq_ok_iff _ _ _).2 ⟨pairs, hpairs, rfl⟩⟩

/-- A plan has no stamp for one of its emissions, all texts before which have a place. -/
def Exhausted
    (settings : Settings)
    (clock : Clock)
    (columns : List Aligned)
    (stamps : Stamps)
    (emissions : List Emission) : Prop :=
  ∃ done emission rest,
    emissions = done ++ emission :: rest ∧
    (∀ field ∈ textsOf columns done, Block.Placed settings.asText field) ∧
    ¬stamps.Gives clock (done.length + 1)

/-- With a stamp given, it is a later emission that has none, the first one being placed. -/
theorem exhausted_cons_iff
    {stamps stamps' : Stamps}
    {stamp : Instant}
    {emission : Emission}
    {rest : List Emission}
    (hnext : stamps.next clock = (some stamp, stamps')) :
    Exhausted settings clock columns stamps (emission :: rest)
      ↔
    (∀ field ∈ select columns emission.side false, Block.Placed settings.asText field) ∧
      Exhausted settings clock columns stamps' rest := by
  constructor
  · rintro ⟨done, other, after, heq, hdone, hgives⟩
    cases done with
    | nil =>
        simp [Stamps.Gives, hnext] at hgives
    | cons first done =>
        cases heq
        rw [textsOf_cons, List.forall_mem_append] at hdone
        refine ⟨hdone.1, done, other, after, rfl, hdone.2, ?_⟩
        simpa [Stamps.Gives, hnext] using hgives
  · rintro ⟨hplaced, done, other, after, rfl, hdone, hgives⟩
    refine ⟨emission :: done, other, after, rfl, ?_, ?_⟩
    · rw [textsOf_cons, List.forall_mem_append]
      exact ⟨hplaced, hdone⟩
    · simpa [Stamps.Gives, hnext] using hgives

/--
Building emissions ends in a fault just if a stamp is missing or the first text
without a place fails by the name of its column.
-/
theorem emitAll_fault_iff
    (hname : table.name = .text name)
    (stamps : Stamps)
    (emissions : List Emission) :
    (∃ fault,
      (emitAll settings clock change table columns hasKey stamps emissions).1 =
        .error (.fault fault))
      ↔
    Exhausted settings clock columns stamps emissions ∨
      Block.NameFault settings.asText (textsOf columns emissions) := by
  rw [← Block.exists_findSome?_fault_iff]
  induction emissions generalizing stamps with
  | nil =>
      simp [emitAll, Exhausted, textsOf]
  | cons emission rest ih =>
      have hcons :=
        @emittedCons_emitAll settings clock change table columns hasKey stamps emission rest
      generalize emitAll settings clock change table columns hasKey stamps (emission :: rest) =
        made at *
      cases hcons with
      | unstamped hnext =>
          have hexhausted : Exhausted settings clock columns stamps (emission :: rest) :=
            ⟨[], emission, rest, rfl, by simp [textsOf], by simp [Stamps.Gives, hnext]⟩
          simp [hexhausted]
      | failed hnext hpair =>
          have hfind := (pair_eq_error_iff hname _).1 hpair
          have hplaced := not_placed_of_pair_error hname hpair
          rw [exhausted_cons_iff hnext, textsOf_cons, List.findSome?_append, hfind,
            iff_false_intro hplaced]
          simp
      | @built _ stamps' _ hnext hpair =>
          have hplaced := placed_of_pair_ok hpair
          have hfind := (Block.findSome?_eq_none_iff settings.asText _).2 hplaced
          rw [exhausted_cons_iff hnext, textsOf_cons, List.findSome?_append, hfind,
            Option.none_or, and_iff_right hplaced, ← ih stamps']
          simp only [map_eq_error_iff]

/-- For a table whose name is no text, nothing is built. -/
theorem exists_emitAll_fault_of_not_text
    (hname : ∀ name, table.name ≠ .text name)
    (stamps : Stamps)
    {emissions : List Emission}
    (hemits : emissions ≠ []) :
    ∃ fault,
      (emitAll settings clock change table columns hasKey stamps emissions).1 =
        .error (.fault fault) := by
  cases emissions with
  | nil =>
      contradiction
  | cons emission rest =>
      have hcons :=
        @emittedCons_emitAll settings clock change table columns hasKey stamps emission rest
      generalize emitAll settings clock change table columns hasKey stamps (emission :: rest) =
        made at *
      cases hcons with
      | unstamped => exact ⟨_, rfl⟩
      | failed _ hpair =>
          rw [pair_of_not_text hname] at hpair
          cases hpair
          exact ⟨_, rfl⟩
      | built _ hpair =>
          rw [pair_of_not_text hname] at hpair
          contradiction

/-- The ways in which the emissions of a change can have a fault. -/
inductive EmissionsFault
    (settings : Settings)
    (clock : Clock)
    (stamps : Stamps)
    (table : Table)
    (columns : List Aligned)
    (emissions : List Emission) :
    Prop
  -- The name of the table is no text, so it has no unqualified form.
  | tableName
      (hemits : emissions ≠ [])
      (hname : ∀ name, table.name ≠ .text name)
  -- The calendar ends before all stamps are given.
  | stamp
      (hstamps : Exhausted settings clock columns stamps emissions)
  -- A column with a captured text is named by an array or an object.
  | columnName
      (hname : Block.NameFault settings.asText (textsOf columns emissions))
  -- All is built, but a name has no written form or is nested too deeply.
  | unwritable
      {emission : Emission}
      (hplaced : ∀ field ∈ textsOf columns emissions, Block.Placed settings.asText field)
      (hmem : emission ∈ emissions)
      (hunwritable : Unwritable settings table columns emission)

/-- If all emissions are built, what is left to fail is writing one of them. -/
theorem exists_lines_fault_iff_unwritable
    {stamps : Stamps}
    {emissions : List Emission}
    {pairs : List Emitted}
    (h : (emitAll settings clock change table columns hasKey stamps emissions).1 = .ok pairs) :
    (∃ fault, (Emitted.lines pairs).2 = some fault)
      ↔
    ∃ emission ∈ emissions, Unwritable settings table columns emission := by
  rw [Emitted.exists_lines_fault_iff]
  have hpairs := forall₂_emitAll h
  clear h
  induction hpairs with
  | nil => simp
  | cons hpair hrest ih =>
      obtain ⟨stamp, hpair⟩ := hpair
      simp only [List.exists_mem_cons_iff, ih, exists_line_error_iff_unwritable hpair]

theorem EmissionsFault.emits
    {stamps : Stamps}
    {emissions : List Emission}
    (h : EmissionsFault settings clock stamps table columns emissions) :
    emissions ≠ [] := by
  rintro rfl
  cases h with
  | tableName hemits => exact hemits rfl
  | stamp hstamps =>
      obtain ⟨done, emission, rest, heq, -⟩ := hstamps
      simp at heq
  | columnName hname =>
      obtain ⟨placed, field, rest, heq, -⟩ := hname
      simp [textsOf] at heq
  | unwritable _ hmem => contradiction

/-- Emissions that are neither built nor have a fault have a text that cannot be read. -/
theorem not_placed_of_emitAll
    {stamps : Stamps}
    {emissions : List Emission}
    {failure : Failure}
    (h :
      (emitAll settings clock change table columns hasKey stamps emissions).1 =
        .error failure)
    (hfailure : ∀ fault, failure ≠ .fault fault) :
    ¬∀ field ∈ textsOf columns emissions, Block.Placed settings.asText field := by
  rcases emitAll_eq_error h with ⟨fault, hfault⟩ | ⟨emission, hemission, field, hfield, hplace⟩
  · exact absurd hfault (hfailure fault)
  · intro hall
    have hmem : field ∈ textsOf columns emissions :=
      List.mem_flatMap.2 ⟨emission, hemission, hfield⟩
    rw [(Block.failure?_eq_none_iff _ field).2 (hall field hmem)] at hplace
    contradiction

/-- What comes of emissions has a fault, in being built or in being written, in these ways only. -/
theorem emissionsFault_iff
    (change : Change)
    (hasKey : Bool)
    (stamps : Stamps)
    (emissions : List Emission) :
    EmissionsFault settings clock stamps table columns emissions
      ↔
    (∃ fault,
      (emitAll settings clock change table columns hasKey stamps emissions).1 =
        .error (.fault fault)) ∨
    ∃ pairs fault,
      (emitAll settings clock change table columns hasKey stamps emissions).1 = .ok pairs ∧
      (Emitted.lines pairs).2 = some fault := by
  by_cases htext : ∃ name, table.name = .text name
  · obtain ⟨name, hname⟩ := htext
    constructor
    · intro h
      cases h with
      | tableName _ hnotText => exact absurd hname (hnotText name)
      | stamp hstamps =>
          exact Or.inl ((emitAll_fault_iff hname stamps emissions).2 (Or.inl hstamps))
      | columnName hcolumn =>
          exact Or.inl ((emitAll_fault_iff hname stamps emissions).2 (Or.inr hcolumn))
      | @unwritable emission hplaced hmem hunwritable =>
          cases hresult :
              (emitAll settings clock change table columns hasKey stamps emissions).1 with
          | ok pairs =>
              obtain ⟨fault, hfault⟩ :=
                (exists_lines_fault_iff_unwritable hresult).2 ⟨emission, hmem, hunwritable⟩
              exact Or.inr ⟨pairs, fault, rfl, hfault⟩
          | error failure =>
              cases failure with
              | fault cause => exact Or.inl ⟨cause, rfl⟩
              | _ => exact absurd hplaced (not_placed_of_emitAll hresult (by simp))
    · rintro (hfault | ⟨pairs, fault, hresult, hlines⟩)
      · rcases (emitAll_fault_iff hname stamps emissions).1 hfault with hstamps | hcolumn
        · exact .stamp hstamps
        · exact .columnName hcolumn
      · obtain ⟨-, hplaced⟩ := (emitAll_ok_iff hname stamps emissions).1 ⟨pairs, hresult⟩
        obtain ⟨emission, hmem, hunwritable⟩ :=
          (exists_lines_fault_iff_unwritable hresult).1 ⟨fault, hlines⟩
        exact .unwritable hplaced hmem hunwritable
  · have hnotText : ∀ name, table.name ≠ .text name := fun name heq => htext ⟨name, heq⟩
    constructor
    · intro h
      exact Or.inl (exists_emitAll_fault_of_not_text hnotText stamps h.emits)
    · intro h
      refine .tableName ?_ hnotText
      rintro rfl
      rcases h with ⟨fault, hfault⟩ | ⟨pairs, fault, hresult, hlines⟩
      · contradiction
      · cases hresult
        contradiction

end Faults
end Formatter
end ChangeFeed
