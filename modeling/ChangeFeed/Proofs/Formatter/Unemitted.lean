import ChangeFeed.Proofs.Formatter.Prescription

/-!
# What is not emitted of a change

Of the images of a change, a formatter looks only at those on the sides that the
plan of the change emits, and of these only at the captured texts. Where two
changes have the same texts there and agree in all but the images and the name of
their table, the formatter cannot tell one from the other: it responds alike, it
reports alike, and it is left alike.

**Results.**

* `select_of_alike`: images that are alike on a side are selected alike.
* `pair_of_sameEmitted`, `emitAll_of_pairs`: emissions of such changes are built alike.
* `format_of_sameEmitted`: such changes are formatted alike.
* `formatInto_unemitted`: what is not emitted makes no difference.
-/

namespace ChangeFeed

namespace Image

/-- Two images were captured with one text, or none of them was captured with any. -/
def Alike (image other : Image) : Prop :=
  (∃ text, image = .captured text ∧ other = .captured text) ∨
    (image = .null ∨ image = .absent) ∧ (other = .null ∨ other = .absent)

theorem Alike.refl (image : Image) :
    Alike image image := by
  cases image <;> simp [Alike]

theorem Alike.captured?_eq
    {image other : Image}
    (h : Alike image other) :
    image.captured? = other.captured? := by
  rcases h with ⟨text, rfl, rfl⟩ | ⟨rfl | rfl, rfl | rfl⟩ <;> rfl

end Image

namespace Change

/--
Two changes that agree in all that is emitted of them: in all but their tables and
their images, and in the captured texts on each side that their plan emits.
-/
structure SameEmitted
    (policy : KeyUpdatePolicy)
    (change other : Change) : Prop where
  kind_eq : change.kind = other.kind
  code_eq : change.code = other.code
  time_eq : change.time = other.time
  position_eq : change.position = other.position
  tokens_eq : change.tokens = other.tokens
  length_eq : change.columns.length = other.columns.length
  images :
    ∀ emission ∈ (Plan.ofKind change.kind policy).emissions,
      List.Forall₂
        (fun images others => (images.on emission.side).Alike (others.on emission.side))
        change.columns other.columns

/-- If all that is emitted is on one side, the images of the other side are free. -/
theorem sameEmitted_of_side
    {policy : KeyUpdatePolicy}
    {change : Change}
    {columns : List Images}
    (side : Side)
    (hside : ∀ emission ∈ (Plan.ofKind change.kind policy).emissions, emission.side = side)
    (h :
      change.columns.map (fun images => images.on side) =
        columns.map fun images => images.on side) :
    change.SameEmitted policy { change with columns := columns } where
  kind_eq := rfl
  code_eq := rfl
  time_eq := rfl
  position_eq := rfl
  tokens_eq := rfl
  length_eq := by simpa using congrArg List.length h
  images emission hemission := by
    have hequal : List.Forall₂ Eq (change.columns.map fun images => images.on side)
        (columns.map fun images => images.on side) := List.forall₂_eq_eq_eq ▸ h
    rw [List.forall₂_map_left_iff, List.forall₂_map_right_iff] at hequal
    rw [hside emission hemission]
    exact hequal.imp fun images others heq => heq ▸ Image.Alike.refl _

end Change

/-- Columns are selected by their own names and keys and by the captured texts on the side. -/
theorem select_of_alike
    {side : Side}
    {images others : List Images}
    (h :
      List.Forall₂ (fun images others => (images.on side).Alike (others.on side)) images others)
    (columns : List Column)
    (keysOnly : Bool) :
    select (List.zipWith Aligned.mk columns images) side keysOnly =
      select (List.zipWith Aligned.mk columns others) side keysOnly := by
  induction h generalizing columns with
  | nil => rfl
  | cons hfirst hrest ih =>
      cases columns with
      | nil => rfl
      | cons column columns =>
          simp only [List.zipWith_cons_cons, select_cons, ih columns, hfirst.captured?_eq]

namespace Formatter

section SameEmitted

variable {settings : Settings}
variable {clock : Clock}
variable {change other : Change}
variable {table : Table}
variable {columns others : List Aligned}
variable {hasKey : Bool}

/-- Of a change, a record shows what is emitted of it. -/
theorem pair_of_sameEmitted
    {policy : KeyUpdatePolicy}
    {emission : Emission}
    (stamp : Instant)
    (h : change.SameEmitted policy other)
    (hcolumns : columns.map Aligned.column = others.map Aligned.column)
    (hselect :
      ∀ keysOnly, select columns emission.side keysOnly = select others emission.side keysOnly) :
    pair settings stamp change table columns hasKey emission =
      pair settings stamp other table others hasKey emission := by
  have hkeys :
      (columns.any fun a => a.column.isKey) = others.any fun a => a.column.isKey := by
    have hany := congrArg (List.any · Column.isKey) hcolumns
    simpa [List.any_map, Function.comp_def] using hany
  simp only [pair, Block.build, Block.buildKey, hselect, hkeys, h.time_eq, h.position_eq,
    h.tokens_eq]

/-- Emissions that are built alike one by one are built alike, with the same stamps. -/
theorem emitAll_of_pairs
    {emissions : List Emission}
    (stamps : Stamps)
    (h :
      ∀ emission ∈ emissions, ∀ stamp,
        pair settings stamp change table columns hasKey emission =
          pair settings stamp other table others hasKey emission) :
    emitAll settings clock change table columns hasKey stamps emissions =
      emitAll settings clock other table others hasKey stamps emissions := by
  induction emissions generalizing stamps with
  | nil => rfl
  | cons emission rest ih =>
      rw [List.forall_mem_cons] at h
      have hfirst :
          emit settings clock change table columns hasKey stamps emission =
            emit settings clock other table others hasKey stamps emission := by
        simp only [emit, h.1]
      simp only [emitAll, hfirst, ih _ h.2]

theorem assemble_of_sameEmitted
    (clock : Clock)
    (stamps : Stamps)
    (table : Table)
    (hasKey : Bool)
    (h : change.SameEmitted settings.keyUpdates other) :
    assemble settings clock stamps change table hasKey =
      assemble settings clock stamps other table hasKey := by
  by_cases hlength : change.columns.length = table.columns.length
  · have halign : align change table = .ok (List.zipWith Aligned.mk table.columns change.columns) :=
      if_pos hlength
    have halign' : align other table = .ok (List.zipWith Aligned.mk table.columns other.columns) :=
      if_pos (h.length_eq ▸ hlength)
    by_cases hplan : (Plan.ofKind change.kind settings.keyUpdates).emissions = []
    · obtain ⟨reason, hreason⟩ := (Plan.emissions_eq_nil_iff _).1 hplan
      rw [assemble_of_fatal halign hreason, assemble_of_fatal halign' (h.kind_eq ▸ hreason),
        h.kind_eq]
    · rw [assemble_of_emits halign hplan, assemble_of_emits halign' (h.kind_eq ▸ hplan),
        ← h.kind_eq]
      refine emitAll_of_pairs stamps fun emission hemission stamp => ?_
      have hcolumns := (columns_align halign).trans (columns_align halign').symm
      exact pair_of_sameEmitted stamp h hcolumns (select_of_alike (h.images emission hemission) _)
  · have hlength' : other.columns.length ≠ table.columns.length := h.length_eq ▸ hlength
    simp only [assemble, align, h.length_eq, if_neg hlength']

/-- A formatter responds alike to changes that agree in what is emitted of them. -/
theorem format_of_sameEmitted
    (clock : Clock)
    (state : Formatter)
    (table : Table)
    (h : change.SameEmitted settings.keyUpdates other) :
    format settings clock state change table = format settings clock state other table := by
  simp only [format, failureEvents, assemble_of_sameEmitted clock _ table _ h, h.kind_eq,
    h.code_eq, h.position_eq]

end SameEmitted

/--
A change is told from another only by what is emitted of it: changes that agree in
that come to the same result and container, the same events and the same formatter.
So it makes no difference whether an image was captured as null or not at all, what
images an insert or an update has before the change or a delete after it, nor which
table the change itself names.
-/
theorem formatInto_unemitted
    (settings : Settings)
    (clock : Clock)
    (state : Formatter)
    (table : Table)
    (container : Container)
    (change : Change) :
    (∀ other,
      change.SameEmitted settings.keyUpdates other →
      formatInto settings clock state change table container =
        formatInto settings clock state other table container)
      ∧
    (∀ columns,
      List.Forall₂
        (fun images others =>
          images.before.Alike others.before ∧ images.after.Alike others.after)
        change.columns columns →
      formatInto settings clock state { change with columns := columns } table container =
        formatInto settings clock state change table container)
      ∧
    (∀ columns,
      change.kind = .insert ∨ change.kind = .update ∨
        (change.kind = .keyUpdate ∧ settings.keyUpdates = .update) →
      change.columns.map Images.after = columns.map Images.after →
      formatInto settings clock state { change with columns := columns } table container =
        formatInto settings clock state change table container)
      ∧
    (∀ columns,
      change.kind = .delete →
      change.columns.map Images.before = columns.map Images.before →
      formatInto settings clock state { change with columns := columns } table container =
        formatInto settings clock state change table container)
      ∧
    ∀ name,
      formatInto settings clock state { change with table := name } table container =
        formatInto settings clock state change table container := by
  have hsame :
      ∀ other,
        change.SameEmitted settings.keyUpdates other →
        formatInto settings clock state change table container =
          formatInto settings clock state other table container := by
    intro other h
    simp only [formatInto, format_of_sameEmitted clock state table h]
  refine ⟨hsame, fun columns h => ?_, fun columns hkind h => ?_, fun columns hkind h => ?_,
    fun name => ?_⟩
  · refine
      (hsame { change with columns := columns }
        ⟨rfl, rfl, rfl, rfl, rfl, h.length_eq, fun emission _ => ?_⟩).symm
    cases emission.side with
    | before => exact h.imp fun _ _ halike => halike.1
    | after => exact h.imp fun _ _ halike => halike.2
  · refine (hsame _ (Change.sameEmitted_of_side .after ?_ h)).symm
    rcases hkind with hkind | hkind | ⟨hkind, hpolicy⟩
    · simp [hkind, Plan.ofKind, Plan.emissions, Emission.side]
    · simp [hkind, Plan.ofKind, Plan.emissions, Emission.side]
    · simp [hkind, hpolicy, Plan.ofKind, Plan.emissions, Emission.side]
  · refine (hsame _ (Change.sameEmitted_of_side .before ?_ h)).symm
    simp [hkind, Plan.ofKind, Plan.emissions, Emission.side]
  · refine
      (hsame { change with table := name }
        ⟨rfl, rfl, rfl, rfl, rfl, rfl, fun emission _ => ?_⟩).symm
    exact List.forall₂_same.2 fun images _ => Image.Alike.refl _

end Formatter

namespace Item

/-- The item gets another name; what it was before was captured wrongly. -/
def renamed : Change where
  kind := .update
  code := "U"
  table := .text "SHOP.ITEMS"
  columns := [⟨.captured "x", .captured "1"⟩, ⟨.captured "lamp", .null⟩]
  time := "2026-10-17 09:15:03"
  position := "8"
  tokens := []

/-- The same as far as it is emitted, of another table by its own account. -/
def renamedElsewhere : Change :=
  { renamed with
    table := .text "SHOP.PARCELS"
    columns := [⟨.absent, .captured "1"⟩, ⟨.null, .absent⟩] }

theorem sameEmitted_renamed (policy : KeyUpdatePolicy) :
    renamed.SameEmitted policy renamedElsewhere := by
  refine ⟨rfl, rfl, rfl, rfl, rfl, rfl, ?_⟩
  intro emission hemission
  obtain rfl : emission = .update := by
    simpa [renamed, Plan.ofKind, Plan.emissions] using hemission
  exact .cons (.inl ⟨"1", rfl, rfl⟩) (.cons (.inr ⟨.inl rfl, .inr rfl⟩) .nil)

end Item

/-- An update is formatted, and what was captured of the row before it makes no difference. -/
theorem Formatter.formatInto_unemitted_renamed :
    Item.renamed.SameEmitted .abend Item.renamedElsewhere ∧
      (formatInto {} Item.clock {} Item.renamed Item.table {}).1.result.isOk = true ∧
      formatInto {} Item.clock {} Item.renamed Item.table {} =
        formatInto {} Item.clock {} Item.renamedElsewhere Item.table {} :=
  ⟨Item.sameEmitted_renamed _, by decide +kernel,
    (formatInto_unemitted {} _ _ _ _ _).1 _ (Item.sameEmitted_renamed _)⟩

end ChangeFeed
