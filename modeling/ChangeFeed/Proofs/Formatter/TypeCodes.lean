import ChangeFeed.Conversion
import ChangeFeed.Proofs.Formatter.Rows
import ChangeFeed.Proofs.Record.TypeCodes

/-!
# The type codes of tables

The codes of the columns of a table are looked at in three places: where the texts of a
change are read, where the schemas of the table are built, and where records are converted
to rows in these schemas. In none of them one code of a class can be told from another, and
with all columns read as texts no code from any other. So a formatter that is given a table
with other codes keeps the same schemas, takes the same stamps and comes to the same records
and rows. Only where it fails for a text that cannot be read, it quotes the other code.

With all columns read as texts the schemas are of texts as well, and records hold what was
captured.

**Results.**

* `ofTable_retyped`, `request_retyped`: the schemas are the same.
* `pair_retyped`, `emitAll_retyped`, `assemble_retyped`: so is what is built, or the same
  text fails.
* `format_retyped`, `convert_retyped`: what comes of a change, and of a conversion.
* `areTexts_request`, `areTexts_drop`: the schemas that are kept are of texts.
* `isVerbatim_format`: the records of a change hold the captured texts.
-/

namespace ChangeFeed

/-- A table that is another one but for the type codes of its columns. -/
structure Table.Retyped
    (asText : Bool)
    (table other : Table) : Prop where
  name_eq : table.name = other.name
  columns : ColumnsRetyped asText table.columns other.columns

theorem Table.Retyped.mono
    {asText typed : Bool}
    {table other : Table}
    (hmode : asText = false → typed = false)
    (h : table.Retyped typed other) :
    table.Retyped asText other :=
  ⟨h.name_eq, h.columns.mono hmode⟩

/--
Two events that are the same, or both report the failure of a change, for failures that
differ at most in the code that they quote.
-/
inductive Event.SameButCode
    (asText : Bool)
    (columns others : List Column) : Event → Event → Prop
  | same (event : Event) : SameButCode asText columns others event event
  | failed
      {failure failure' : Failure}
      (h : failure.SameButCode asText columns others failure')
      (table : Json)
      (kind : ChangeKind)
      (code : Text) :
      SameButCode asText columns others
        (.failed table kind code failure.message) (.failed table kind code failure'.message)

theorem Event.sameButCode_self
    (asText : Bool)
    (columns others : List Column)
    (events : List Event) :
    List.Forall₂ (SameButCode asText columns others) events events :=
  List.forall₂_same.2 fun event _ => .same event

theorem Event.SameButCode.mono
    {asText typed : Bool}
    {columns others : List Column}
    {event event' : Event}
    (hmode : asText = false → typed = false)
    (h : event.SameButCode asText columns others event') :
    event.SameButCode typed columns others event' := by
  cases h with
  | same => exact .same event
  | failed h => exact .failed (h.mono hmode) _ _ _

theorem Event.SameButCode.eq
    {columns others : List Column}
    {event event' : Event}
    (h : event.SameButCode true columns others event') :
    event = event' := by
  cases h with
  | same => rfl
  | failed h => rw [h.eq.1]

namespace Schema

section Retyped

variable {asText : Bool}

theorem columnField_retyped
    {column other : Column}
    (h : column.Retyped asText other) :
    columnField asText column = columnField asText other := by
  have htype : ScalarType.ofCode asText column.code = .ofCode asText other.code := by
    unfold ScalarType.ofCode
    cases asText with
    | false => rw [h.class_eq rfl]
    | true => rfl
  rw [columnField, columnField, htype, h.name_eq]

theorem columnFields_retyped
    {columns others : List Column}
    (h : ColumnsRetyped asText columns others) :
    columnFields asText columns = columnFields asText others := by
  induction h with
  | nil => rfl
  | cons hfirst _ ih => rw [columnFields, columnFields, columnField_retyped hfirst, ih]

variable {table other : Table}

/-- The schemas of a table are those of a table with other codes. -/
theorem Schemas.ofTable_retyped
    (h : table.Retyped asText other) :
    ofTable asText table = ofTable asText other := by
  rw [ofTable, ofTable, columnFields_retyped h.columns, columnFields_retyped h.columns.filter]

theorem Cache.request_retyped
    {cache : Cache}
    (h : table.Retyped cache.asText other)
    (name : Json) :
    cache.request name table = cache.request name other := by
  simp only [request, requestWith, Schemas.ofTable_retyped h]

end Retyped

section Texts

/-- A column field is a text that may be null. -/
def ScalarField.IsText (field : ScalarField) : Prop :=
  field.type = .string ∧ field.nullable = true

/-- The fields of both sides in the schema of records and those of the key schema are texts. -/
structure Schemas.AreTexts (schemas : Schemas) : Prop where
  sides :
    ∀ side : Side, ∃ fields,
      Field.of side.name (.row fields) ∈ schemas.record ∧
        ∀ field ∈ fields, field.IsText
  key : ∀ fields, schemas.key = some fields → ∀ field ∈ fields, field.IsText

/-- All schemas that are kept are of texts. -/
def Cache.AreTexts (cache : Cache) : Prop :=
  ∀ entry ∈ cache.entries, entry.2.schemas.AreTexts

theorem isText_columnFields
    {columns : List Column}
    {fields : List ScalarField}
    (h : columnFields true columns = .ok fields) :
    ∀ field ∈ fields, field.IsText := by
  induction columns generalizing fields with
  | nil =>
      cases h
      simp
  | cons column rest ih =>
      rw [columnFields] at h
      split at h
      · next first others hfirst hothers =>
          cases h
          rw [List.forall_mem_cons]
          refine ⟨?_, ih hothers⟩
          unfold columnField at hfirst
          split at hfirst
          · cases hfirst
            exact ⟨rfl, rfl⟩
          · contradiction
          · contradiction
      · contradiction
      · contradiction

theorem Schemas.areTexts_ofTable
    {table : Table}
    {schemas : Schemas}
    (h : ofTable true table = .ok schemas) :
    schemas.AreTexts := by
  obtain ⟨hcolumns, key, hkey, hschemaKey⟩ := ofTable_eq_ok h
  refine ⟨fun side => ⟨schemas.columns, ?_, isText_columnFields hcolumns⟩, fun fields hfields => ?_⟩
  · cases side <;> simp [record, Side.name]
  · rw [hfields] at hschemaKey
    split at hschemaKey
    · contradiction
    · cases hschemaKey
      exact isText_columnFields hkey

/-- Schemas that are built for a request are of texts, those kept before stay. -/
theorem Cache.areTexts_request
    {cache : Cache}
    (hasText : cache.asText = true)
    (h : cache.AreTexts)
    (name : Json)
    (table : Table) :
    (cache.request name table).cache.AreTexts := by
  have hrequested := requested_request cache name table
  generalize cache.request name table = step at *
  cases hrequested with
  | nameless => exact h
  | kept => exact h
  | unbuildable => exact h
  | built hname habsent htable =>
      intro entry hentry
      rcases List.mem_append.1 hentry with hkept | hbuilt
      · exact h entry hkept
      · rw [List.mem_singleton.1 hbuilt]
        rw [hasText] at htable
        exact Schemas.areTexts_ofTable htable

theorem Cache.areTexts_drop
    {cache : Cache}
    (h : cache.AreTexts)
    (name : Json) :
    (cache.drop name).cache.AreTexts := by
  unfold drop
  split
  · exact h
  · split
    · exact h
    · split
      · exact h
      · exact fun entry hentry => h entry (List.mem_filter.1 hentry).1

end Texts

end Schema

namespace Formatter

section Retyped

variable {settings : Settings}
variable {clock : Clock}
variable {change : Change}
variable {table other : Table}
variable {hasKey : Bool}

theorem keyNames_retyped
    {asText : Bool}
    (h : table.Retyped asText other) :
    table.keyNames = other.keyNames :=
  h.columns.filter.map_name_eq

/-- An emission of a table with other codes is built alike, or fails by the same text. -/
theorem pair_retyped
    (stamp : Instant)
    (h : table.Retyped settings.asText other)
    (emission : Emission) :
    SameResult (Failure.SameButCode settings.asText table.columns other.columns)
      (pair settings stamp change table (List.zipWith Aligned.mk table.columns change.columns)
        hasKey emission)
      (pair settings stamp change other (List.zipWith Aligned.mk other.columns change.columns)
        hasKey emission) := by
  have hblock := Block.build_retyped h.columns change.columns emission.side false
  have hkey := Block.buildKey_retyped h.columns change.columns emission.side
  have hname : table.textName? = other.textName? := by
    rw [Table.textName?, Table.textName?, h.name_eq]
  simp only [pair, hname, h.name_eq, keyNames_retyped h]
  generalize Block.build _ _ _ _ = block at *
  generalize Block.build _ _ _ _ = otherBlock at *
  generalize Block.buildKey _ _ _ = key at *
  generalize Block.buildKey _ _ _ = otherKey at *
  cases other.textName? with
  | none => exact .error (.same (by simp))
  | some name =>
      cases hblock with
      | error hsame => exact .error hsame
      | ok block =>
          cases hasKey with
          | false => exact .ok _
          | true =>
              cases hkey with
              | error hsame => exact .error hsame
              | ok key => exact .ok _

/-- Emissions are built alike one by one, with the same stamps. -/
theorem emitAll_retyped
    (h : table.Retyped settings.asText other)
    (stamps : Stamps)
    (emissions : List Emission) :
    SameResult (Failure.SameButCode settings.asText table.columns other.columns)
        (emitAll settings clock change table
          (List.zipWith Aligned.mk table.columns change.columns) hasKey stamps emissions).1
        (emitAll settings clock change other
          (List.zipWith Aligned.mk other.columns change.columns) hasKey stamps emissions).1 ∧
      (emitAll settings clock change table
          (List.zipWith Aligned.mk table.columns change.columns) hasKey stamps emissions).2 =
        (emitAll settings clock change other
          (List.zipWith Aligned.mk other.columns change.columns) hasKey stamps emissions).2 := by
  induction emissions generalizing stamps with
  | nil => exact ⟨.ok [], rfl⟩
  | cons emission rest ih =>
      cases hnext : stamps.next clock with
      | mk given stamps' =>
          cases given with
          | none =>
              rw [emitAll_cons_of_none rest hnext, emitAll_cons_of_none rest hnext]
              exact ⟨.error (.same (by simp)), rfl⟩
          | some stamp =>
              have hpair := @pair_retyped settings change table other hasKey stamp h emission
              generalize hfirst : pair settings stamp change table _ _ _ = first at hpair
              generalize hother : pair settings stamp change other _ _ _ = second at hpair
              cases hpair with
              | error hsame =>
                  rw [emitAll_cons_of_error rest hnext hfirst,
                    emitAll_cons_of_error rest hnext hother]
                  exact ⟨.error hsame, rfl⟩
              | ok built =>
                  rw [emitAll_cons_of_ok rest hnext hfirst, emitAll_cons_of_ok rest hnext hother]
                  exact ⟨(ih stamps').1.map _, (ih stamps').2⟩

theorem assemble_retyped
    (h : table.Retyped settings.asText other)
    (stamps : Stamps) :
    SameResult (Failure.SameButCode settings.asText table.columns other.columns)
        (assemble settings clock stamps change table hasKey).1
        (assemble settings clock stamps change other hasKey).1 ∧
      (assemble settings clock stamps change table hasKey).2 =
        (assemble settings clock stamps change other hasKey).2 := by
  have hlengths := h.columns.length_eq
  by_cases hlength : change.columns.length = table.columns.length
  · have halign :
        align change table = .ok (List.zipWith Aligned.mk table.columns change.columns) :=
      if_pos hlength
    have hother :
        align change other = .ok (List.zipWith Aligned.mk other.columns change.columns) :=
      if_pos (hlength.trans hlengths)
    by_cases hplan : (Plan.ofKind change.kind settings.keyUpdates).emissions = []
    · obtain ⟨reason, hreason⟩ := (Plan.emissions_eq_nil_iff _).1 hplan
      rw [assemble_of_fatal halign hreason, assemble_of_fatal hother hreason, h.name_eq]
      exact ⟨.error (.same (by simp)), rfl⟩
    · rw [assemble_of_emits halign hplan, assemble_of_emits hother hplan]
      exact emitAll_retyped h stamps _
  · have hlength' : change.columns.length ≠ other.columns.length := hlengths ▸ hlength
    simp only [assemble, align, hlengths, if_neg hlength', h.name_eq]
    exact ⟨.error (.same (by simp)), trivial⟩

/-- Failures that differ in the code they quote are reported with that difference. -/
theorem failureEvents_retyped
    {failure failure' : Failure}
    (h : table.Retyped settings.asText other)
    (hsame : failure.SameButCode settings.asText table.columns other.columns failure') :
    List.Forall₂ (Event.SameButCode settings.asText table.columns other.columns)
      (failureEvents change table failure) (failureEvents change other failure') := by
  have hname :
      failureEvents change other failure' = failureEvents change table failure' := by
    simp only [failureEvents, h.name_eq]
  rw [hname]
  cases hsame with
  | same => exact Event.sameButCode_self _ _ _ _
  | code htyped hmem raw => exact .cons (.failed (.code htyped hmem raw) _ _ _) .nil

/-- What comes of a change of a table with other codes. -/
theorem format_retyped
    {state : Formatter}
    (h : table.Retyped settings.asText other)
    (hcache : table.Retyped state.cache.asText other) :
    SameResult (Failure.SameButCode settings.asText table.columns other.columns)
        (format settings clock state change table).result
        (format settings clock state change other).result ∧
      List.Forall₂ (Event.SameButCode settings.asText table.columns other.columns)
        (format settings clock state change table).events
        (format settings clock state change other).events ∧
      (format settings clock state change table).state =
        (format settings clock state change other).state := by
  have hsame := Event.sameButCode_self settings.asText table.columns other.columns
  simp only [format, h.name_eq, Schema.Cache.request_retyped hcache]
  generalize state.cache.request other.name other = request
  cases request.result with
  | error fault =>
      refine ⟨.error (.same (by simp)), ?_, rfl⟩
      exact .cons (.same _) (List.rel_append (hsame _) (failureEvents_retyped h (.same (by simp))))
  | ok build =>
      obtain ⟨hresult, hstamps⟩ :=
        @assemble_retyped settings clock change table other build.schemas.hasKey h state.stamps
      simp only
      generalize assemble settings clock state.stamps change table _ = made at *
      generalize assemble settings clock state.stamps change other _ = otherMade at *
      obtain ⟨result, stamps⟩ := made
      obtain ⟨otherResult, otherStamps⟩ := otherMade
      obtain rfl : stamps = otherStamps := hstamps
      cases hresult with
      | ok pairs => exact ⟨.ok pairs, hsame _, rfl⟩
      | error hfailure =>
          refine ⟨.error hfailure, ?_, rfl⟩
          exact .cons (.same _) (List.rel_append (hsame _) (failureEvents_retyped h hfailure))

/-- Pairs are converted to the same rows. -/
theorem convert_retyped
    {state : Formatter}
    (arrow : Arrow)
    (h : table.Retyped state.cache.asText other)
    (pairs : List Emitted) :
    convert arrow state table pairs = convert arrow state other pairs := by
  rw [convert, convert, h.name_eq, Schema.Cache.request_retyped h]

end Retyped

end Formatter

/-- A pair holds the captured texts of the side of a change that it shows, as they are. -/
structure Emitted.IsVerbatim
    (change : Change)
    (table : Table)
    (built : Emitted) : Prop where
  block :
    built.record.block.IsVerbatim
      (select (List.zipWith Aligned.mk table.columns change.columns) built.record.side false)
  key :
    ∀ key, built.key = some key →
      key.IsVerbatim
        (select (List.zipWith Aligned.mk table.columns change.columns) built.record.side true)

/-- With all columns read as texts, there is no text that cannot be read. -/
theorem Formatter.ne_coercion_format
    {settings : Settings}
    {clock : Clock}
    {state : Formatter}
    {change : Change}
    {table : Table}
    (hasText : settings.asText = true)
    (cause : Coercion.Failure) :
    (format settings clock state change table).result ≠ .error (.coercion cause) := by
  intro hfailed
  rcases format_eq_error hfailed with
    ⟨fault, hfault⟩ | halign | ⟨reason, -, hfatal⟩ | ⟨columns, -, emission, -, field, -, hfield⟩
  · contradiction
  · unfold align at halign
    split at halign <;> cases halign
  · contradiction
  · rw [Block.failure?_eq_coercion_iff, hasText, coerce_asText] at hfield
    contradiction

/-- With all columns read as texts, a change is formatted as what was captured. -/
theorem Formatter.isVerbatim_format
    {settings : Settings}
    {clock : Clock}
    {state : Formatter}
    {change : Change}
    {table : Table}
    {pairs : List Emitted}
    (hasText : settings.asText = true)
    (h : (format settings clock state change table).result = .ok pairs) :
    ∀ built ∈ pairs, built.IsVerbatim change table := by
  obtain ⟨build, columns, -, halign, -, hemit⟩ := format_eq_ok h
  obtain rfl := eq_zipWith_align halign
  intro built hbuilt
  obtain ⟨emission, -, stamp, hpair⟩ := exists_match_of_mem (forall₂_emitAll hemit).flip hbuilt
  obtain ⟨name, block, -, hblock, hrecord, hkey⟩ := pair_eq_ok hpair
  rw [hasText] at hblock hkey
  have hside : built.record.side = emission.side := by rw [hrecord]
  refine ⟨?_, fun key hsome => ?_⟩
  · rw [hside, hrecord]
    exact Block.isVerbatim_build hblock
  · rw [hside]
    cases hhas : build.schemas.hasKey with
    | false =>
        rw [hhas, if_neg (by simp), hsome] at hkey
        contradiction
    | true =>
        rw [hhas, if_pos rfl] at hkey
        obtain ⟨found, hfound, hbuild⟩ := hkey
        cases hsome.symm.trans hfound
        exact Block.isVerbatim_build hbuild

end ChangeFeed
