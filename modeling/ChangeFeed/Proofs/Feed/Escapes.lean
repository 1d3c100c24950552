import ChangeFeed.Proofs.Feed.Endings
import ChangeFeed.Proofs.Formatter.Faults

/-!
# Faults that end a feed

A feed is meant to end with an exit code, but a few faults of a message are not
handled and end it without one. They are listed here in full: besides a line
that cannot be read for the size of its numbers or its nesting, a column of
infinite type, a name that cannot be looked up, a name that is no text or a torn
one where schemas are built, a name that is no text where a record is made, a name
that cannot be written, and the end of time. Names are not checked when a message is
taken apart, so none of them makes it malformed. A split whose insert is built but
cannot be written leaves its delete alone in the output.

**Results.**

* `escapes_iff`: the lines that end a feed by a fault that is not handled.
* `exists_halfWritten_iff`: the lines that write one half of a split.
* `exits_run_iff`: when a feed ends with an exit code.
-/

namespace ChangeFeed

namespace Schema.Cache

/-- Dropping fails just if there is something to look up and the name cannot be looked up. -/
theorem exists_drop_error_iff
    (cache : Cache)
    (name : Json) :
    (∃ fault, (cache.drop name).result = .error fault)
      ↔
    cache.entries ≠ [] ∧ name.identity? = none := by
  unfold drop
  cases hentries : cache.entries with
  | nil => simp
  | cons entry rest =>
      cases hname : name.identity? with
      | none => simp
      | some id =>
          simp only [List.isEmpty_cons, Bool.false_eq_true, if_false, reduceCtorEq, and_false,
            iff_false]
          cases cache.lookup? id <;> simp

end Schema.Cache

namespace Feed

/-- The lines that end a feed by a fault that is not handled. -/
inductive Escapes
    (settings : Settings)
    (clock : Clock)
    (state : Formatter)
    (line : List Char) :
    Prop
  -- A number has too many digits, or the nesting is too deep.
  | tooLarge
      {cause : Json.ReadFault}
      (hread : Json.read line = .error cause)
      (hcause : ∀ problem left, cause ≠ .malformed problem left)
  -- The type of a column is an infinite number, which is no integer.
  | infiniteType
      {members : List (Text × Json)}
      (hread : Json.read line = .ok (.object members))
      (hddl : (Json.find? members "ddl").getD .null = .null)
      (htype : Table.HasInfiniteType members)
  -- The name in a notice is an array or an object, and there are schemas to be looked up.
  | noticeName
      {notice : Formatter.Notice}
      (hreads : Reads line (.notice notice))
      (hkept : state.cache.entries ≠ [])
      (hname : notice.objectName.identity? = none)
  -- The table is named by an array or an object, or it is new and the name of a column is torn
  -- or no text at all.
  | schemas
      {change : Change}
      {table : Table}
      (hreads : Reads line (.change change table))
      (hschemas : ¬state.cache.Provides table.name table)
  -- The records of the change cannot be built, or they cannot be written.
  | emissions
      {change : Change}
      {table : Table}
      {columns : List Aligned}
      (hreads : Reads line (.change change table))
      (hschemas : state.cache.Provides table.name table)
      (halign : align change table = .ok columns)
      (hfault :
        Formatter.EmissionsFault settings clock state.stamps table columns
          (Plan.ofKind change.kind settings.keyUpdates).emissions)

/-- Of two records of a line, the first is written as this text and the second is not. -/
def HalfWritten
    (settings : Settings)
    (clock : Clock)
    (state : Formatter)
    (line : List Char)
    (half : String) : Prop :=
  ∃ change table deleted inserted fault,
    Reads line (.change change table) ∧
    (state.format settings clock change table).result = .ok [deleted, inserted] ∧
    deleted.line = .ok half ∧
    inserted.line = .error fault

/-- The lines that write one half of a split: all is well but the names of the insert. -/
inductive Halved
    (settings : Settings)
    (clock : Clock)
    (state : Formatter)
    (line : List Char) :
    Prop
  | split
      {change : Change}
      {table : Table}
      {columns : List Aligned}
      {name : Text}
      (hreads : Reads line (.change change table))
      (hkind : change.kind = .keyUpdate)
      (hpolicy : settings.keyUpdates = .deleteInsert)
      (hschemas : state.cache.Provides table.name table)
      (halign : align change table = .ok columns)
      (hname : table.name = .text name)
      (hstamps : state.stamps.Gives clock 2)
      (hplaced :
        ∀ field ∈ Formatter.textsOf columns [.delete, .insert],
          Block.Placed settings.asText field)
      (hdelete : ¬Formatter.Unwritable settings table columns .delete)
      (hinsert : Formatter.Unwritable settings table columns .insert)

section Line

variable {settings : Settings}
variable {clock : Clock}
variable {state : Formatter}
variable {line : List Char}

/-- The message of a notice escapes just if its name cannot be looked up. -/
theorem exists_escaped_notice_iff
    (notice : Formatter.Notice) :
    (∃ fault, (handle settings clock state (.notice notice)).stop = some (.escaped fault))
      ↔
    state.cache.entries ≠ [] ∧ notice.objectName.identity? = none := by
  rw [← Schema.Cache.exists_drop_error_iff]
  simp only [handle, Formatter.notice]
  cases (state.cache.drop notice.objectName).result <;> simp

/-- A change escapes by a fault of being formatted or of being written. -/
theorem exists_escaped_change_iff
    (change : Change)
    (table : Table) :
    (∃ fault, (handle settings clock state (.change change table)).stop = some (.escaped fault))
      ↔
    (∃ fault, (state.format settings clock change table).result = .error (.fault fault)) ∨
    ∃ pairs fault,
      (state.format settings clock change table).result = .ok pairs ∧
      (Emitted.lines pairs).2 = some fault := by
  simp only [handle]
  cases (state.format settings clock change table).result with
  | error failure => cases failure <;> simp [Stop.ofFailure]
  | ok pairs => simp

/-- A change whose schemas are there escapes by the faults of its emissions. -/
theorem exists_escaped_emissions_iff
    {change : Change}
    {table : Table}
    {columns : List Aligned}
    (hschemas : state.cache.Provides table.name table)
    (halign : align change table = .ok columns) :
    (∃ fault, (handle settings clock state (.change change table)).stop = some (.escaped fault))
      ↔
    Formatter.EmissionsFault settings clock state.stamps table columns
      (Plan.ofKind change.kind settings.keyUpdates).emissions := by
  obtain ⟨build, hrequest⟩ := Schema.Cache.exists_request_eq_ok_iff.2 hschemas
  obtain ⟨hresult, -⟩ := Formatter.format_of_request_ok settings clock change hrequest
  rw [exists_escaped_change_iff]
  by_cases hemits : (Plan.ofKind change.kind settings.keyUpdates).emissions = []
  · obtain ⟨reason, hreason⟩ := (Plan.emissions_eq_nil_iff _).1 hemits
    rw [hresult, Formatter.assemble_of_fatal halign hreason]
    constructor
    · simp
    · intro hfault
      exact absurd hemits hfault.emits
  · rw [hresult, Formatter.assemble_of_emits halign hemits,
      ← Formatter.emissionsFault_iff change build.schemas.hasKey]

/-- Without schemas for its table, a change escapes. -/
theorem exists_escaped_of_not_provides
    {change : Change}
    {table : Table}
    (hschemas : ¬state.cache.Provides table.name table) :
    ∃ fault,
      (handle settings clock state (.change change table)).stop = some (.escaped fault) := by
  rw [exists_escaped_change_iff]
  cases hrequest : (state.cache.request table.name table).result with
  | ok build => exact absurd (Schema.Cache.exists_request_eq_ok_iff.1 ⟨build, hrequest⟩) hschemas
  | error fault =>
      exact Or.inl ⟨fault, (Formatter.format_of_request_error settings clock change hrequest).1⟩

/-- A message that escapes is one of those listed. -/
theorem escapes_of_handle
    {message : Message}
    (hreads : Reads line message)
    (h : ∃ fault, (handle settings clock state message).stop = some (.escaped fault)) :
    Escapes settings clock state line := by
  cases message with
  | notice notice =>
      obtain ⟨hkept, hname⟩ := (exists_escaped_notice_iff notice).1 h
      exact .noticeName hreads hkept hname
  | change change table =>
      by_cases hschemas : state.cache.Provides table.name table
      · obtain ⟨columns, halign⟩ := exists_align_of_reads hreads
        have hfault := (exists_escaped_emissions_iff hschemas halign).1 h
        exact .emissions hreads hschemas halign hfault
      · exact .schemas hreads hschemas

theorem escapes_iff
    (settings : Settings)
    (clock : Clock)
    (state : Formatter)
    (line : List Char) :
    (∃ fault, (handleLine settings clock state line).stop = some (.escaped fault))
      ↔
    Escapes settings clock state line := by
  constructor
  · intro h
    by_cases hreads : ∃ message, Reads line message
    · obtain ⟨message, hreads⟩ := hreads
      rw [handleLine_of_reads hreads] at h
      exact escapes_of_handle hreads h
    · obtain ⟨fault, hstop⟩ := h
      have hhandling := handling_handleLine settings clock state line
      generalize handleLine settings clock state line = result at *
      cases hhandling with
      | malformed _ hending =>
          cases hstop
          cases hending 0
      | tooLarge hread hcause => exact .tooLarge hread hcause
      | faulty hread hmessage hfault =>
          obtain ⟨hddl, htype⟩ := (Message.ofObject_escapes_iff _).1 ⟨_, hmessage, hfault⟩
          exact .infiniteType hread hddl htype
      | dropped hmessage => exact absurd ⟨_, hmessage⟩ hreads
      | undropped hmessage => exact absurd ⟨_, hmessage⟩ hreads
      | unformatted hmessage => exact absurd ⟨_, hmessage⟩ hreads
      | written hmessage => exact absurd ⟨_, hmessage⟩ hreads
  · intro h
    cases h with
    | @tooLarge cause hread hcause =>
        cases cause with
        | malformed problem left => exact absurd rfl (hcause problem left)
        | integerTooLong digits => exact ⟨_, by simp [handleLine, messageOf, hread]; rfl⟩
        | tooDeep => exact ⟨_, by simp [handleLine, messageOf, hread]; rfl⟩
    | @infiniteType members hread hddl htype =>
        obtain ⟨fault, hmessage, hfault⟩ :=
          (Message.ofObject_escapes_iff members).2 ⟨hddl, htype⟩
        exact ⟨fault, by simp [handleLine, messageOf, hread, hmessage, hfault]⟩
    | @noticeName notice hreads hkept hname =>
        rw [handleLine_of_reads hreads]
        exact (exists_escaped_notice_iff notice).2 ⟨hkept, hname⟩
    | schemas hreads hschemas =>
        rw [handleLine_of_reads hreads]
        exact exists_escaped_of_not_provides hschemas
    | emissions hreads hschemas halign hfault =>
        rw [handleLine_of_reads hreads]
        exact (exists_escaped_emissions_iff hschemas halign).2 hfault

/-- Only a split comes to two records. -/
theorem split_of_emissions
    {kind : ChangeKind}
    {policy : KeyUpdatePolicy}
    {first second : Emission}
    (h : (Plan.ofKind kind policy).emissions = [first, second]) :
    kind = .keyUpdate ∧ policy = .deleteInsert ∧ first = .delete ∧ second = .insert := by
  cases kind <;> cases policy <;> simp_all [Plan.ofKind, Plan.emissions]

/-- A line that writes one half is a split whose insert alone cannot be written. -/
theorem halved_of_halfWritten
    {half : String}
    (h : HalfWritten settings clock state line half) :
    Halved settings clock state line := by
  obtain ⟨change, table, deleted, inserted, fault, hreads, hresult, hhalf, hfault⟩ := h
  obtain ⟨build, columns, hrequest, halign, -, hemit⟩ := Formatter.format_eq_ok hresult
  have hpairs := Formatter.forall₂_emitAll hemit
  generalize hemissions : (Plan.ofKind change.kind settings.keyUpdates).emissions = emissions
    at hemit hpairs
  cases hpairs with
  | cons hdeleted hrest =>
      cases hrest with
      | cons hinserted hnil =>
          cases hnil
          obtain ⟨hkind, hpolicy, rfl, rfl⟩ := split_of_emissions hemissions
          obtain ⟨_, hdeleted⟩ := hdeleted
          obtain ⟨_, hinserted⟩ := hinserted
          obtain ⟨name, -, hname, -⟩ := Formatter.pair_eq_ok hdeleted
          obtain ⟨hstamps, hplaced⟩ := (Formatter.emitAll_ok_iff hname _ _).1 ⟨_, hemit⟩
          have hschemas := Schema.Cache.exists_request_eq_ok_iff.1 ⟨build, hrequest⟩
          refine .split hreads hkind hpolicy hschemas halign hname hstamps hplaced ?_ ?_
          · rw [← Formatter.exists_line_error_iff_unwritable hdeleted, hhalf]
            simp
          · rw [← Formatter.exists_line_error_iff_unwritable hinserted]
            exact ⟨fault, hfault⟩

theorem exists_halfWritten_of_halved
    (h : Halved settings clock state line) :
    ∃ half, HalfWritten settings clock state line half := by
  cases h with
  | @split change table columns name hreads hkind hpolicy hschemas halign hname hstamps
      hplaced hdelete hinsert =>
      obtain ⟨build, hrequest⟩ := Schema.Cache.exists_request_eq_ok_iff.2 hschemas
      obtain ⟨hresult, -⟩ := Formatter.format_of_request_ok settings clock change hrequest
      have hemissions :
          (Plan.ofKind change.kind settings.keyUpdates).emissions = [.delete, .insert] := by
        rw [hkind, hpolicy]
        rfl
      rw [Formatter.assemble_of_emits halign (by rw [hemissions]; simp), hemissions] at hresult
      obtain ⟨pairs, hemit⟩ :=
        (Formatter.emitAll_ok_iff hname state.stamps _).2 ⟨hstamps, hplaced⟩
      rw [hemit] at hresult
      cases Formatter.forall₂_emitAll hemit with
      | @cons _ deleted _ _ hdeleted hrest =>
          obtain ⟨inserted, rfl, _, hinserted⟩ :=
            Formatter.exists_of_forall₂_singleton hrest
          obtain ⟨_, hdeleted⟩ := hdeleted
          rw [← Formatter.exists_line_error_iff_unwritable hdeleted] at hdelete
          rw [← Formatter.exists_line_error_iff_unwritable hinserted] at hinsert
          obtain ⟨fault, hfault⟩ := hinsert
          cases hhalf : deleted.line with
          | error other => exact absurd ⟨other, hhalf⟩ hdelete
          | ok half =>
              exact ⟨half, change, table, deleted, inserted, fault, hreads, hresult, hhalf,
                hfault⟩

theorem exists_halfWritten_iff :
    (∃ half, HalfWritten settings clock state line half)
      ↔
    Halved settings clock state line :=
  ⟨fun h => h.elim fun _ => halved_of_halfWritten, exists_halfWritten_of_halved⟩

/-- What half a split leaves in the output. -/
theorem output_of_halfWritten
    {half : String}
    (h : HalfWritten settings clock state line half) :
    (handleLine settings clock state line).output = half ++ "\n" := by
  obtain ⟨change, table, deleted, inserted, fault, hreads, hresult, hhalf, hfault⟩ := h
  rw [handleLine_of_reads hreads]
  simp [handle, hresult, Emitted.lines, hhalf, hfault]

end Line

section Run

variable {settings : Settings}
variable {warnings : List PolicyWarning}
variable {clock : Clock}
variable {text : String}

/-- The first line that is not handled ends the feed with an exit code unless it escapes. -/
theorem exists_exit_of_stopsAt_iff
    {before after : List (List Char)}
    {line : List Char}
    {texts : List String}
    {state : Formatter}
    (hstops :
      StopsAt settings clock (.start settings) (splitLines text.toList) before line after texts
        state) :
    (∃ code ≤ 2, (run settings warnings clock text).ending = .exit code)
      ↔
    ¬Escapes settings clock state line := by
  obtain ⟨stop, events, hstop, hrun⟩ := runLines_of_stopsAt hstops
  have hlines := hrun after
  rw [← hstops.lines_eq] at hlines
  simp only [run, hlines, ← escapes_iff, hstop]
  cases stop <;> simp [Stop.ending]

/-- A feed ends with an exit code unless its first line that is not handled escapes. -/
theorem exists_exit_iff :
    (∃ code ≤ 2, (run settings warnings clock text).ending = .exit code)
      ↔
    ¬∃ before line after texts state,
      StopsAt settings clock (.start settings) (splitLines text.toList) before line after texts
        state ∧
      Escapes settings clock state line := by
  constructor
  · rintro hexit ⟨before, line, after, texts, state, hstops, hescapes⟩
    exact (exists_exit_of_stopsAt_iff hstops).1 hexit hescapes
  · intro hnone
    rcases handlesAll_or_stopsAt settings clock (.start settings) (splitLines text.toList) with
      ⟨texts, state, hall⟩ | ⟨before, line, after, texts, state, hstops⟩
    · obtain ⟨events, hrun⟩ := runLines_of_handlesAll hall
      exact ⟨0, by omega, by simp only [run, hrun]⟩
    · refine (exists_exit_of_stopsAt_iff hstops).2 fun hescapes => ?_
      exact hnone ⟨before, line, after, texts, state, hstops, hescapes⟩

/-- The exit code is 2 just for a malformed line that does not escape. -/
theorem exit_two_iff :
    (run settings warnings clock text).ending = .exit 2
      ↔
    ∃ before line after texts state,
      StopsAt settings clock (.start settings) (splitLines text.toList) before line after texts
        state ∧
      Malformed line ∧
      ¬Escapes settings clock state line := by
  constructor
  · intro hexit
    rcases exit_cases hexit with
      ⟨hcode, -⟩ |
      ⟨before, line, after, texts, state, hstops, ⟨-, hmalformed⟩ | ⟨hcode, -⟩⟩
    · contradiction
    · have hescapes := (exists_exit_of_stopsAt_iff hstops).1 ⟨2, by omega, hexit⟩
      exact ⟨before, line, after, texts, state, hstops, hmalformed, hescapes⟩
    · contradiction
  · rintro ⟨before, line, after, texts, state, hstops, hmalformed, hescapes⟩
    obtain ⟨code, -, hexit⟩ := (exists_exit_of_stopsAt_iff hstops).2 hescapes
    rcases (exit_of_stopsAt hstops hexit).2 with ⟨rfl, -⟩ | ⟨-, change, table, hreads, -⟩
    · exact hexit
    · exact absurd hmalformed (not_malformed_of_reads hreads)

/-- The output ends with half a split just if the first line that is not handled writes it. -/
theorem exists_half_iff :
    (∃ before line after texts state half,
      StopsAt settings clock (.start settings) (splitLines text.toList) before line after texts
        state ∧
      HalfWritten settings clock state line half ∧
      (run settings warnings clock text).output = Emitted.unlines texts ++ (half ++ "\n"))
      ↔
    ∃ before line after texts state,
      StopsAt settings clock (.start settings) (splitLines text.toList) before line after texts
        state ∧
      Halved settings clock state line := by
  constructor
  · rintro ⟨before, line, after, texts, state, half, hstops, hhalf, -⟩
    exact ⟨before, line, after, texts, state, hstops, exists_halfWritten_iff.1 ⟨half, hhalf⟩⟩
  · rintro ⟨before, line, after, texts, state, hstops, hhalved⟩
    obtain ⟨half, hhalf⟩ := exists_halfWritten_iff.2 hhalved
    obtain ⟨stop, events, -, hrun⟩ := runLines_of_stopsAt hstops
    have hlines := hrun after
    rw [← hstops.lines_eq, output_of_halfWritten hhalf] at hlines
    exact ⟨before, line, after, texts, state, half, hstops, hhalf, by simp only [run, hlines]⟩

end Run

/--
A feed ends with an exit code unless its first line that is not handled is one of
those that escape. The code is 2 just if that line is malformed and does not
escape. The output ends with one half of a split just if that line is one that
writes it.
-/
theorem exits_run_iff
    (settings : Settings)
    (warnings : List PolicyWarning)
    (clock : Clock)
    (text : String) :
    ((∃ code ≤ 2, (run settings warnings clock text).ending = .exit code)
      ↔
    ¬∃ before line after texts state,
      StopsAt settings clock (.start settings) (splitLines text.toList) before line after texts
        state ∧
      Escapes settings clock state line)
      ∧
    ((run settings warnings clock text).ending = .exit 2
      ↔
    ∃ before line after texts state,
      StopsAt settings clock (.start settings) (splitLines text.toList) before line after texts
        state ∧
      Malformed line ∧
      ¬Escapes settings clock state line)
      ∧
    ((∃ before line after texts state half,
      StopsAt settings clock (.start settings) (splitLines text.toList) before line after texts
        state ∧
      HalfWritten settings clock state line half ∧
      (run settings warnings clock text).output = Emitted.unlines texts ++ (half ++ "\n"))
      ↔
    ∃ before line after texts state,
      StopsAt settings clock (.start settings) (splitLines text.toList) before line after texts
        state ∧
      Halved settings clock state line) :=
  ⟨exists_exit_iff, exit_two_iff, exists_half_iff⟩

/-- Neither a type that is an infinite number nor a torn name is a reason to exit. -/
example :
    (run {} [] Item.clock
      ("\x7b\"table\": \"T\", \"op_type\": \"I\", \"columns\": " ++
        "[\x7b\"name\": \"A\", \"type\": 1e999\x7d]\x7d")).ending =
        .escaped .integerFromInfinity ∧
      (run {} [] Item.clock
        ("\x7b\"table\": \"T\", \"op_type\": \"I\", \"columns\": " ++
          "[\x7b\"name\": \"\\ud800\", \"type\": 12\x7d]\x7d")).ending =
        .escaped (.unencodable Text.oneHalf) := by
  decide +kernel

end Feed
end ChangeFeed
