import ChangeFeed.Proofs.Feed.Lines
import ChangeFeed.Proofs.Formatter.Prescription
import ChangeFeed.Proofs.Message.Extraction

/-!
# How feeds end

The exit code of a feed tells what its lines were: 0 if all were handled, and
otherwise by the first that was not, 2 if it is no message and 1 if it is a
change that cannot be formatted. What is written are the lines of the changes
before it.

**Results.**

* `not_misaligned_of_reads`: a change of a message fits its table.
* `exit_of_stop`: what an exit code says of the line that ends the feed.
* `accounts_run`: what an exit code says of all lines of a text.
-/

namespace ChangeFeed
namespace Feed

/--
A change that cannot be formatted: its kind is unknown, or it is an update of key
columns which the policy does not allow, or a text captured on a side that its
plan uses cannot be read by the type of its column.
-/
inductive Unformattable
    (settings : Settings)
    (change : Change)
    (table : Table) :
    Prop
  | unknown
      (hkind : change.kind = .unknown)
  | keyUpdate
      (hkind : change.kind = .keyUpdate)
      (hpolicy : settings.keyUpdates = .abend)
  | coercion
      {emission : Emission}
      {i : Nat}
      {column : Column}
      {images : Images}
      {text : Text}
      {failure : Coercion.Failure}
      (hemission : emission ∈ (Plan.ofKind change.kind settings.keyUpdates).emissions)
      (hcolumn : table.columns[i]? = some column)
      (himages : change.columns[i]? = some images)
      (htext : images.on emission.side = .captured text)
      (hcoerce : coerce settings.asText column.code column.name text = .error failure)

section Stop

variable {settings : Settings}
variable {clock : Clock}
variable {state : Formatter}
variable {line : List Char}

/-- A line is that of one message, and then it is not malformed. -/
theorem not_malformed_of_reads
    {message : Message}
    (hreads : Reads line message) :
    ¬Malformed line := by
  obtain ⟨members, hread, hmessage⟩ := hreads
  intro hmalformed
  cases hmalformed with
  | unreadable hother =>
      rw [hread] at hother
      contradiction
  | noObject hother hobject =>
      rw [hread] at hother
      exact hobject members (Except.ok.inj hother).symm
  | noMessage hother hfault =>
      rw [hread] at hother
      cases hother
      rw [hmessage] at hfault
      contradiction

/-- The change and the table of a message are taken from the same columns. -/
theorem exists_align_of_reads
    {change : Change}
    {table : Table}
    (hreads : Reads line (.change change table)) :
    ∃ columns, align change table = .ok columns := by
  obtain ⟨members, -, hmessage⟩ := hreads
  have hlength := Message.length_columns_ofObject hmessage
  exact ⟨_, by rw [align, if_pos hlength]⟩

theorem not_misaligned_of_reads
    {change : Change}
    {table : Table}
    (hreads : Reads line (.change change table))
    (name : Json)
    (changed described : Nat) :
    (state.format settings clock change table).result ≠
      .error (.misaligned name changed described) := by
  intro hresult
  obtain ⟨columns, halign⟩ := exists_align_of_reads hreads
  rcases Formatter.format_eq_error hresult with
    ⟨fault, hfault⟩ | hmisaligned | ⟨reason, -, hfatal⟩ |
    ⟨-, -, emission, -, field, -, hfailure⟩
  · contradiction
  · rw [halign] at hmisaligned
    contradiction
  · contradiction
  · rcases Block.failure?_cases _ hfailure with ⟨cause, hcause⟩ | hcause
    · contradiction
    · contradiction

/-- A change that is not formatted, but not for a fault of its message, cannot be formatted. -/
theorem unformattable_of_format
    {change : Change}
    {table : Table}
    {failure : Failure}
    (hreads : Reads line (.change change table))
    (hresult : (state.format settings clock change table).result = .error failure)
    (hfailure : ∀ fault, failure ≠ .fault fault) :
    Unformattable settings change table := by
  obtain ⟨columns, halign⟩ := exists_align_of_reads hreads
  rcases Formatter.format_eq_error hresult with
    ⟨fault, hfault⟩ | hmisaligned | ⟨reason, hplan, -⟩ |
    ⟨others, halign', emission, hemission, field, hfield, hplace⟩
  · exact absurd hfault (hfailure fault)
  · rw [halign] at hmisaligned
    contradiction
  · cases hkind : change.kind with
    | unknown => exact .unknown hkind
    | keyUpdate =>
        cases hpolicy : settings.keyUpdates with
        | abend => exact .keyUpdate hkind hpolicy
        | update =>
            rw [hkind, hpolicy] at hplan
            contradiction
        | deleteInsert =>
            rw [hkind, hpolicy] at hplan
            contradiction
    | _ =>
        rw [hkind] at hplan
        contradiction
  · rcases Block.failure?_cases _ hplace with ⟨cause, rfl⟩ | rfl
    · have hcoerce := (Block.failure?_eq_coercion_iff _ _ _).1 hplace
      obtain ⟨i, images, hcolumn, himages, htext⟩ :=
        exists_position_of_mem_select halign' hfield
      exact .coercion hemission hcolumn himages htext hcoerce
    · exact absurd rfl (hfailure _)

/-- A line that ends the feed with an exit code writes nothing, and the code says why. -/
theorem exit_of_stop
    {stop : Stop}
    {number code : Nat}
    (hstop : (handleLine settings clock state line).stop = some stop)
    (hexit : (stop.ending number).1 = .exit code) :
    (handleLine settings clock state line).output = "" ∧
      ((code = 2 ∧ Malformed line) ∨
        (code = 1 ∧
          ∃ change table,
            Reads line (.change change table) ∧
            Unformattable settings change table)) := by
  have hhandling := handling_handleLine settings clock state line
  generalize handleLine settings clock state line = result at *
  cases hhandling with
  | malformed hmalformed hending =>
      cases hstop
      rw [hending] at hexit
      cases hexit
      exact ⟨rfl, Or.inl ⟨rfl, hmalformed⟩⟩
  | tooLarge =>
      cases hstop
      contradiction
  | faulty =>
      cases hstop
      contradiction
  | dropped => contradiction
  | undropped =>
      cases hstop
      contradiction
  | @unformatted change table failure hreads hresult =>
      cases hstop
      refine ⟨rfl, Or.inr ⟨?_, change, table, hreads, ?_⟩⟩
      · cases failure <;> cases hexit <;> rfl
      · refine unformattable_of_format hreads hresult ?_
        rintro fault rfl
        contradiction
  | @written _ _ _ _ fault hreads hresult hlines =>
      cases fault with
      | none => contradiction
      | some fault =>
          cases hstop
          contradiction

end Stop

/--
What the exit code of a feed says of its text: which lines were handled, what the
first line was that was not, what was written, and that nothing after that line
matters.
-/
structure Accounts
    (settings : Settings)
    (warnings : List PolicyWarning)
    (clock : Clock)
    (text : String)
    (code : Nat) : Prop where
  code_cases : code = 0 ∨ code = 1 ∨ code = 2
  zero_iff :
    code = 0
      ↔
    ∃ texts state,
      HandlesAll settings clock (.start settings) (splitLines text.toList) texts state
  two_iff :
    code = 2
      ↔
    ∃ before line after texts state,
      StopsAt settings clock (.start settings) (splitLines text.toList) before line after
        texts state ∧
      Malformed line
  one_iff :
    code = 1
      ↔
    ∃ before line after texts state change table,
      StopsAt settings clock (.start settings) (splitLines text.toList) before line after
        texts state ∧
      Reads line (.change change table) ∧
      Unformattable settings change table
  aligned :
    ∀ line change table (state : Formatter) name changed described,
      Reads line (.change change table) →
      (state.format settings clock change table).result ≠
        .error (.misaligned name changed described)
  output_of_handlesAll :
    ∀ texts state,
      HandlesAll settings clock (.start settings) (splitLines text.toList) texts state →
      (run settings warnings clock text).output = Emitted.unlines texts
  output_of_stopsAt :
    ∀ before line after texts state,
      StopsAt settings clock (.start settings) (splitLines text.toList) before line after
        texts state →
      (run settings warnings clock text).output = Emitted.unlines texts
  unread :
    ∀ before line after texts state,
      StopsAt settings clock (.start settings) (splitLines text.toList) before line after
        texts state →
      ∀ (other : String) others,
        splitLines other.toList = before ++ line :: others →
        run settings warnings clock other = run settings warnings clock text
  counted :
    code = 0 →
    (run settings warnings clock text).events.getLast? =
      some (.processed (messageCount (splitLines text.toList)))

section Run

variable {settings : Settings}
variable {warnings : List PolicyWarning}
variable {clock : Clock}
variable {text : String}
variable {code : Nat}

/-- A line that ends a feed with an exit code, and what the feed has written by then. -/
theorem exit_of_stopsAt
    {before after : List (List Char)}
    {line : List Char}
    {texts : List String}
    {state : Formatter}
    (hstops :
      StopsAt settings clock (.start settings) (splitLines text.toList) before line after
        texts state)
    (hexit : (run settings warnings clock text).ending = .exit code) :
    (run settings warnings clock text).output = Emitted.unlines texts ∧
      ((code = 2 ∧ Malformed line) ∨
        (code = 1 ∧
          ∃ change table,
            Reads line (.change change table) ∧
            Unformattable settings change table)) := by
  obtain ⟨stop, events, hstop, hrun⟩ := runLines_of_stopsAt hstops
  have hlines := hrun after
  rw [← hstops.lines_eq] at hlines
  simp only [run, hlines] at hexit ⊢
  obtain ⟨houtput, hcause⟩ := exit_of_stop hstop hexit
  rw [houtput]
  exact ⟨String.append_empty, hcause⟩

/-- A feed all of whose lines are handled exits with 0, writes their texts and counts them. -/
theorem exit_of_handlesAll
    {texts : List String}
    {state : Formatter}
    (hall : HandlesAll settings clock (.start settings) (splitLines text.toList) texts state)
    (hexit : (run settings warnings clock text).ending = .exit code) :
    code = 0 ∧
      (run settings warnings clock text).output = Emitted.unlines texts ∧
      (run settings warnings clock text).events.getLast? =
        some (.processed (messageCount (splitLines text.toList))) := by
  obtain ⟨events, hrun⟩ := runLines_of_handlesAll hall
  simp only [run, hrun] at hexit ⊢
  cases hexit
  refine ⟨rfl, trivial, ?_⟩
  rw [← List.append_assoc, List.getLast?_concat]

/-- A feed with an exit code has handled all its lines, or its first other line gave the code. -/
theorem exit_cases
    (hexit : (run settings warnings clock text).ending = .exit code) :
    (code = 0 ∧
      ∃ texts state,
        HandlesAll settings clock (.start settings) (splitLines text.toList) texts state) ∨
      ∃ before line after texts state,
        StopsAt settings clock (.start settings) (splitLines text.toList) before line after
          texts state ∧
        ((code = 2 ∧ Malformed line) ∨
          (code = 1 ∧
            ∃ change table,
              Reads line (.change change table) ∧
              Unformattable settings change table)) := by
  rcases handlesAll_or_stopsAt settings clock (.start settings) (splitLines text.toList) with
    ⟨texts, state, hall⟩ | ⟨before, line, after, texts, state, hstops⟩
  · have hcode := (exit_of_handlesAll hall hexit).1
    exact Or.inl ⟨hcode, texts, state, hall⟩
  · have hcause := (exit_of_stopsAt hstops hexit).2
    exact Or.inr ⟨before, line, after, texts, state, hstops, hcause⟩

end Run

/-- The exit code of a feed accounts for its text. -/
theorem accounts_run
    (settings : Settings)
    (warnings : List PolicyWarning)
    (clock : Clock)
    (text : String)
    (code : Nat)
    (hexit : (run settings warnings clock text).ending = .exit code) :
    Accounts settings warnings clock text code where
  code_cases := by
    rcases exit_cases hexit with
      ⟨hcode, -⟩ | ⟨before, line, after, texts, state, -, ⟨hcode, -⟩ | ⟨hcode, -⟩⟩
    · exact Or.inl hcode
    · exact Or.inr (Or.inr hcode)
    · exact Or.inr (Or.inl hcode)
  zero_iff := by
    constructor
    · rintro rfl
      rcases exit_cases hexit with
        ⟨-, hall⟩ | ⟨before, line, after, texts, state, -, ⟨hcode, -⟩ | ⟨hcode, -⟩⟩
      · exact hall
      · contradiction
      · contradiction
    · rintro ⟨texts, state, hall⟩
      exact (exit_of_handlesAll hall hexit).1
  two_iff := by
    constructor
    · rintro rfl
      rcases exit_cases hexit with
        ⟨hcode, -⟩ |
        ⟨before, line, after, texts, state, hstops, ⟨-, hmalformed⟩ | ⟨hcode, -⟩⟩
      · contradiction
      · exact ⟨before, line, after, texts, state, hstops, hmalformed⟩
      · contradiction
    · rintro ⟨before, line, after, texts, state, hstops, hmalformed⟩
      rcases (exit_of_stopsAt hstops hexit).2 with ⟨hcode, -⟩ | ⟨-, change, table, hreads, -⟩
      · exact hcode
      · exact absurd hmalformed (not_malformed_of_reads hreads)
  one_iff := by
    constructor
    · rintro rfl
      rcases exit_cases hexit with
        ⟨hcode, -⟩ |
        ⟨before, line, after, texts, state, hstops,
          ⟨hcode, -⟩ | ⟨-, change, table, hreads, hchange⟩⟩
      · contradiction
      · contradiction
      · exact ⟨before, line, after, texts, state, change, table, hstops, hreads, hchange⟩
    · rintro ⟨before, line, after, texts, state, change, table, hstops, hreads, -⟩
      rcases (exit_of_stopsAt hstops hexit).2 with ⟨-, hmalformed⟩ | ⟨hcode, -⟩
      · exact absurd hmalformed (not_malformed_of_reads hreads)
      · exact hcode
  aligned := by
    intro line change table state name changed described hreads
    exact not_misaligned_of_reads hreads name changed described
  output_of_handlesAll := by
    intro texts state hall
    exact (exit_of_handlesAll hall hexit).2.1
  output_of_stopsAt := by
    intro before line after texts state hstops
    exact (exit_of_stopsAt hstops hexit).1
  unread := by
    intro before line after texts state hstops other others hother
    obtain ⟨stop, events, -, hrun⟩ := runLines_of_stopsAt hstops
    have hlines := hstops.lines_eq
    simp only [run, hother, hlines, hrun]
  counted := by
    rintro rfl
    rcases exit_cases hexit with
      ⟨-, texts, state, hall⟩ |
      ⟨before, line, after, texts, state, -, ⟨hcode, -⟩ | ⟨hcode, -⟩⟩
    · exact (exit_of_handlesAll hall hexit).2.2
    · contradiction
    · contradiction

/-- An insert, a change of an unknown kind, and a line that is no message. -/
def haltingText : String :=
  "\x7b\"table\": \"T\", \"op_type\": \"I\"\x7d\n" ++
    "\x7b\"table\": \"T\", \"op_type\": \"X\"\x7d\n" ++
    "7"

/-- The insert is written, the second line halts the feed and the third one is not read. -/
theorem accounts_run_haltingText :
    (run {} [] Item.clock haltingText).ending = .exit 1 ∧
      Accounts {} [] Item.clock haltingText 1 :=
  ⟨by decide +kernel, accounts_run _ _ _ _ _ (by decide +kernel)⟩

end Feed
end ChangeFeed
