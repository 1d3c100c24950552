import ChangeFeed.Proofs.Feed.Lines
import ChangeFeed.Proofs.Formatter.Rows
import ChangeFeed.Proofs.Json.Reading
import ChangeFeed.Proofs.Message.Extraction
import ChangeFeed.Proofs.Record.Decoding
import ChangeFeed.Proofs.Session.Transparency
import Mathlib.Data.List.TakeWhile

/-!
# What a feed writes

A feed writes the lines of the pairs that its changes are formatted as, and nothing
else. If the names of the columns and the operation keys are texts, each pair has a
line of its own, from which a reader of JSON gets the pair. For the lines are
printable ASCII, the ends of lines count the pairs.

**Results.**

* `Formatter.exists_isWrittenAs`: each pair of a change is written as a line of its own.
* `Feed.output_runLines`: a feed writes the lines of the pairs that are emitted.
* `Feed.output_decodes`: what a feed writes can be read back.
-/

namespace ChangeFeed

/-- No two tokens of a change have one name. -/
def Change.TokensDistinct (change : Change) : Prop :=
  (change.tokens.map Prod.fst).Nodup

/-- Operation keys from the environment are texts. -/
theorem Settings.keysAreTexts_ofEnvironment (env : List (String × Text)) :
    (Settings.ofEnvironment env).1.KeysAreTexts := by
  intro emission
  simp only [ofEnvironment]
  cases emission <;> exact ⟨_, rfl⟩

namespace Formatter

section Plain

variable {settings : Settings}
variable {change : Change}
variable {table : Table}

/-- What one emission is built as is plain, where names and keys are texts. -/
theorem isPlain_of_pair
    {columns : List Aligned}
    {hasKey : Bool}
    {stamp : Instant}
    {emission : Emission}
    {built : Emitted}
    (hkeys : settings.KeysAreTexts)
    (hnames : table.NamesAreTexts)
    (htokens : change.TokensDistinct)
    (halign : align change table = .ok columns)
    (h : pair settings stamp change table columns hasKey emission = .ok built) :
    built.IsPlain := by
  obtain ⟨name, block, -, hblock, hrecord, hkey⟩ := pair_eq_ok h
  have hcolumns := hnames.exists_name halign
  refine ⟨⟨?_, ?_, ?_, ?_⟩, ?_⟩
  · rw [hrecord]
    exact hkeys emission
  · rw [hrecord]
    obtain ⟨names, hkeyNames⟩ := hnames.exists_keyNames
    cases settings.withKeyNames with
    | false => exact ⟨none, rfl⟩
    | true => exact ⟨some names, congrArg some hkeyNames⟩
  · intro tokens hsome
    rw [hrecord] at hsome
    cases hwith : settings.withTokens with
    | false => simp [hwith] at hsome
    | true =>
        simp only [hwith, if_true, Option.some.injEq] at hsome
        rw [← hsome]
        exact htokens
  · rw [hrecord]
    exact Block.isPlain_build hcolumns hblock
  · intro key hsome
    cases hasKey with
    | false => simp [hsome] at hkey
    | true =>
        simp only [if_true] at hkey
        obtain ⟨found, hfound, hbuild⟩ := hkey
        cases hsome.symm.trans hfound
        exact Block.isPlain_build hcolumns hbuild

/-- Each pair of a change is written as a line of its own, where names and keys are texts. -/
theorem exists_isWrittenAs
    {clock : Clock}
    {state : Formatter}
    {pairs : List Emitted}
    (hkeys : settings.KeysAreTexts)
    (hnames : table.NamesAreTexts)
    (htokens : change.TokensDistinct)
    (h : (format settings clock state change table).result = .ok pairs) :
    ∀ built ∈ pairs, ∃ text, built.IsWrittenAs text := by
  intro built hmem
  obtain ⟨build, columns, -, halign, -, hemit⟩ := format_eq_ok h
  obtain ⟨emission, -, stamp, hpair⟩ := exists_match_of_mem (forall₂_emitAll hemit).flip hmem
  exact (isPlain_of_pair hkeys hnames htokens halign hpair).exists_isWrittenAs

end Plain

end Formatter

namespace Emitted

/-- The pairs up to the first that has no line. -/
def written (pairs : List Emitted) : List Emitted :=
  pairs.takeWhile fun pair => pair.line.isOk

theorem count_newline
    {cs : List Char}
    (h : Json.IsPrintable cs) :
    cs.count '\n' = 0 := by
  refine List.count_eq_zero.2 fun hmem => ?_
  exact absurd (h _ hmem).1 (by decide)

theorem isPrintable_of_line
    {pair : Emitted}
    {text : String}
    (h : pair.line = .ok text) :
    Json.IsPrintable text.toList := by
  unfold line at h
  split at h
  · obtain ⟨v, -, htext⟩ := (bind_eq_ok_iff _ _ _).1 h
    cases htext
    rw [String.toList_ofList]
    exact Json.isPrintable_write _
  · contradiction

/-- The ends of lines count the pairs that are written. -/
theorem count_lines (pairs : List Emitted) :
    (lines pairs).1.toList.count '\n' = (written pairs).length := by
  induction pairs with
  | nil =>
      rfl
  | cons pair rest ih =>
      cases hline : pair.line with
      | error fault => simp [lines, written, hline, Except.isOk, Except.toBool]
      | ok text =>
          have hwritten : written (pair :: rest) = pair :: written rest := by
            simp [written, hline, Except.isOk, Except.toBool]
          have htext := count_newline (isPrintable_of_line hline)
          rw [hwritten, List.length_cons, ← ih]
          simp only [lines, hline, String.toList_append, List.count_append, htext]
          simp [Nat.add_comm]

/-- Pairs that are written as texts have these for lines. -/
theorem exists_lines
    {pairs : List Emitted}
    (h : ∀ pair ∈ pairs, ∃ text, pair.IsWrittenAs text) :
    ∃ texts,
      lines pairs = (unlines texts, none) ∧
      List.Forall₂ IsWrittenAs pairs texts := by
  have htexts : ∃ texts, List.Forall₂ IsWrittenAs pairs texts := by
    induction pairs with
    | nil => exact ⟨[], .nil⟩
    | cons pair rest ih =>
        rw [List.forall_mem_cons] at h
        obtain ⟨text, htext⟩ := h.1
        obtain ⟨texts, htexts⟩ := ih h.2
        exact ⟨text :: texts, .cons htext htexts⟩
  obtain ⟨texts, htexts⟩ := htexts
  refine ⟨texts, ?_, htexts⟩
  exact (lines_eq_none_iff _ _).2 ⟨texts, htexts.imp fun _ _ h => h.line_eq, rfl⟩

/-- Pairs that all have lines are all written. -/
theorem written_eq_self
    {pairs : List Emitted}
    (h : ∀ pair ∈ pairs, ∃ text, pair.IsWrittenAs text) :
    written pairs = pairs := by
  refine List.takeWhile_eq_self_iff.2 fun pair hpair => ?_
  obtain ⟨text, htext⟩ := h pair hpair
  rw [htext.line_eq]
  rfl

/-- Lines go on where all lines before them could be written. -/
theorem lines_append
    (first second : List Emitted) :
    lines (first ++ second) =
      match (lines first).2 with
      | none => ((lines first).1 ++ (lines second).1, (lines second).2)
      | some fault => ((lines first).1, some fault) := by
  induction first with
  | nil =>
      simp [lines]
  | cons pair rest ih =>
      cases hline : pair.line with
      | error fault => simp [lines, hline]
      | ok text =>
          simp only [List.cons_append, lines, hline, ih]
          cases (lines rest).2 <;> simp [String.append_assoc]

end Emitted

/-- The tokens of a change come from an object, in which no name comes twice. -/
theorem Change.tokensDistinct_ofMessage
    {members : List (Text × Json)}
    {change : Change}
    (hreadable : Json.MembersReadable members)
    (h : Change.ofMessage (.object members) = .ok change) :
    change.TokensDistinct := by
  obtain ⟨found, tokens, hfound, htokens, heq⟩ := (isTaken_ofMessage h).tokens
  rw [TokensDistinct, heq, List.map_map]
  have hfind : found = Json.find? members "tokens" := (Except.ok.inj hfound).symm
  subst hfind
  unfold Json.membersIfAny at htokens
  split at htokens
  · cases htag : Json.find? members "tokens" with
    | none =>
        rw [htag] at htokens
        contradiction
    | some v =>
        rw [htag] at htokens
        cases v with
        | object entries =>
            cases htokens
            have hentries := Json.readable_of_find? hreadable htag
            exact hentries.1
        | _ => contradiction
  · cases htokens
    exact List.nodup_nil

namespace Feed

theorem reads_of_messageOf
    {line : List Char}
    {message : Message}
    (h : messageOf line = .ok message) :
    Reads line message := by
  unfold messageOf at h
  split at h
  · contradiction
  · contradiction
  · contradiction
  · next members hread =>
      split at h
      · next hmessage =>
          cases h
          exact ⟨members, hread, hmessage⟩
      · split at h <;> contradiction
  · contradiction

/-- The tokens of a change that was read differ in their names. -/
theorem tokensDistinct_of_reads
    {line : List Char}
    {change : Change}
    {table : Table}
    (h : Reads line (.change change table)) :
    change.TokensDistinct := by
  obtain ⟨members, hread, hmessage⟩ := h
  exact Change.tokensDistinct_ofMessage (Json.fits_of_read hread).1.2
    (Message.ofMessage_of_ofObject hmessage).2

section Output

variable {settings : Settings}
variable {clock : Clock}

/-- The pairs that a change in a line is formatted as; none if there is no change or it fails. -/
def pairsOf
    (settings : Settings)
    (clock : Clock)
    (state : Formatter)
    (line : List Char) : List Emitted :=
  match messageOf line with
  | .ok (.change change table) =>
      match (state.format settings clock change table).result with
      | .ok pairs => pairs
      | .error _ => []
  | _ => []

/-- The pairs that the changes in lines are formatted as, up to the line that ends the feed. -/
def emitted
    (settings : Settings)
    (clock : Clock)
    (progress : Progress) : List (List Char) → List Emitted
  | [] => []
  | line :: rest =>
      let first := if isBlankLine line then [] else pairsOf settings clock progress.state line
      match (step settings clock progress line).next with
      | .error _ => first
      | .ok next => first ++ emitted settings clock next rest

/-- A line writes the lines of its pairs; it can only be handled if they have lines. -/
theorem step_output
    (settings : Settings)
    (clock : Clock)
    (progress : Progress)
    (line : List Char) :
    (step settings clock progress line).output =
        (Emitted.lines
          (if isBlankLine line then []
            else pairsOf settings clock progress.state line)).1 ∧
      ∀ next,
        (step settings clock progress line).next = .ok next →
        (Emitted.lines
          (if isBlankLine line then []
            else pairsOf settings clock progress.state line)).2 = none := by
  cases hblank : isBlankLine line with
  | true => simp [step, hblank, Emitted.lines]
  | false =>
      simp only [step, hblank, Bool.false_eq_true, if_false, handleLine, pairsOf]
      cases hmessage : messageOf line with
      | error stop => simp [Emitted.lines]
      | ok message =>
          cases message with
          | notice notice =>
              simp only [handle]
              cases (progress.state.notice notice).result <;> simp [Emitted.lines]
          | change change table =>
              simp only [handle]
              cases (progress.state.format settings clock change table).result with
              | error failure => simp [Emitted.lines]
              | ok pairs => cases hfault : (Emitted.lines pairs).2 <;> simp [hfault]

/-- A feed writes the lines of the pairs that are emitted. -/
theorem output_runLines
    (settings : Settings)
    (clock : Clock)
    (progress : Progress)
    (lines : List (List Char)) :
    (runLines settings clock progress lines).output =
      (Emitted.lines (emitted settings clock progress lines)).1 := by
  induction lines generalizing progress with
  | nil =>
      rfl
  | cons line rest ih =>
      obtain ⟨houtput, hnone⟩ := step_output settings clock progress line
      simp only [runLines, emitted]
      cases hnext : (step settings clock progress line).next with
      | error ending => exact houtput
      | ok next =>
          simp only [houtput, ih next, Emitted.lines_append, hnone next hnext]

/-- The pairs of a line whose table has texts for names are written as lines of their own. -/
theorem exists_isWrittenAs_of_mem_pairsOf
    {state : Formatter}
    {line : List Char}
    (hkeys : settings.KeysAreTexts)
    (hnames : ∀ change table, messageOf line = .ok (.change change table) → table.NamesAreTexts) :
    ∀ built ∈ pairsOf settings clock state line, ∃ text, built.IsWrittenAs text := by
  intro built hmem
  unfold pairsOf at hmem
  split at hmem
  · next change table hmessage =>
      split at hmem
      · next pairs hpairs =>
          have htokens := tokensDistinct_of_reads (reads_of_messageOf hmessage)
          exact Formatter.exists_isWrittenAs hkeys (hnames change table hmessage) htokens hpairs
            built hmem
      · contradiction
  · contradiction

theorem exists_isWrittenAs_of_mem_emitted
    {lines : List (List Char)}
    (progress : Progress)
    (hkeys : settings.KeysAreTexts)
    (hnames : ∀ change table, .change change table ∈ messagesOf lines → table.NamesAreTexts) :
    ∀ built ∈ emitted settings clock progress lines, ∃ text, built.IsWrittenAs text := by
  induction lines generalizing progress with
  | nil =>
      intro built hmem
      contradiction
  | cons line rest ih =>
      have hfirst :
          ∀ built ∈
              (if isBlankLine line then [] else pairsOf settings clock progress.state line),
            ∃ text, built.IsWrittenAs text := by
        cases hblank : isBlankLine line with
        | true => simp
        | false =>
            refine exists_isWrittenAs_of_mem_pairsOf hkeys fun change table hmessage => ?_
            refine hnames change table ?_
            simp [messagesOf, hblank, hmessage, Except.toOption]
      have hrest :
          ∀ change table, .change change table ∈ messagesOf rest → table.NamesAreTexts := by
        intro change table hmem
        refine hnames change table ?_
        simp only [messagesOf, List.mem_filterMap, List.mem_cons] at hmem ⊢
        obtain ⟨other, hother, heq⟩ := hmem
        exact ⟨other, Or.inr hother, heq⟩
      simp only [emitted]
      split
      · exact hfirst
      · next next _ => exact List.forall_mem_append.2 ⟨hfirst, ih next hrest⟩

end Output

/--
Where operation keys and the names of columns are texts, each pair that a change is
formatted as is written as one line, which is printable ASCII, JSON by the standard
and read back as the pair. So are all pairs that are emitted in a run, and nothing
else is written: the ends of lines count them. In any run they count the pairs up
to the first that cannot be written.
-/
theorem output_decodes
    (settings : Settings)
    (clock : Clock) :
    (settings.KeysAreTexts →
      (∀ state change table pairs,
        table.NamesAreTexts →
        change.TokensDistinct →
        (Formatter.format settings clock state change table).result = .ok pairs →
        ∃ texts,
          Emitted.lines pairs = (Emitted.unlines texts, none) ∧
          List.Forall₂ Emitted.IsWrittenAs pairs texts)
        ∧
      ∀ warnings text,
        (∀ change table,
          .change change table ∈ messagesOf (splitLines text.toList) → table.NamesAreTexts) →
        ∃ texts,
          (run settings warnings clock text).output = Emitted.unlines texts ∧
          List.Forall₂ Emitted.IsWrittenAs
            (emitted settings clock { state := .start settings } (splitLines text.toList))
            texts ∧
          (run settings warnings clock text).output.toList.count '\n' =
            (emitted settings clock { state := .start settings }
              (splitLines text.toList)).length)
      ∧
    ∀ warnings text,
      (run settings warnings clock text).output.toList.count '\n' =
        (Emitted.written
          (emitted settings clock { state := .start settings }
            (splitLines text.toList))).length := by
  have houtput (warnings : List PolicyWarning) (text : String) :
      (run settings warnings clock text).output =
        (Emitted.lines
          (emitted settings clock { state := .start settings } (splitLines text.toList))).1 :=
    output_runLines settings clock { state := .start settings } (splitLines text.toList)
  refine ⟨fun hkeys => ⟨?_, ?_⟩, ?_⟩
  · intro state change table pairs hnames htokens hpairs
    exact Emitted.exists_lines (Formatter.exists_isWrittenAs hkeys hnames htokens hpairs)
  · intro warnings text hnames
    have hwritten :
        ∀ built ∈ emitted settings clock { state := .start settings } (splitLines text.toList),
          ∃ text, built.IsWrittenAs text :=
      exists_isWrittenAs_of_mem_emitted { state := .start settings } hkeys hnames
    obtain ⟨texts, hlines, htexts⟩ := Emitted.exists_lines hwritten
    refine ⟨texts, by rw [houtput, hlines], htexts, ?_⟩
    rw [houtput, Emitted.count_lines, Emitted.written_eq_self hwritten]
  · intro warnings text
    rw [houtput, Emitted.count_lines]

end Feed

theorem Feed.namesAreTexts_haltingText
    (change : Change)
    (table : Table)
    (h : .change change table ∈ messagesOf (splitLines haltingText.toList)) :
    table.NamesAreTexts := by
  obtain ⟨change', hchange⟩ := exists_of_mem_haltingText h
  cases hchange
  intro column hcolumn
  exact absurd hcolumn List.not_mem_nil

/-- A parcel of unknown weight is read back, and a feed has a line for each record. -/
theorem Feed.output_decodes_parcel :
    Settings.KeysAreTexts {} ∧
      Parcel.table.NamesAreTexts ∧
      Parcel.sent.TokensDistinct ∧
      (∃ built texts,
        (Formatter.format {} Parcel.clock {} Parcel.sent Parcel.table).result = .ok [built] ∧
        Emitted.lines [built] = (Emitted.unlines texts, none) ∧
        List.Forall₂ Emitted.IsWrittenAs [built] texts) ∧
      (∀ change table,
        .change change table ∈ messagesOf (splitLines haltingText.toList) →
        table.NamesAreTexts) ∧
      (run {} [] Parcel.clock haltingText).output.toList.count '\n' =
        (emitted {} Parcel.clock { state := .start {} }
          (splitLines haltingText.toList)).length := by
  have htokens : Parcel.sent.TokensDistinct := by
    unfold Change.TokensDistinct
    decide
  have hnames := Parcel.namesDistinct_table.namesAreTexts
  obtain ⟨built, hbuilt⟩ := Parcel.exists_built
  obtain ⟨⟨hpairs, hrun⟩, -⟩ :=
    (output_decodes {} Parcel.clock).imp_left fun h => h Parcel.keysAreTexts_default
  obtain ⟨texts, hlines, htexts⟩ :=
    hpairs {} Parcel.sent Parcel.table [built] hnames htokens hbuilt
  obtain ⟨-, -, -, hcount⟩ := hrun [] haltingText namesAreTexts_haltingText
  exact ⟨Parcel.keysAreTexts_default, hnames, htokens,
    ⟨built, texts, hbuilt, hlines, htexts⟩, namesAreTexts_haltingText, hcount⟩

end ChangeFeed
