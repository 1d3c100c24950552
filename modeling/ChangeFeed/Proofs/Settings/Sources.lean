import ChangeFeed.Proofs.Message.Extraction
import ChangeFeed.Proofs.Text.Blank
import ChangeFeed.Proofs.Text.Letters
import ChangeFeed.Settings

/-!
# Settings from either source

What settings the same texts give as properties and as environment variables. Keys and the
policy are the same, and so are the warnings. A truth value is the word `true` in letters of
either case; among properties there may be blanks around the word, in a variable there may
not. Only texts with such blanks make a difference, and then only to their own truth values.

**Results.**

* `lower_strip_eq_true_iff`: the texts that are true among properties.
* `lower_eq_true_iff`: those that are true in a variable.
* `ofProperties_eq_ok`, `ofEnvironment_eq`: the settings of texts from either source.
* `flagOfText_ne_iff`: the texts that are true in one source only.
* `sources_agree_iff`: when both sources give the same settings.
-/

namespace ChangeFeed

namespace Text

/-- No letter of ASCII is blank. -/
theorem toLower_of_isBlank
    {c : Char}
    (h : isBlank c = true) :
    c.toLower = c := by
  refine toLower_of_not_isUpper fun hupper => ?_
  obtain ⟨hfirst, hlast⟩ := isUpper_iff_toNat.1 hupper
  obtain ⟨range, hrange, hlow, hhigh⟩ := (inRanges_iff _ _).1 h
  have hapart : ∀ range ∈ blanks, range.2 < 65 ∨ 90 < range.1 := by decide
  rcases hapart range hrange with hbelow | habove <;> omega

/-- A text is the word `true`, in letters of either case. -/
def IsTrue (text : List Char) : Prop :=
  text.map Char.toLower = "true".toList

/-- A text is the word `true` between blanks, of which there are some. -/
def IsPaddedTrue (text : String) : Prop :=
  ∃ before word after,
    text.toList = before ++ word ++ after ∧
    IsTrue word ∧
    before ++ after ≠ [] ∧
    ∀ c ∈ before ++ after, isBlank c = true

section True

variable {text : String}
variable {word : List Char}

theorem IsTrue.isBlank_eq_false
    (h : IsTrue word) :
    ∀ c ∈ word, isBlank c = false := by
  intro c hc
  have hletters : ∀ d ∈ "true".toList, isBlank d = false := by
    rw [← List.forall_iff_forall_mem]
    decide
  have hmem : c.toLower ∈ "true".toList := h ▸ List.mem_map_of_mem hc
  by_contra hblank
  rw [toLower_of_isBlank (by simpa using hblank)] at hmem
  exact hblank (hletters c hmem)

theorem lower_eq_true_iff :
    lower text = "true" ↔ IsTrue text.toList := by
  rw [lower_eq_iff (by simp) (by decide), IsTrue, ← String.toList_inj, String.toList_map]

theorem lower_strip_eq_true_iff :
    lower (strip text) = "true" ↔ IsTrue text.toList ∨ IsPaddedTrue text := by
  rw [lower_eq_true_iff, strip, String.toList_ofList]
  constructor
  · intro htrue
    obtain ⟨before, after, htext, hblank⟩ := exists_append_stripChars text.toList
    by_cases hnone : before ++ after = []
    · obtain ⟨rfl, rfl⟩ := List.append_eq_nil_iff.1 hnone
      rw [List.nil_append, List.append_nil] at htext
      exact Or.inl (htext ▸ htrue)
    · exact Or.inr ⟨before, _, after, htext, htrue, hnone, hblank⟩
  · rintro (htrue | ⟨before, word, after, htext, htrue, -, hblank⟩)
    · have hstrip : stripChars text.toList = text.toList :=
        (stripChars_eq_iff htrue.isBlank_eq_false).2 ⟨[], [], by simp⟩
      rwa [hstrip]
    · have hstrip : stripChars text.toList = word :=
        (stripChars_eq_iff htrue.isBlank_eq_false).2 ⟨before, after, htext, hblank⟩
      rwa [hstrip]

/-- With blanks around it, the word is not the whole text. -/
theorem IsPaddedTrue.not_isTrue
    (h : IsPaddedTrue text) :
    ¬ IsTrue text.toList := by
  obtain ⟨before, word, after, htext, -, hsome, hblank⟩ := h
  obtain ⟨c, hc⟩ := List.exists_mem_of_ne_nil _ hsome
  intro htrue
  have hmem : c ∈ text.toList := by
    rw [htext]
    rcases List.mem_append.1 hc with hbefore | hafter
    · simp [hbefore]
    · simp [hafter]
  have hblank := hblank c hc
  rw [htrue.isBlank_eq_false c hmem] at hblank
  contradiction

end True

end Text

namespace Settings

/-- The options that are on or off. -/
inductive Switch where
  | asText
  | isoStamps
  | withKeyNames
  | withTokens

/-- Whether an option is on. -/
def isOn (settings : Settings) : Switch → Bool
  | .asText => settings.asText
  | .isoStamps => settings.isoStamps
  | .withKeyNames => settings.withKeyNames
  | .withTokens => settings.withTokens

/-- The eight options. -/
inductive Choice where
  | insertKey
  | updateKey
  | deleteKey
  | keyUpdates
  | switch (switch : Switch)

namespace Choice

/-- The name of an option as a property. -/
def propertyName : Choice → String
  | .insertKey => "insert-op-key"
  | .updateKey => "update-op-key"
  | .deleteKey => "delete-op-key"
  | .keyUpdates => "pk-update-handling"
  | .switch .asText => "treat-all-as-strings"
  | .switch .isoStamps => "use-iso8601-timestamp"
  | .switch .withKeyNames => "include-primary-keys"
  | .switch .withTokens => "include-tokens"

/-- The name of an option as an environment variable. -/
def variableName : Choice → String
  | .insertKey => "FORMATTER_INSERT_OP_KEY"
  | .updateKey => "FORMATTER_UPDATE_OP_KEY"
  | .deleteKey => "FORMATTER_DELETE_OP_KEY"
  | .keyUpdates => "FORMATTER_PK_UPDATE_HANDLING"
  | .switch .asText => "FORMATTER_TREAT_ALL_AS_STRINGS"
  | .switch .isoStamps => "FORMATTER_USE_ISO8601"
  | .switch .withKeyNames => "FORMATTER_INCLUDE_PRIMARY_KEYS"
  | .switch .withTokens => "FORMATTER_INCLUDE_TOKENS"

theorem forall_iff
    {P : Choice → Prop} :
    (∀ option, P option) ↔
      P .insertKey ∧ P .updateKey ∧ P .deleteKey ∧ P .keyUpdates ∧
        P (.switch .asText) ∧ P (.switch .isoStamps) ∧
        P (.switch .withKeyNames) ∧ P (.switch .withTokens) := by
  constructor
  · exact fun h => ⟨h _, h _, h _, h _, h _, h _, h _, h _⟩
  · rintro ⟨_, _, _, _, _, _, _, _⟩ (_ | _ | _ | _ | switch)
    case switch => cases switch <;> assumption
    all_goals assumption

end Choice

/-- The policy that a text names, to abend if there is none. -/
def policyOf (texts : Choice → Option Text) : KeyUpdatePolicy × List PolicyWarning :=
  policyOfText ((texts .keyUpdates).getD KeyUpdatePolicy.abend.name)

/-- A truth value in a property that is a text, if it is given. -/
def flagOfProperty (default : Bool) (given : Option Text) : Bool :=
  flagOfJson default (given.map .text)

/-- The settings of texts where `read` says, by the default and the text given, what is on. -/
def ofTexts
    (read : Bool → Option Text → Bool)
    (texts : Choice → Option Text) : Settings where
  insertKey := .text ((texts .insertKey).getD "I")
  updateKey := .text ((texts .updateKey).getD "U")
  deleteKey := .text ((texts .deleteKey).getD "D")
  keyUpdates := (policyOf texts).1
  asText := read false (texts (.switch .asText))
  isoStamps := read true (texts (.switch .isoStamps))
  withKeyNames := read false (texts (.switch .withKeyNames))
  withTokens := read false (texts (.switch .withTokens))

section Sources

variable {texts : Choice → Option Text}
variable {read other : Bool → Option Text → Bool}

theorem isOn_ofTexts (switch : Switch) :
    (ofTexts read texts).isOn switch = read (isOn {} switch) (texts (.switch switch)) := by
  cases switch <;> rfl

/-- Settings of the same texts differ in nothing but what is on. -/
theorem ofTexts_eq_iff :
    ofTexts read texts = ofTexts other texts ↔
      ∀ switch, (ofTexts read texts).isOn switch = (ofTexts other texts).isOn switch := by
  constructor
  · intro h switch
    rw [h]
  · intro h
    have hasText := h .asText
    have hisoStamps := h .isoStamps
    have hwithKeyNames := h .withKeyNames
    have hwithTokens := h .withTokens
    simp only [isOn, ofTexts] at *
    simp only [hasText, hisoStamps, hwithKeyNames, hwithTokens]

/-- The settings of properties that are texts. -/
theorem ofProperties_eq_ok
    {members : List (Text × Json)}
    (h : ∀ option, Json.find? members option.propertyName = (texts option).map .text) :
    ofProperties (.object members) =
      .ok (ofTexts flagOfProperty texts, (policyOf texts).2) := by
  have hkey (option : Choice) (default : Text) :
      ((texts option).map Json.text).getD (.text default) =
        .text ((texts option).getD default) :=
    Option.getD_map ..
  have hoptional (option : Choice) :
      (Json.object members).optionalMember option.propertyName =
        .ok ((texts option).map .text) := by
    rw [Json.optionalMember, h]
  rw [Choice.forall_iff] at hoptional
  simp only [Choice.propertyName] at hoptional
  simp only [ofProperties, hoptional, bind, Except.bind, hkey, policyOfJson]
  rfl

/-- The settings of environment variables. -/
theorem ofEnvironment_eq
    {env : List (String × Text)}
    (h : ∀ option, env.lookup option.variableName = texts option) :
    ofEnvironment env = (ofTexts flagOfText texts, (policyOf texts).2) := by
  obtain rfl := funext h
  simp only [ofEnvironment, ofTexts, policyOf, Choice.variableName]

/-- What is on among properties is on in variables too, or it is the word with blanks around it. -/
theorem flagOfProperty_eq_true_iff
    {default : Bool}
    {given : Option Text} :
    flagOfProperty default given = true ↔
      flagOfText default given = true ∨
        ∃ text, given = some text ∧ Text.IsPaddedTrue text.shown := by
  cases given with
  | none => simp [flagOfProperty, flagOfJson, flagOfText]
  | some text =>
      rw [flagOfProperty, Option.map_some, flagOfJson, Json.display_text, flagOfText,
        decide_eq_true_iff, decide_eq_true_iff, Text.lower_strip_eq_true_iff,
        Text.lower_eq_true_iff]
      · simp
      · simp

theorem flagOfText_of_isPaddedTrue
    (default : Bool)
    {text : Text}
    (h : Text.IsPaddedTrue text.shown) :
    flagOfText default (some text) = false := by
  simpa [flagOfText, Text.lower_eq_true_iff] using h.not_isTrue

/-- Only the word with blanks around it is on in one source and off in the other. -/
theorem flagOfText_ne_iff
    {default : Bool}
    {given : Option Text} :
    flagOfText default given ≠ flagOfProperty default given ↔
      ∃ text, given = some text ∧ Text.IsPaddedTrue text.shown := by
  constructor
  · intro hne
    by_contra hnone
    refine hne (Bool.eq_iff_iff.2 ?_)
    rw [flagOfProperty_eq_true_iff, or_iff_left hnone]
  · rintro ⟨text, rfl, h⟩
    rw [flagOfText_of_isPaddedTrue default h,
      flagOfProperty_eq_true_iff.2 (Or.inr ⟨text, rfl, h⟩)]
    decide

/--
The same texts give the same keys, policy and warnings from either source. What is on may
differ, where the word `true` is given with blanks around it: among properties it is on then,
and in a variable off. Without such texts, and only then, the settings are the same.
-/
theorem sources_agree_iff
    {env : List (String × Text)}
    {members : List (Text × Json)}
    (henv : ∀ option, env.lookup option.variableName = texts option)
    (hprops : ∀ option, Json.find? members option.propertyName = (texts option).map .text) :
    ∃ settings warnings,
      ofProperties (.object members) = .ok (settings, warnings) ∧
        (ofEnvironment env).2 = warnings ∧
        (ofEnvironment env).1.insertKey = settings.insertKey ∧
        (ofEnvironment env).1.updateKey = settings.updateKey ∧
        (ofEnvironment env).1.deleteKey = settings.deleteKey ∧
        (ofEnvironment env).1.keyUpdates = settings.keyUpdates ∧
        (∀ switch,
          (ofEnvironment env).1.isOn switch ≠ settings.isOn switch ↔
            ∃ text, texts (.switch switch) = some text ∧ Text.IsPaddedTrue text.shown) ∧
        (∀ switch text,
          texts (.switch switch) = some text → Text.IsPaddedTrue text.shown →
            settings.isOn switch = true ∧ (ofEnvironment env).1.isOn switch = false) ∧
        ((ofEnvironment env).1 = settings ↔
          ∀ switch text, texts (.switch switch) = some text → ¬ Text.IsPaddedTrue text.shown) := by
  rw [ofEnvironment_eq henv]
  dsimp only
  have hdiffer (switch : Switch) :
      (ofTexts flagOfText texts).isOn switch ≠ (ofTexts flagOfProperty texts).isOn switch ↔
        ∃ text, texts (.switch switch) = some text ∧ Text.IsPaddedTrue text.shown := by
    rw [isOn_ofTexts, isOn_ofTexts]
    exact flagOfText_ne_iff
  refine
    ⟨_, _, ofProperties_eq_ok hprops, rfl, by simp only [ofTexts], by simp only [ofTexts],
      by simp only [ofTexts], by simp only [ofTexts], hdiffer, fun switch text htext h => ?_, ?_⟩
  · rw [isOn_ofTexts, isOn_ofTexts, htext]
    exact
      ⟨flagOfProperty_eq_true_iff.2 (Or.inr ⟨text, rfl, h⟩), flagOfText_of_isPaddedTrue _ h⟩
  · rw [ofTexts_eq_iff]
    constructor
    · exact fun h switch text htext hword => (hdiffer switch).2 ⟨text, htext, hword⟩ (h switch)
    · intro h switch
      by_contra hne
      obtain ⟨text, htext, hword⟩ := (hdiffer switch).1 hne
      exact h switch text htext hword

end Sources

/-- Two texts with blanks around them, a policy and a truth value, and one without. -/
def padded : Choice → Option Text
  | .keyUpdates => some " Update"
  | .switch .asText => some " TRUE\t"
  | .switch .withTokens => some "True"
  | _ => none

/-- Columns are kept as texts by the property, but not by the variable of the same text. -/
theorem sources_agree_iff_padded :
    ∃ settings warnings,
      ofProperties
          (.object
            [("pk-update-handling", .text " Update"), ("treat-all-as-strings", .text " TRUE\t"),
              ("include-tokens", .text "True")]) =
        .ok (settings, warnings) ∧
      settings.isOn .asText = true ∧
      (ofEnvironment
          [("FORMATTER_PK_UPDATE_HANDLING", " Update"),
            ("FORMATTER_TREAT_ALL_AS_STRINGS", " TRUE\t"),
            ("FORMATTER_INCLUDE_TOKENS", "True")]).1.isOn .asText = false := by
  have hblank : ∀ c ∈ [' ', '\t'], Text.isBlank c = true := by
    rw [← List.forall_iff_forall_mem]
    decide
  have hword : Text.IsPaddedTrue " TRUE\t" :=
    ⟨[' '], ['T', 'R', 'U', 'E'], ['\t'], by simp, by simp [Text.IsTrue], by simp, hblank⟩
  obtain ⟨settings, warnings, hok, -, -, -, -, -, -, hpadded, -⟩ :=
    @sources_agree_iff padded
      [("FORMATTER_PK_UPDATE_HANDLING", " Update"), ("FORMATTER_TREAT_ALL_AS_STRINGS", " TRUE\t"),
        ("FORMATTER_INCLUDE_TOKENS", "True")]
      [("pk-update-handling", .text " Update"), ("treat-all-as-strings", .text " TRUE\t"),
        ("include-tokens", .text "True")]
      (Choice.forall_iff.2 ⟨rfl, rfl, rfl, rfl, rfl, rfl, rfl, rfl⟩)
      (Choice.forall_iff.2 ⟨rfl, rfl, rfl, rfl, rfl, rfl, rfl, rfl⟩)
  obtain ⟨hon, hoff⟩ := hpadded .asText _ rfl hword
  exact ⟨settings, warnings, hok, hon, hoff⟩

end Settings

end ChangeFeed
