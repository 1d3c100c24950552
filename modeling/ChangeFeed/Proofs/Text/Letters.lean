import ChangeFeed.Text.Basic
import ChangeFeed.Text.Letters
import Mathlib.Data.List.Forall2
import Mathlib.Data.List.Infix

/-!
# Words in letters of any case

Which texts become a given ASCII word when they are put in small letters or in
capitals. Hardly any character beyond ASCII has an ASCII character in its small form:
only the Kelvin sign, whose small form is `k`, and the dotted capital `İ`, whose small
form is an `i` with a dot above. So a word without `k` comes of the texts with the same
ASCII letters, in either case, and of no others. Among the capital forms there are more:
the dotless `ı` has the capital `I` and the long `ſ` the capital `S`, and some characters
have two or three ASCII letters for their capital form. A word that has none of these
strings in it comes of the texts with the same letters in either case, where `ı` passes
for an `I` and `ſ` for an `S`.

**Results.**

* `toNat_shifted`: the form of a character of a run lies at the distance of the run.
* `mem_form_cases`: where the characters of a form come from.
* `flatMap_form_eq_iff`: a word without longer forms comes of its characters one by one.
* `lower_eq_iff`: the texts that are a word in small letters.
* `upper_eq_iff`: the texts that are a word in capitals.
-/

namespace ChangeFeed
namespace Text

namespace CaseRun

/-- Whether the forms of all that is in a run are characters, and none of them ASCII. -/
def IsBeyond (run : CaseRun) : Prop :=
  0x80 ≤ run.first + run.distance ∧
    (run.last + run.distance < 0xD800 ∨
      (0xDFFF < run.first + run.distance ∧ run.last + run.distance < 0x110000))

instance (run : CaseRun) : Decidable run.IsBeyond :=
  inferInstanceAs (Decidable (_ ∧ _))

theorem toNat_shifted
    {run : CaseRun}
    {c : Char}
    (hbeyond : run.IsBeyond)
    (hc : run.contains c = true) :
    ((run.shifted c).toNat : Int) = c.toNat + run.distance := by
  simp only [contains, Bool.and_eq_true, decide_eq_true_eq] at hc
  obtain ⟨hfirst, hrange⟩ := hbeyond
  have hvalid : (c.toNat + run.distance).toNat.isValidChar := by
    unfold Nat.isValidChar
    omega
  rw [shifted, Symbol.toNat_ofNat hvalid]
  omega

theorem le_toNat_shifted
    {run : CaseRun}
    {c : Char}
    (hbeyond : run.IsBeyond)
    (hc : run.contains c = true) :
    0x80 ≤ (run.shifted c).toNat := by
  have hshifted := toNat_shifted hbeyond hc
  simp only [contains, Bool.and_eq_true, decide_eq_true_eq] at hc
  obtain ⟨hfirst, -⟩ := hbeyond
  omega

end CaseRun

namespace CaseMapping

section Form

variable {mapping : CaseMapping}
variable {c d : Char}

/-- A form is one character, or one of the longer ones. -/
theorem form_cases
    (mapping : CaseMapping)
    (c : Char) :
    (∃ d, mapping.form c = [d]) ∨
      ∃ entry ∈ mapping.long, mapping.form c = entry.2.map Char.ofNat := by
  by_cases hc : c.toNat < 0x80
  · exact Or.inl ⟨_, form_of_ascii mapping c hc⟩
  · unfold form
    rw [if_neg hc]
    split
    · next codes hlookup =>
        obtain ⟨before, after, heq, -⟩ := List.lookup_eq_some_iff.1 hlookup
        exact Or.inr ⟨(c.toNat, codes), by simp [heq], rfl⟩
    · split
      · exact Or.inl ⟨_, rfl⟩
      · exact Or.inl ⟨_, rfl⟩

/--
Where no longer form stands in a word, a text has it for its form character by character:
each character of the word is the form of one of the text.
-/
theorem flatMap_form_eq_iff
    {R : Char → Char → Prop}
    {text word : List Char}
    (hlong : ∀ entry ∈ mapping.long, ¬ entry.2.map Char.ofNat <:+: word)
    (hform : ∀ c, ∀ d ∈ word, mapping.form c = [d] ↔ R c d) :
    text.flatMap mapping.form = word ↔ List.Forall₂ R text word := by
  induction text generalizing word with
  | nil => simp [eq_comm]
  | cons c rest ih =>
      -- What is left of the word has no longer form in it either.
      have htail {d : Char} {others : List Char} (hword : word = d :: others) :
          rest.flatMap mapping.form = others ↔ List.Forall₂ R rest others := by
        subst hword
        refine ih (fun entry hentry hstands => ?_) fun c e he => ?_
        · exact hlong entry hentry (hstands.trans (List.suffix_cons d others).isInfix)
        · exact hform c e (List.mem_cons_of_mem d he)
      rw [List.flatMap_cons]
      constructor
      · intro hword
        rcases mapping.form_cases c with ⟨d, hc⟩ | ⟨entry, hentry, hc⟩
        · rw [hc, List.singleton_append] at hword
          subst hword
          exact .cons ((hform c d List.mem_cons_self).1 hc) ((htail rfl).1 rfl)
        · refine absurd ?_ (hlong entry hentry)
          rw [← hword, hc]
          exact (List.prefix_append _ _).isInfix
      · intro h
        cases h with
        | @cons _ d _ others hd hrest =>
            rw [(hform c d List.mem_cons_self).2 hd, (htail rfl).2 hrest, List.singleton_append]

/--
A character of a form is the form of an ASCII character, or it is not ASCII, or it
comes of one of the characters with a longer form or of a run that is not sound.
-/
theorem mem_form_cases
    (h : d ∈ mapping.form c) :
    (c.toNat < 0x80 ∧ d = mapping.ascii c)
      ∨
    0x80 ≤ d.toNat
      ∨
    (∃ entry ∈ mapping.long, mapping.form c = entry.2.map Char.ofNat)
      ∨
    ∃ run ∈ mapping.runs, ¬ run.IsBeyond ∧ run.contains c = true ∧ d = run.shifted c := by
  by_cases hc : c.toNat < 0x80
  · rw [form_of_ascii mapping c hc, List.mem_singleton] at h
    exact Or.inl ⟨hc, h⟩
  · right
    unfold form at h ⊢
    rw [if_neg hc] at h ⊢
    split at h
    · next codes hlookup =>
        obtain ⟨before, after, heq, -⟩ := List.lookup_eq_some_iff.1 hlookup
        exact Or.inr (Or.inl ⟨(c.toNat, codes), by simp [heq], rfl⟩)
    · split at h
      · next run hrun =>
          have hcontains := List.find?_some hrun
          rw [List.mem_singleton] at h
          subst h
          by_cases hbeyond : run.IsBeyond
          · exact Or.inl (CaseRun.le_toNat_shifted hbeyond hcontains)
          · exact Or.inr (Or.inr ⟨run, List.mem_of_find?_eq_some hrun, hbeyond, hcontains, rfl⟩)
      · rw [List.mem_singleton] at h
        subst h
        exact Or.inl (Nat.le_of_not_lt hc)

end Form

end CaseMapping

section Forms

variable {c d : Char}

/-- The capitals of ASCII by their codes. -/
theorem isUpper_iff_toNat :
    c.isUpper = true ↔ 65 ≤ c.toNat ∧ c.toNat ≤ 90 := by
  have hupper : c.isUpper = true ↔ 'A'.val ≤ c.val ∧ c.val ≤ 'Z'.val := decide_eq_true_iff
  rw [hupper, UInt32.le_iff_toNat_le, UInt32.le_iff_toNat_le, Char.toNat_val]
  rfl

/-- The small letters of ASCII by their codes. -/
theorem isLower_iff_toNat :
    c.isLower = true ↔ 97 ≤ c.toNat ∧ c.toNat ≤ 122 := by
  have hlower : c.isLower = true ↔ 'a'.val ≤ c.val ∧ c.val ≤ 'z'.val :=
    (Bool.and_eq_true_iff ..).trans (and_congr decide_eq_true_iff decide_eq_true_iff)
  rw [hlower, UInt32.le_iff_toNat_le, UInt32.le_iff_toNat_le, Char.toNat_val]
  rfl

theorem toLower_of_not_isUpper
    (h : ¬ c.isUpper) :
    c.toLower = c :=
  dif_neg fun hletter => h (decide_eq_true hletter)

theorem toUpper_of_not_isLower
    (h : ¬ c.isLower) :
    c.toUpper = c :=
  dif_neg fun hletter =>
    h (Bool.and_eq_true_iff.2 ⟨decide_eq_true hletter.1, decide_eq_true hletter.2⟩)

/-- Outside ASCII there is no other case as far as ASCII goes. -/
theorem toLower_of_not_ascii
    (h : 0x80 ≤ c.toNat) :
    c.toLower = c := by
  refine toLower_of_not_isUpper fun hupper => ?_
  obtain ⟨-, hlast⟩ := isUpper_iff_toNat.1 hupper
  omega

theorem toUpper_of_not_ascii
    (h : 0x80 ≤ c.toNat) :
    c.toUpper = c := by
  refine toUpper_of_not_isLower fun hlower => ?_
  obtain ⟨-, hlast⟩ := isLower_iff_toNat.1 hlower
  omega

/-- A run of one character has no other. -/
theorem CaseRun.toNat_eq
    {run : CaseRun}
    (hsingle : run.last = run.first)
    (hc : run.contains c = true) :
    c.toNat = run.first := by
  simp only [CaseRun.contains, Bool.and_eq_true, decide_eq_true_eq] at hc
  omega

/-- The only run of characters whose small forms are ASCII is the Kelvin sign. -/
theorem kelvin_of_mem_smallRuns :
    ∀ run ∈ smallRuns, ¬ run.IsBeyond → run = ⟨0x212A, 0x212A, 1, -8383⟩ := by
  decide +kernel

/-- The only runs of characters with ASCII capital forms are the dotless `ı` and the long `ſ`. -/
theorem dotless_or_long_of_mem_capitalRuns :
    ∀ run ∈ capitalRuns,
      ¬ run.IsBeyond → run = ⟨0x131, 0x131, 1, -232⟩ ∨ run = ⟨0x17F, 0x17F, 1, -300⟩ := by
  decide +kernel

/-- An ASCII character other than `k` is the small form of itself and of its capital. -/
theorem smalls_form_eq_iff
    (hd : d.toNat < 0x80)
    (hk : d ≠ 'k') :
    smalls.form c = [d] ↔ c.toLower = d := by
  constructor
  · intro hform
    have hmem : d ∈ smalls.form c := by simp [hform]
    rcases CaseMapping.mem_form_cases hmem with ⟨-, heq⟩ | hbeyond | ⟨entry, hentry, hlong⟩ |
      ⟨run, hrun, hnot, hcontains, heq⟩
    · exact heq.symm
    · exact absurd hd (Nat.not_lt.2 hbeyond)
    · cases List.mem_singleton.1 hentry
      simp [hform] at hlong
    · cases kelvin_of_mem_smallRuns run hrun hnot
      rw [CaseRun.shifted, CaseRun.toNat_eq rfl hcontains] at heq
      exact absurd heq hk
  · rintro rfl
    by_cases hc : c.toNat < 0x80
    · exact smalls.form_of_ascii c hc
    · rw [toLower_of_not_ascii (Nat.le_of_not_lt hc)] at hd
      exact absurd hd hc

/--
A character has an ASCII letter for its capital form: a letter of either case its own, the
dotless `ı` an `I` and the long `ſ` an `S`.
-/
def HasCapital (c d : Char) : Prop :=
  c.toUpper = d ∨ c = 'ı' ∧ d = 'I' ∨ c = 'ſ' ∧ d = 'S'

/-- The strings of ASCII letters that are the capital form of one character. -/
def asciiLongCapitals : List (List Char) :=
  [['S', 'S'], ['F', 'F'], ['F', 'I'], ['F', 'L'], ['F', 'F', 'I'], ['F', 'F', 'L'], ['S', 'T']]

theorem mem_asciiLongCapitals :
    ∀ entry ∈ longCapitals,
      (∀ code ∈ entry.2, (Char.ofNat code).toNat < 0x80) →
        entry.2.map Char.ofNat ∈ asciiLongCapitals := by
  decide +kernel

theorem capitals_form_eq_iff
    (hd : d.toNat < 0x80) :
    capitals.form c = [d] ↔ HasCapital c d := by
  constructor
  · intro hform
    have hmem : d ∈ capitals.form c := by simp [hform]
    rcases CaseMapping.mem_form_cases hmem with ⟨-, heq⟩ | hbeyond | ⟨entry, hentry, hlong⟩ |
      ⟨run, hrun, hnot, hcontains, heq⟩
    · exact Or.inl heq.symm
    · exact absurd hd (Nat.not_lt.2 hbeyond)
    · have hlength : ∀ entry ∈ longCapitals, entry.2.length ≠ 1 := by decide
      refine absurd ?_ (hlength entry hentry)
      rw [← List.length_map Char.ofNat, ← hlong, hform, List.length_singleton]
    · right
      rcases dotless_or_long_of_mem_capitalRuns run hrun hnot with rfl | rfl
      · have hc := CaseRun.toNat_eq rfl hcontains
        rw [CaseRun.shifted, hc] at heq
        exact Or.inl ⟨Char.toNat_inj.1 hc, heq⟩
      · have hc := CaseRun.toNat_eq rfl hcontains
        rw [CaseRun.shifted, hc] at heq
        exact Or.inr ⟨Char.toNat_inj.1 hc, heq⟩
  · rintro (rfl | ⟨rfl, rfl⟩ | ⟨rfl, rfl⟩)
    · by_cases hc : c.toNat < 0x80
      · exact capitals.form_of_ascii c hc
      · rw [toUpper_of_not_ascii (Nat.le_of_not_lt hc)] at hd
        exact absurd hd hc
    · decide
    · decide

end Forms

section Words

variable {text word : String}

/-- The texts that are an ASCII word without `k` in small letters. -/
theorem lower_eq_iff
    (hascii : ∀ d ∈ word.toList, d.toNat < 0x80)
    (hk : 'k' ∉ word.toList) :
    lower text = word ↔ text.map Char.toLower = word := by
  have hlong : ∀ entry ∈ longSmalls, ¬ entry.2.map Char.ofNat <:+: word.toList := by
    intro entry hentry hstands
    -- The dot of the dotted `i` is not ASCII.
    cases List.mem_singleton.1 hentry
    have hdot := hascii '\u0307' (hstands.subset (by decide))
    exact absurd hdot (by decide)
  rw [← String.toList_inj, ← String.toList_inj, String.toList_map, lower, CaseMapping.apply,
    String.toList_ofList, CaseMapping.flatMap_form_eq_iff hlong fun c d hd =>
      smalls_form_eq_iff (hascii d hd) fun heq => hk (heq ▸ hd),
    ← List.forall₂_eq_eq_eq, List.forall₂_map_left_iff]

/-- The texts that are an ASCII word without longer capital forms in capitals. -/
theorem upper_eq_iff
    (hascii : ∀ d ∈ word.toList, d.toNat < 0x80)
    (hlong : ∀ form ∈ asciiLongCapitals, ¬ form <:+: word.toList) :
    upper text = word ↔ List.Forall₂ HasCapital text.toList word.toList := by
  have hstands : ∀ entry ∈ longCapitals, ¬ entry.2.map Char.ofNat <:+: word.toList := by
    intro entry hentry hstands
    refine hlong _ (mem_asciiLongCapitals entry hentry fun code hcode => ?_) hstands
    exact hascii _ (hstands.subset (List.mem_map_of_mem hcode))
  rw [← String.toList_inj, upper, CaseMapping.apply, String.toList_ofList]
  exact CaseMapping.flatMap_form_eq_iff hstands fun c d hd => capitals_form_eq_iff (hascii d hd)

end Words

end Text
end ChangeFeed
