import ChangeFeed.Json.Reader
import ChangeFeed.Proofs.Number.Spelling

/-!
# Number tokens are literals

A number in a JSON text is spelled as a decimal literal of a narrower grammar: without
a plus sign, with a digit before the point and, if there is a point, one after it,
without needless zeros at its start and without a suffix. The reader takes it for the
integer that is written if it has neither a point nor an exponent, and else for the
double nearest to the literal.

**Results.**

* `isToken_spell`: which decimal literals are tokens.
* `IsToken.magnitude_eq`: what a token stands for, its digits taken together.
* `readsAs_integral`, `readsAs_fractional`: what a token is read as.
-/

namespace ChangeFeed
namespace Json

open Number (ExponentSpelling Literal Spelling isDigit ofDigits signedInt)

/-- Whether a literal is a number of JSON. -/
structure IsToken (s : Spelling) : Prop where
  form : s.form = .decimal
  sign : s.sign ≠ .plus
  whole : s.whole ≠ []
  leading : s.whole = ['0'] ∨ s.whole.head? ≠ some '0'
  fraction : s.fraction ≠ some []
  suffix : s.suffix = []

/-- Whether a literal has neither a point nor an exponent. -/
def IsIntegral (s : Spelling) : Prop :=
  s.fraction = none ∧ s.exponent = none

/-- What follows a number text does not go on with it. -/
def EndsNumber (rest : List Char) : Prop :=
  ∀ c, rest.head? = some c → isDigit c = false ∧ c ≠ '.' ∧ c ≠ 'e' ∧ c ≠ 'E'

/-- A text is read as a value wherever one may stand, if what follows does not go on with it. -/
def ReadsAs
    (cs : List Char)
    (v : Json) : Prop :=
  ∀ fuel depth rest,
    EndsNumber rest →
    Reader.value (fuel + 1) depth (cs ++ rest) = .ok (v, rest)

section Parts

variable {s : Spelling}

/-- The decimal literal of a sign, digits, places after a point and an exponent. -/
def spell
    (negative : Bool)
    (whole : List Char)
    (fraction : Option (List Char))
    (exponent : Option (ExponentSpelling .decimal))
    (hwhole : whole ≠ [])
    (hdigits : ∀ c ∈ whole ++ fraction.getD [], isDigit c = true) : Spelling where
  form := .decimal
  sign := if negative then .minus else .absent
  opening := []
  whole := whole
  fraction := fraction
  exponent := exponent
  suffix := []
  opening_mem := Number.LiteralForm.nil_mem_openings
  all_isDigit := List.all_eq_true.2 hdigits
  digits_ne_nil := by simp [hwhole]
  exponent_isSome := by simp
  suffix_mem := Number.nil_mem_suffixes

/-- It is a number of JSON if no zero leads its digits and no point ends it. -/
theorem isToken_spell
    (negative : Bool)
    {whole : List Char}
    {fraction : Option (List Char)}
    (exponent : Option (ExponentSpelling .decimal))
    (hwhole : whole ≠ [])
    (hdigits : ∀ c ∈ whole ++ fraction.getD [], isDigit c = true)
    (hleading : whole = ['0'] ∨ whole.head? ≠ some '0')
    (hfraction : fraction ≠ some []) :
    IsToken (spell negative whole fraction exponent hwhole hdigits) where
  form := rfl
  sign := by cases negative <;> simp [spell]
  whole := hwhole
  leading := hleading
  fraction := hfraction
  suffix := rfl

theorem bodyChars_spell
    (negative : Bool)
    {whole : List Char}
    {fraction : Option (List Char)}
    {exponent : Option (ExponentSpelling .decimal)}
    (hwhole : whole ≠ [])
    (hdigits : ∀ c ∈ whole ++ fraction.getD [], isDigit c = true) :
    (spell negative whole fraction exponent hwhole hdigits).bodyChars =
      whole ++
        ((fraction.map (List.cons '.')).getD [] ++
          (exponent.map ExponentSpelling.chars).getD []) := by
  cases fraction <;> cases exponent <;>
    simp [spell, Spelling.bodyChars, Spelling.pointChars, Spelling.tailChars]

/-- The parts of a token after its sign. -/
theorem IsToken.bodyChars
    (h : IsToken s) :
    s.bodyChars = s.whole ++ (s.pointChars ++ s.tailChars) := by
  rw [Spelling.bodyChars, Spelling.opening_of_decimal h.form, List.nil_append]

theorem IsToken.isDigit_of_mem
    (h : IsToken s) :
    ∀ c ∈ s.whole ++ s.places, isDigit c = true := by
  intro c hc
  have hdigit := s.isDigit_of_mem c hc
  rwa [h.form] at hdigit

theorem IsToken.isDigit_of_mem_whole
    (h : IsToken s) :
    ∀ c ∈ s.whole, isDigit c = true :=
  fun c hc => h.isDigit_of_mem c (List.mem_append_left _ hc)

theorem IsToken.isDigit_of_mem_fraction
    (h : IsToken s)
    {digits : List Char}
    (hfraction : s.fraction = some digits) :
    ∀ c ∈ digits, isDigit c = true := by
  intro c hc
  refine h.isDigit_of_mem c (List.mem_append_right _ ?_)
  rwa [Spelling.places, hfraction]

/-- The literal of a token. -/
theorem IsToken.literal
    (h : IsToken s) :
    s.literal =
      { form := .decimal
        negative := s.sign.negative
        coefficient := ofDigits 10 (s.whole ++ s.places)
        exponent := s.power - s.places.length
        exponentDigits := s.exponentDigits } := by
  simp [Spelling.literal, h.form, Number.LiteralForm.base, Number.LiteralForm.width]

/-- A token stands for all its digits, moved by its exponent and the places after its point. -/
theorem IsToken.magnitude_eq
    (h : IsToken s) :
    s.magnitude = ofDigits 10 (s.whole ++ s.places) * 10 ^ (s.power - s.places.length) := by
  rw [← Spelling.magnitude_literal, h.literal]
  simp [Literal.magnitude, Number.LiteralForm.radix]

/-- After its sign, if it has one, a token starts with a digit. -/
theorem IsToken.exists_digit
    (h : IsToken s) :
    ∃ c cs, s.bodyChars = c :: cs ∧ isDigit c = true := by
  obtain ⟨c, cs, hwhole⟩ := List.exists_cons_of_ne_nil h.whole
  refine ⟨c, cs ++ (s.pointChars ++ s.tailChars), ?_, ?_⟩
  · rw [h.bodyChars, hwhole, List.cons_append]
  · exact h.isDigit_of_mem_whole c (by rw [hwhole]; exact List.mem_cons_self ..)

end Parts

namespace Reader

theorem ne_digit
    {c letter : Char}
    (hc : isDigit c = true)
    (hletter : isDigit letter = false) :
    letter ≠ c := by
  rintro rfl
  rw [hc] at hletter
  contradiction

/-- No word starts with a digit. -/
theorem scalar_digit
    {c : Char}
    (hc : isDigit c = true)
    (cs : List Char) :
    scalar (c :: cs) = number false (c :: cs) := by
  have hwords : words.find? (fun word => word.1.isPrefixOf (c :: cs)) = none := by
    have hn : 'n' ≠ c := ne_digit hc rfl
    have ht : 't' ≠ c := ne_digit hc rfl
    have hf : 'f' ≠ c := ne_digit hc rfl
    have hN : 'N' ≠ c := ne_digit hc rfl
    have hI : 'I' ≠ c := ne_digit hc rfl
    have hminus : '-' ≠ c := ne_digit hc rfl
    simp [words, hn, ht, hf, hN, hI, hminus]
  simp only [scalar, hwords]
  split
  · next heq =>
      cases heq
      contradiction
  · rfl

/-- Of words only one starts with a minus sign, and no digit follows it. -/
theorem scalar_minus_digit
    {c : Char}
    (hc : isDigit c = true)
    (cs : List Char) :
    scalar ('-' :: c :: cs) = number true (c :: cs) := by
  have hI : 'I' ≠ c := ne_digit hc rfl
  have hwords : words.find? (fun word => word.1.isPrefixOf ('-' :: c :: cs)) = none := by
    simp [words, hI]
  simp only [scalar, hwords]

theorem value_digit
    {c : Char}
    (fuel depth : Nat)
    (hc : isDigit c = true)
    (cs : List Char) :
    value (fuel + 1) depth (c :: cs) = scalar (c :: cs) := by
  rw [value.eq_def]
  simp only
  split
  · next heq =>
      cases heq
      contradiction
  · next heq =>
      cases heq
      contradiction
  · next heq =>
      cases heq
      contradiction
  · rfl

end Reader

section Reading

variable {s : Spelling}
variable {rest : List Char}

/-- The digits before the point are read up to what is no digit. -/
theorem Reader.wholeDigits_append
    {whole : List Char}
    (hdigits : ∀ c ∈ whole, isDigit c = true)
    (hne : whole ≠ [])
    (hleading : whole = ['0'] ∨ whole.head? ≠ some '0')
    (hrest : ∀ c, rest.head? = some c → isDigit c = false) :
    Reader.wholeDigits (whole ++ rest) = whole := by
  rcases hleading with hzero | hhead
  · rw [hzero]
    rfl
  · unfold Reader.wholeDigits
    split
    · next tail heq =>
        exfalso
        cases whole with
        | nil => exact hne rfl
        | cons d ds =>
            cases heq
            exact hhead rfl
    · exact Number.takeWhile_digits hdigits hrest

/-- After the digits around the point neither a digit nor a point follows. -/
theorem IsToken.head?_tailChars
    (h : IsToken s)
    (hrest : EndsNumber rest)
    (c : Char)
    (hc : (s.tailChars ++ rest).head? = some c) :
    isDigit c = false ∧ c ≠ '.' := by
  cases htail : s.tailChars with
  | nil =>
      rw [htail] at hc
      exact ⟨(hrest c hc).1, (hrest c hc).2.1⟩
  | cons d ds =>
      rw [htail] at hc
      have hspec := Spelling.head?_tailChars (s := s) c (by rw [htail]; exact hc)
      rwa [h.form] at hspec

theorem IsToken.wholeDigits
    (h : IsToken s)
    (hrest : EndsNumber rest) :
    Reader.wholeDigits (s.whole ++ (s.pointChars ++ (s.tailChars ++ rest))) = s.whole := by
  refine Reader.wholeDigits_append h.isDigit_of_mem_whole h.whole h.leading fun c hc => ?_
  unfold Spelling.pointChars at hc
  split at hc
  · exact (h.head?_tailChars hrest c hc).1
  · cases hc
    rfl

theorem IsToken.fractionDigits
    (h : IsToken s)
    (hrest : EndsNumber rest) :
    Reader.fractionDigits (s.pointChars ++ (s.tailChars ++ rest)) =
      (s.places, s.tailChars ++ rest) := by
  have hend := h.head?_tailChars hrest
  cases hfraction : s.fraction with
  | none =>
      simp only [Spelling.pointChars, Spelling.places, hfraction, List.nil_append]
      unfold Reader.fractionDigits
      split
      · next tail heq => exact absurd rfl (hend '.' (by rw [heq]; rfl)).2
      · rfl
  | some digits =>
      have hne : digits ≠ [] := fun hnil => h.fraction (hfraction.trans (by rw [hnil]))
      have hdigits := h.isDigit_of_mem_fraction hfraction
      simp only [Spelling.pointChars, Spelling.places, hfraction, List.cons_append,
        Reader.fractionDigits, Number.takeWhile_digits hdigits fun c hc => (hend c hc).1,
        Number.dropWhile_digits hdigits fun c hc => (hend c hc).1]
      simp [hne]

theorem IsToken.exponentRun?
    (h : IsToken s)
    (hrest : EndsNumber rest) :
    Reader.exponentRun? (s.tailChars ++ rest) =
      s.exponent.map fun e => ⟨e.power, e.digits.length, rest⟩ := by
  cases hexponent : s.exponent with
  | none =>
      simp only [Spelling.tailChars, hexponent, h.suffix, List.nil_append, Option.map_none]
      unfold Reader.exponentRun?
      split
      · exact absurd rfl (hrest 'e' rfl).2.2.1
      · exact absurd rfl (hrest 'E' rfl).2.2.2
      · rfl
  | some e =>
      have hrun := Spelling.signedRun?_chars e fun c hc => (hrest c hc).1
      have hletter := e.letter_mem
      simp only [h.form, Number.LiteralForm.exponentLetters, List.mem_cons, List.not_mem_nil,
        or_false] at hletter
      simp only [Spelling.tailChars, hexponent, h.suffix, ExponentSpelling.chars,
        List.append_nil, List.cons_append, List.append_assoc, Option.map_some]
      rcases hletter with hletter | hletter <;> rw [hletter] <;> exact hrun

/-- The reader goes through the parts of a token. -/
theorem IsToken.number
    (h : IsToken s)
    (hrest : EndsNumber rest) :
    Reader.wholeDigits (s.bodyChars ++ rest) = s.whole ∧
      Reader.fractionDigits ((s.bodyChars ++ rest).drop s.whole.length) =
        (s.places, s.tailChars ++ rest) := by
  have hbody : s.bodyChars ++ rest = s.whole ++ (s.pointChars ++ (s.tailChars ++ rest)) := by
    rw [h.bodyChars, List.append_assoc, List.append_assoc]
  rw [hbody, List.drop_left]
  exact ⟨h.wholeDigits hrest, h.fractionDigits hrest⟩

/-- A token without point and exponent is an integer, if it is not too long. -/
theorem IsToken.number_integral
    (h : IsToken s)
    (hintegral : IsIntegral s)
    (hlength : s.whole.length ≤ Number.Integer.digitLimit)
    (hrest : EndsNumber rest) :
    Reader.number s.sign.negative (s.bodyChars ++ rest) =
      .ok (.integer (signedInt s.sign.negative (ofDigits 10 s.whole)), rest) := by
  obtain ⟨hfraction, hexponent⟩ := hintegral
  obtain ⟨hwhole, hdigits⟩ := h.number hrest
  have hplaces : s.places = [] := by
    rw [Spelling.places, hfraction]
    rfl
  have htail : s.tailChars = [] := by
    simp [Spelling.tailChars, hexponent, h.suffix]
  have hrun := h.exponentRun? hrest
  rw [htail, List.nil_append, hexponent, Option.map_none] at hrun
  simp only [Reader.number, hwhole, hdigits, hplaces, htail, List.nil_append, hrun]
  simp [h.whole, Nat.not_lt.2 hlength]

/-- Every other token is the double nearest to its literal. -/
theorem IsToken.number_fractional
    (h : IsToken s)
    (hfractional : ¬ IsIntegral s)
    (hrest : EndsNumber rest) :
    Reader.number s.sign.negative (s.bodyChars ++ rest) =
      .ok (.number (s.literal.nearest .binary64), rest) := by
  obtain ⟨hwhole, hdigits⟩ := h.number hrest
  simp only [Reader.number, hwhole, hdigits, h.exponentRun? hrest, h.literal]
  cases hexponent : s.exponent with
  | none =>
      have hplaces : s.places ≠ [] := by
        intro hnil
        cases hfraction : s.fraction with
        | none => exact hfractional ⟨hfraction, hexponent⟩
        | some digits =>
            rw [Spelling.places, hfraction] at hnil
            exact h.fraction (hfraction.trans (congrArg some hnil))
      simp [h.whole, hplaces, hexponent, Spelling.tailChars, h.suffix, Spelling.power,
        Spelling.exponentDigits]
  | some e =>
      simp [h.whole, hexponent, Spelling.power, Spelling.exponentDigits]

/-- After its sign a token starts with a digit, and so it is read as a number. -/
theorem IsToken.value
    (h : IsToken s)
    (fuel depth : Nat)
    (rest : List Char) :
    Reader.value (fuel + 1) depth (s.chars ++ rest) =
      Reader.number s.sign.negative (s.bodyChars ++ rest) := by
  obtain ⟨c, cs, hbody, hdigit⟩ := h.exists_digit
  rw [Spelling.chars, hbody]
  cases hsign : s.sign with
  | absent =>
      exact (Reader.value_digit fuel depth hdigit _).trans (Reader.scalar_digit hdigit _)
  | plus => exact absurd hsign h.sign
  | minus => exact Reader.scalar_minus_digit hdigit _

theorem readsAs_integral
    (h : IsToken s)
    (hintegral : IsIntegral s)
    (hlength : s.whole.length ≤ Number.Integer.digitLimit) :
    ReadsAs s.chars (.integer (signedInt s.sign.negative (ofDigits 10 s.whole))) :=
  fun fuel depth rest hrest =>
    (h.value fuel depth rest).trans (h.number_integral hintegral hlength hrest)

theorem readsAs_fractional
    (h : IsToken s)
    (hfractional : ¬ IsIntegral s) :
    ReadsAs s.chars (.number (s.literal.nearest .binary64)) :=
  fun fuel depth rest hrest =>
    (h.value fuel depth rest).trans (h.number_fractional hfractional hrest)

end Reading

end Json
end ChangeFeed
