import ChangeFeed.Proofs.Number.Spelling

/-!
# What is read was spelled

The converse of reading what is spelled: each reader takes the parts of a literal off
the front of a text, and put together again they are the text. So a text that is read
as a literal is a spelling of it, and there are no other texts that are read.

**Results.**

* `exists_sign`, `exists_point`, `exists_exponent`: the parts that the readers take.
* `ofChars?_eq_some_iff`: the texts that are read, and as what.
-/

namespace ChangeFeed
namespace Number
namespace Spelling

section Parts

variable {text : List Char}

/-- What is taken off as a sign is one. -/
theorem exists_sign (text : List Char) :
    ∃ sign : Sign,
      text = sign.chars ++ (takeSign text).2 ∧ sign.negative = (takeSign text).1 := by
  unfold takeSign
  split
  · exact ⟨.plus, rfl, rfl⟩
  · exact ⟨.minus, rfl, rfl⟩
  · exact ⟨.absent, rfl, rfl⟩

theorem suffix_mem_of_endsLiteral
    (h : Literal.endsLiteral text = true) :
    text ∈ suffixes := by
  unfold Literal.endsLiteral at h
  split at h
  · exact nil_mem_suffixes
  · next c =>
      simp only [Bool.or_eq_true, decide_eq_true_eq] at h
      rcases h with ((rfl | rfl) | rfl) | rfl <;> decide
  · contradiction

/-- The digits around a point, and whether there is one. -/
theorem exists_point
    (isDigit : Char → Bool)
    (text : List Char) :
    ∃ fraction : Option (List Char),
      (Literal.mantissa isDigit text).fraction = fraction.getD [] ∧
        text =
          (Literal.mantissa isDigit text).whole ++
            ((match fraction with
              | none => []
              | some digits => '.' :: digits) ++
              (Literal.mantissa isDigit text).rest) ∧
        ((Literal.mantissa isDigit text).whole ++ fraction.getD []).all isDigit = true := by
  have hwhole : (text.takeWhile isDigit).all isDigit = true := List.all_takeWhile
  have hsplit := List.takeWhile_append_dropWhile (p := isDigit) (l := text)
  simp only [Literal.mantissa]
  split
  · next rest hpoint =>
      refine ⟨some (rest.takeWhile isDigit), rfl, ?_, ?_⟩
      · rw [hpoint] at hsplit
        simpa using hsplit.symm
      · rw [List.all_append, hwhole]
        exact List.all_takeWhile
  · next hnone =>
      refine ⟨none, rfl, ?_, ?_⟩
      · exact hsplit.symm
      · rw [List.all_append, hwhole]
        rfl

/-- A letter, what is read as its exponent and a suffix. -/
theorem exists_exponent
    {form : LiteralForm}
    {letter : Char}
    {run : SignedRun}
    (hletter : letter ∈ form.exponentLetters)
    (hrun : signedRun? text = some run)
    (hends : Literal.endsLiteral run.rest = true) :
    ∃ (e : ExponentSpelling form) (suffix : List Char),
      suffix ∈ suffixes ∧
        letter :: text = e.chars ++ suffix ∧
        e.power = run.value ∧
        e.digits.length = run.length := by
  obtain ⟨sign, htext, hnegative⟩ := exists_sign text
  unfold signedRun? at hrun
  simp only at hrun
  split at hrun
  · contradiction
  · next hne =>
      cases hrun
      refine
        ⟨{ letter := letter
           sign := sign
           digits := (takeSign text).2.takeWhile isDigit
           letter_mem := hletter
           digits_ne_nil := by simpa using hne
           all_isDigit := List.all_takeWhile },
          _, suffix_mem_of_endsLiteral hends, ?_, ?_, rfl⟩
      · rw [ExponentSpelling.chars, List.cons_append, List.append_assoc,
          List.takeWhile_append_dropWhile, ← htext]
      · rw [ExponentSpelling.power, hnegative]

end Parts

section Reading

variable {text : List Char}
variable {negative : Bool}
variable {l : Literal}

theorem digits_ne_nil_of_isEmpty
    {whole fraction : List Char}
    (h : ¬ (whole.isEmpty && fraction.isEmpty) = true) :
    whole ++ fraction ≠ [] := by
  rw [Bool.and_eq_true, List.isEmpty_iff, List.isEmpty_iff] at h
  rwa [ne_eq, List.append_eq_nil_iff]

/-- Digits around a point and an exponent are spelled after any opening of their form. -/
theorem exists_of_exponent
    {form : LiteralForm}
    {opening after : List Char}
    {letter : Char}
    (sign : Sign)
    (hopening : opening ∈ form.openings)
    (hne :
      ¬ ((Literal.mantissa form.isDigit text).whole.isEmpty &&
        (Literal.mantissa form.isDigit text).fraction.isEmpty) = true)
    (hrest : (Literal.mantissa form.isDigit text).rest = letter :: after)
    (hletter : letter ∈ form.exponentLetters)
    (hread :
      ((signedRun? after).bind fun run =>
        if Literal.endsLiteral run.rest = true then
          some
            { form := form
              negative := sign.negative
              coefficient :=
                ofDigits form.base
                  ((Literal.mantissa form.isDigit text).whole ++
                    (Literal.mantissa form.isDigit text).fraction)
              exponent :=
                run.value - form.width * (Literal.mantissa form.isDigit text).fraction.length
              exponentDigits := run.length }
        else
          none) = some l) :
    ∃ s : Spelling, s.sign = sign ∧ s.bodyChars = opening ++ text ∧ s.literal = l := by
  obtain ⟨run, hrun, hread⟩ := Option.bind_eq_some_iff.1 hread
  split at hread
  · next hends =>
      cases hread
      obtain ⟨fraction, hfraction, htext, hdigits⟩ := exists_point form.isDigit text
      obtain ⟨e, suffix, hsuffix, hafter, hpower, hlength⟩ := exists_exponent hletter hrun hends
      refine
        ⟨{ form := form
           sign := sign
           opening := opening
           whole := (Literal.mantissa form.isDigit text).whole
           fraction := fraction
           exponent := some e
           suffix := suffix
           opening_mem := hopening
           all_isDigit := hdigits
           digits_ne_nil := hfraction ▸ digits_ne_nil_of_isEmpty hne
           exponent_isSome := fun _ => rfl
           suffix_mem := hsuffix },
          rfl, ?_, ?_⟩
      · rw [hrest, hafter] at htext
        exact congrArg (opening ++ ·) htext.symm
      · simp [literal, power, places, exponentDigits, hpower, hlength, hfraction]
  · contradiction

/-- What is read in the decimal form is spelled in it. -/
theorem exists_of_ofDecimal?
    {sign : Sign}
    (h : Literal.ofDecimal? sign.negative text = some l) :
    ∃ s : Spelling, s.sign = sign ∧ s.bodyChars = text ∧ s.literal = l := by
  simp only [Literal.ofDecimal?] at h
  split at h
  · contradiction
  · next hne =>
      have hexponent {letter : Char} {after : List Char} :=
        @exists_of_exponent text l .decimal [] after letter sign LiteralForm.nil_mem_openings hne
      -- In this form each place after the point counts as one power.
      simp only [LiteralForm.width, Nat.cast_one, one_mul, List.nil_append] at hexponent
      split at h
      · next after hrest => exact hexponent hrest (by decide) h
      · next after hrest => exact hexponent hrest (by decide) h
      · split at h
        · next hends =>
            cases h
            obtain ⟨fraction, hfraction, htext, hdigits⟩ := exists_point isDigit text
            refine
              ⟨{ form := .decimal
                 sign := sign
                 opening := []
                 whole := (Literal.mantissa isDigit text).whole
                 fraction := fraction
                 exponent := none
                 suffix := (Literal.mantissa isDigit text).rest
                 opening_mem := LiteralForm.nil_mem_openings
                 all_isDigit := hdigits
                 digits_ne_nil := hfraction ▸ digits_ne_nil_of_isEmpty hne
                 exponent_isSome := by simp
                 suffix_mem := suffix_mem_of_endsLiteral hends },
                rfl, htext.symm, ?_⟩
            simp [literal, power, places, exponentDigits, hfraction, LiteralForm.base,
              LiteralForm.width]
        · contradiction

/-- What is read in the hexadecimal form is spelled in it after its mark. -/
theorem exists_of_ofHexadecimal?
    {sign : Sign}
    {opening : List Char}
    (hopening : opening ∈ LiteralForm.hexadecimal.openings)
    (h : Literal.ofHexadecimal? sign.negative text = some l) :
    ∃ s : Spelling, s.sign = sign ∧ s.bodyChars = opening ++ text ∧ s.literal = l := by
  simp only [Literal.ofHexadecimal?] at h
  split at h
  · contradiction
  · next hne =>
      split at h
      · next after hrest => exact exists_of_exponent sign hopening hne hrest (by decide) h
      · next after hrest => exact exists_of_exponent sign hopening hne hrest (by decide) h
      · contradiction

/-- The texts that are read are the spellings, each as the literal of its parts. -/
theorem ofChars?_eq_some_iff :
    Literal.ofChars? text = some l ↔ ∃ s : Spelling, s.chars = text ∧ s.literal = l := by
  constructor
  · intro h
    obtain ⟨sign, htext, hnegative⟩ := exists_sign text
    have hread :
        ∃ s : Spelling, s.sign = sign ∧ s.bodyChars = (takeSign text).2 ∧ s.literal = l := by
      simp only [Literal.ofChars?, ← hnegative] at h
      split at h
      · next rest hbody =>
          rw [hbody]
          exact exists_of_ofHexadecimal? LiteralForm.lower_mem_openings h
      · next rest hbody =>
          rw [hbody]
          exact exists_of_ofHexadecimal? LiteralForm.upper_mem_openings h
      · exact exists_of_ofDecimal? h
    obtain ⟨s, hsign, hbody, hliteral⟩ := hread
    refine ⟨s, ?_, hliteral⟩
    rw [chars, hsign, hbody, ← htext]
  · rintro ⟨s, rfl, rfl⟩
    exact s.ofChars?_chars

end Reading

end Spelling
end Number
end ChangeFeed
