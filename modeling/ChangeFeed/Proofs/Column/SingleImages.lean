import ChangeFeed.Proofs.Column.Middle
import ChangeFeed.Proofs.Column.NumberImages

/-!
# Singles written as numbers are rounded more than once

Of an image written as a number, the text of the double that it is loaded as is
captured. For singles this text takes the place of what was written, and where the
double is in the middle between two singles, the two need not be on the same side of
it. Beyond the doubles there is no such text at all, while the characters themselves
are an infinite single. And of the integer `-0` the sign is lost, which a single shows.
Everywhere else an image is coerced to the same single as the same characters between
quotes.

**Results.**

* `singleFrom?_eq_iff`: when two literals of one double are taken for the same single.
* `coerce_numberImages_single_iff`: the number tokens that are the same as texts.
-/

namespace ChangeFeed
namespace Coercion

open Number (Double Single Floating Literal Spelling signed signedInt ofDigits)
open Number.Format (binary32 binary64)

/--
Whether a literal and the text of its nearest double are taken for the same of two
singles, where that double is in the middle of them.
-/
def KeepsSide (s : Spelling) : Prop :=
  ∀ {x : Double} {v : Rat} {d : Spelling} {m m' : Nat} {q q' : Int},
    x.IsNearest s.sign.negative s.value →
    x.toRat? = some v →
    d.chars = x.text.toList →
    binary32.Adjacent m q m' q' →
    2 * |v| = m * 2 ^ q + m' * 2 ^ q' →
    (RoundsUp |v| |d.value| m' ↔ RoundsUp |v| |s.value| m')

/-- Whether nothing of a number token is lost for a single when it is loaded as a number. -/
def SurvivesLoading (s : Spelling) : Prop :=
  (Json.IsIntegral s → ¬ (s.sign.negative = true ∧ s.value = 0)) ∧
    (¬ Json.IsIntegral s → |s.value| < binary64.overflow ∧ KeepsSide s)

section Singles

variable {s d : Spelling}
variable {m m' n : Nat}
variable {q q' e : Int}

theorem single?_token (s : Spelling) :
    single? (String.ofList s.chars) = singleFrom? s.literal (s.literal.nearest .binary64) :=
  single?_eq (by rw [String.toList_ofList, s.stripChars_chars])

/-- The exact value of a decimal literal is known. -/
theorem exactValue?_of_decimal
    (h : s.form = .decimal) :
    exactValue? s.literal = some s.value := by
  rw [← Spelling.value_literal]
  refine if_neg fun hboth => ?_
  have hform : s.form = .hexadecimal := hboth.1
  rw [h] at hform
  contradiction

/-- Literals with the same characters are the same. -/
theorem literal_of_chars
    (h : s.chars = d.chars) :
    s.literal = d.literal := by
  have hread := s.ofChars?_chars
  rw [h, d.ofChars?_chars] at hread
  exact (Option.some.inj hread).symm

/-- Two decimal literals are taken for one single in the middle just if they are on one side. -/
theorem singleFrom?_eq_iff
    {hn : binary64.Canonical n e}
    (hs : s.form = .decimal)
    (hd : d.form = .decimal)
    (hsign : d.sign.negative = s.sign.negative)
    (hadjacent : binary32.Adjacent m q m' q')
    (hmiddle : 2 * ((n : Rat) * 2 ^ e) = m * 2 ^ q + m' * 2 ^ q') :
    singleFrom? d.literal (.finite s.sign.negative n e hn) =
        singleFrom? s.literal (.finite s.sign.negative n e hn) ↔
      (RoundsUp (n * 2 ^ e) |d.value| m' ↔ RoundsUp (n * 2 ^ e) |s.value| m') := by
  have hmagnitude (l : Spelling) (hl : l.sign.negative = s.sign.negative) :
      signed s.sign.negative l.value = |l.value| := by
    rw [← Spelling.value_literal, Literal.abs_value, Literal.value, Spelling.magnitude_literal,
      ← hl]
    exact Number.signed_signed _ _
  have hne :
      (.finite s.sign.negative m' q' hadjacent.right : Single) ≠
        .finite s.sign.negative m q hadjacent.left := by
    intro hsame
    cases hsame
    exact lt_irrefl _ hadjacent.lt
  rw [singleFrom?_of_middle hadjacent hmiddle, singleFrom?_of_middle hadjacent hmiddle,
    exactValue?_of_decimal hs, exactValue?_of_decimal hd, Option.map_some, Option.map_some,
    hmagnitude d hsign, hmagnitude s rfl, Option.some_inj]
  split_ifs with hup hup' hup' <;> simp [hup, hup', hne, hne.symm]

/-- An integral token is taken for the same single as its integer, unless it is a negative zero. -/
theorem single?_integral_iff
    (h : Json.IsToken s)
    (hintegral : Json.IsIntegral s)
    (hlength : s.whole.length ≤ Number.Integer.digitLimit) :
    single?
          (String.ofList
            (Json.Writer.integer (signedInt s.sign.negative (ofDigits 10 s.whole)))) =
        single? (String.ofList s.chars) ↔
      ¬ (s.sign.negative = true ∧ s.value = 0) := by
  obtain ⟨d, htoken, hwhole, hchars, -, hvalue, hsign⟩ := exists_token_loaded h hlength
  have htaken {l : Spelling} (hl : Json.IsToken l) :
      single? (String.ofList l.chars) = some (singleOf l.sign.negative l.magnitude) := by
    have hexact := exactValue?_of_decimal hl.form
    rw [← Spelling.value_literal] at hexact
    rw [single?_token, singleFrom?_of_exact hexact, Spelling.magnitude_literal]
    rfl
  rw [← hchars, htaken htoken, htaken h, magnitude_integral h hintegral,
    magnitude_integral htoken hwhole, hvalue, hsign, Option.some_inj, Spelling.value,
    magnitude_integral h hintegral]
  by_cases hzero : ofDigits 10 s.whole = 0
  · have hne : singleOf false 0 ≠ singleOf true 0 := by decide +kernel
    rw [hzero]
    cases s.sign.negative <;> simp [signed, hne]
  · have hsome : (ofDigits 10 s.whole != 0) = true := bne_iff_ne.2 hzero
    cases s.sign.negative <;> simp [signed, hzero, hsome]

/-- So is the text of its double, where that is finite and the two are on the same side. -/
theorem single?_fractional_iff
    (h : Json.IsToken s) :
    single? (s.literal.nearest .binary64).text = single? (String.ofList s.chars) ↔
      |s.value| < binary64.overflow ∧ KeepsSide s := by
  have hnearest := (isNearest_value_iff s _).2 rfl
  rw [single?_token]
  cases hx : s.literal.nearest .binary64 with
  | nan =>
      rw [hx] at hnearest
      exact hnearest.elim
  | infinite negative =>
      -- The text is a word that is none for singles.
      rw [hx] at hnearest
      have hnone : single? (Floating.infinite negative : Double).text = none := by
        cases negative <;> decide
      rw [hnone, singleFrom?_of_infinite rfl]
      exact iff_of_false (by simp) fun hkeeps => absurd hnearest.2 (not_le.2 hkeeps.1)
  | finite negative n e hn =>
      rw [hx] at hnearest
      obtain ⟨rfl, hless, -⟩ := id hnearest
      obtain ⟨d, htoken, -, hchars, hd⟩ :=
        Json.exists_token_text (x := .finite s.sign.negative n e hn) rfl
      have htext :
          (.finite s.sign.negative n e hn : Double).text = String.ofList d.chars := by
        rw [hchars, String.ofList_toList]
      have hsign : d.sign.negative = s.sign.negative :=
        ((isNearest_value_iff d _).2 hd.symm).1.symm
      have habs : |signed s.sign.negative ((n : Rat) * 2 ^ e)| = n * 2 ^ e := by
        rw [Number.abs_signed, abs_of_nonneg (Number.Format.value_nonneg n e)]
      rw [htext, single?_token, hd, and_iff_right hless]
      constructor
      · intro hsame x v d' m m' q q' hx' hv hchars' hadjacent hmiddle
        obtain rfl := ((isNearest_value_iff s x).1 hx').trans hx
        cases hv
        rw [habs] at hmiddle ⊢
        have hvalue : d'.value = d.value := by
          rw [← Spelling.value_literal, ← Spelling.value_literal,
            literal_of_chars (hchars'.trans hchars.symm)]
        rw [hvalue]
        exact (singleFrom?_eq_iff h.form htoken.form hsign hadjacent hmiddle).1 hsame
      · intro hkeeps
        by_cases hmiddle : IsMiddle (.finite s.sign.negative n e hn)
        · obtain ⟨m, q, m', q', hadjacent, hsum⟩ := isMiddle_finite_iff.1 hmiddle
          have hside := hkeeps hnearest rfl hchars hadjacent (by rw [habs]; exact hsum)
          rw [habs] at hside
          exact (singleFrom?_eq_iff h.form htoken.form hsign hadjacent hsum).2 hside
        · rw [singleFrom?_of_not_isMiddle hmiddle, singleFrom?_of_not_isMiddle hmiddle]

end Singles

/--
An image written as a number is coerced to the same single as the same characters
between quotes, or refused as they are, just if nothing of it is lost when it is loaded.
-/
theorem coerce_numberImages_single_iff
    {token : List Char}
    (htoken : Json.Grammar.IsNumber token)
    (hdigits : token.countP Number.isDigit ≤ 4300) :
    ∃ s v raw,
      Json.IsToken s ∧
        s.chars = token ∧
        TokenImages token v raw ∧
        ∀ (code : Int) (column : Json),
          TypeClass.ofCode code = .single →
          ((coerce false code column raw).toOption =
              (coerce false code column (String.ofList token)).toOption ↔
            SurvivesLoading s) := by
  obtain ⟨s, h, rfl⟩ := Json.exists_token htoken
  have hread (raw : String) :
      (read? .single raw = read? .single (String.ofList s.chars)) ↔
        single? raw = single? (String.ofList s.chars) :=
    (Option.map_injective fun x y hxy => by cases hxy; rfl).eq_iff
  simp only [toOption_coerce, SurvivesLoading]
  by_cases hintegral : Json.IsIntegral s
  · have hlength := length_whole_le h hdigits
    refine ⟨s, _, _, h, rfl, tokenImages_integral h hintegral hlength, fun code column hcode => ?_⟩
    rw [hcode, hread, single?_integral_iff h hintegral hlength]
    simp [hintegral]
  · refine ⟨s, _, _, h, rfl, tokenImages_fractional h hintegral, fun code column hcode => ?_⟩
    rw [hcode, hread, single?_fractional_iff h]
    simp [hintegral]

/-- The middle of one and the next single, which is a double. -/
def middle : Spelling where
  form := .decimal
  sign := .absent
  opening := []
  whole := ['1']
  fraction := some "000000059604644775390625".toList
  exponent := none
  suffix := []
  opening_mem := Number.LiteralForm.nil_mem_openings
  exponent_isSome := Number.isSome_of_decimal
  suffix_mem := Number.nil_mem_suffixes

theorem isToken_middle :
    Json.IsToken middle :=
  ⟨rfl, by decide, by decide, by decide, by decide, rfl⟩

/-- The shortest text of that double. -/
def middleText : Spelling where
  form := .decimal
  sign := .absent
  opening := []
  whole := ['1']
  fraction := some "0000000596046448".toList
  exponent := none
  suffix := []
  opening_mem := Number.LiteralForm.nil_mem_openings
  exponent_isSome := Number.isSome_of_decimal
  suffix_mem := Number.nil_mem_suffixes

/-- The middle itself is taken for the even single as it is written, for the other as a number. -/
theorem coerce_numberImages_single_iff_middle :
    ∃ v raw,
      TokenImages "1.000000059604644775390625".toList v raw ∧
        (coerce false 7 (.text "PRICE") raw).toOption ≠
          (coerce false 7 (.text "PRICE") "1.000000059604644775390625").toOption := by
  obtain ⟨s, v, raw, h, hchars, himages, hiff⟩ :=
    coerce_numberImages_single_iff isToken_middle.isNumber (by decide)
  refine ⟨v, raw, himages, fun hsame => ?_⟩
  have hliteral : s.literal = ⟨.decimal, false, 1000000059604644775390625, -24, 0⟩ := by
    have hread := s.ofChars?_chars
    rw [hchars] at hread
    exact Option.some.inj (hread.symm.trans rfl)
  have hvalue : s.value = 1 + 1 / 2 ^ 24 := by
    rw [← Spelling.value_literal, hliteral]
    decide +kernel
  have hfractional : ¬ Json.IsIntegral s := by
    rintro ⟨hfraction, hexponent⟩
    have hpower := congrArg Literal.exponent hliteral
    simp [Spelling.literal, Spelling.power, Spelling.places, hfraction, hexponent] at hpower
  have hnearest :
      (.finite false 4503599895805952 (-52) (by decide) : Double).IsNearest s.sign.negative
        s.value := by
    rw [isNearest_value_iff, hliteral]
    decide +kernel
  have hadjacent : binary32.Adjacent (2 ^ 23) (-23) (2 ^ 23 + 1) (-23) :=
    ⟨by decide, by decide, by norm_num⟩
  have hside :=
    ((hiff 7 _ (by decide)).1 hsame).2 hfractional |>.2 (d := middleText) hnearest rfl
      (by decide +kernel) hadjacent (by norm_num [signed])
  rw [hvalue] at hside
  revert hside
  decide +kernel

end Coercion
end ChangeFeed
