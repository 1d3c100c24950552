import ChangeFeed.Number.Literal
import ChangeFeed.Proofs.Number.Digits
import ChangeFeed.Proofs.Text.Blank
import Mathlib.Algebra.Order.Field.Rat
import Mathlib.Data.List.Basic
import Mathlib.Tactic.FieldSimp
import Mathlib.Tactic.NormNum

/-!
# How floating-point literals are spelled

The grammar of literals as data: a sign, digits around an optional point, an
exponent and a suffix, each as it is written, with the proofs that it may be written
so. What a spelling stands for is said of its parts, the digits before the point and
those after it apart. The reader takes every spelling for a literal of this value.

**Results.**

* `ofChars?_chars`: every spelling is read, as the literal of its parts.
* `magnitude_literal`: that literal has the value that the spelling stands for.
* `stripChars_chars`: no blank is a part of a spelling.
* `magnitude_ofProduct`: every product of a number and a power of two is spelled.
-/

namespace ChangeFeed
namespace Number

/-- A sign as it may be written. -/
inductive Sign where
  | absent
  | plus
  | minus
deriving DecidableEq

namespace Sign

/-- The characters of a sign. -/
def chars : Sign → List Char
  | absent => []
  | plus => ['+']
  | minus => ['-']

/-- Whether it is a minus sign. -/
def negative : Sign → Bool
  | minus => true
  | _ => false

/-- An integer is its magnitude with a minus sign if it is negative, and else with another. -/
theorem signedInt_ite
    {sign : Sign}
    (h : sign.negative = false)
    (n : Int) :
    signedInt (if n < 0 then minus else sign).negative n.natAbs = n := by
  have hnegative : (if n < 0 then minus else sign).negative = decide (n < 0) := by
    split
    · next hn => simp [negative, hn]
    · next hn => simp [h, hn]
  rw [hnegative, signedInt_natAbs]

end Sign

namespace LiteralForm

/-- The base of the digits of a form. -/
def base : LiteralForm → Nat
  | .decimal => 10
  | .hexadecimal => 16

/-- How many places of the radix a digit takes. -/
def width : LiteralForm → Nat
  | .decimal => 1
  | .hexadecimal => 4

/-- The digits of a form. -/
def isDigit : LiteralForm → Char → Bool
  | .decimal => Number.isDigit
  | .hexadecimal => isHexDigit

/-- What stands before the digits. -/
def openings : LiteralForm → List (List Char)
  | .decimal => [[]]
  | .hexadecimal => [['0', 'x'], ['0', 'X']]

/-- Nothing has to stand before the digits of a decimal literal. -/
theorem nil_mem_openings :
    [] ∈ decimal.openings :=
  List.mem_singleton_self []

/-- A mark for the radix stands before those of a hexadecimal one, with a letter of either case. -/
theorem lower_mem_openings :
    ['0', 'x'] ∈ hexadecimal.openings :=
  List.mem_cons_self

theorem upper_mem_openings :
    ['0', 'X'] ∈ hexadecimal.openings :=
  List.mem_cons_of_mem _ List.mem_cons_self

/-- The letters that an exponent may start with. -/
def exponentLetters : LiteralForm → List Char
  | .decimal => ['e', 'E']
  | .hexadecimal => ['p', 'P']

theorem e_mem_exponentLetters :
    'e' ∈ decimal.exponentLetters :=
  List.mem_cons_self

theorem p_mem_exponentLetters :
    'p' ∈ hexadecimal.exponentLetters :=
  List.mem_cons_self

end LiteralForm

/-- An exponent as it is written. -/
structure ExponentSpelling (form : LiteralForm) where
  letter : Char
  sign : Sign
  digits : List Char
  letter_mem : letter ∈ form.exponentLetters := by decide
  digits_ne_nil : digits ≠ [] := by decide
  all_isDigit : digits.all isDigit = true := by decide

namespace ExponentSpelling

variable {form : LiteralForm}

theorem isDigit_of_mem (e : ExponentSpelling form) :
    ∀ c ∈ e.digits, isDigit c = true :=
  List.all_eq_true.1 e.all_isDigit

/-- The characters of an exponent. -/
def chars (e : ExponentSpelling form) : List Char :=
  e.letter :: (e.sign.chars ++ e.digits)

/-- The power that an exponent stands for. -/
def power (e : ExponentSpelling form) : Int :=
  signedInt e.sign.negative (ofDigits 10 e.digits)

end ExponentSpelling

/-- A decimal literal needs no exponent. -/
theorem isSome_of_decimal
    (h : LiteralForm.decimal = .hexadecimal) :
    (none : Option (ExponentSpelling .decimal)).isSome = true := by
  contradiction

/-- What may follow a literal without a meaning. -/
def suffixes : List (List Char) :=
  [[], ['f'], ['F'], ['d'], ['D']]

theorem nil_mem_suffixes :
    [] ∈ suffixes :=
  List.mem_cons_self

/-- A floating-point literal as it is written. -/
structure Spelling where
  /-- How it is written. -/
  form : LiteralForm
  sign : Sign
  /-- What stands before the digits. -/
  opening : List Char
  /-- The digits before the point. -/
  whole : List Char
  /-- The digits after the point, none if there is no point. -/
  fraction : Option (List Char)
  exponent : Option (ExponentSpelling form)
  suffix : List Char
  opening_mem : opening ∈ form.openings := by decide
  all_isDigit : (whole ++ fraction.getD []).all form.isDigit = true := by decide
  digits_ne_nil : whole ++ fraction.getD [] ≠ [] := by decide
  /-- A hexadecimal literal has an exponent. -/
  exponent_isSome : form = .hexadecimal → exponent.isSome = true := by decide
  suffix_mem : suffix ∈ suffixes := by decide

namespace Spelling

theorem isDigit_of_mem (s : Spelling) :
    ∀ c ∈ s.whole ++ s.fraction.getD [], s.form.isDigit c = true :=
  List.all_eq_true.1 s.all_isDigit

/-- The digits after the point. -/
def places (s : Spelling) : List Char :=
  s.fraction.getD []

/-- The point and the digits after it. -/
def pointChars (s : Spelling) : List Char :=
  match s.fraction with
  | none => []
  | some digits => '.' :: digits

/-- The exponent as written, and the suffix. -/
def tailChars (s : Spelling) : List Char :=
  match s.exponent with
  | none => s.suffix
  | some e => e.chars ++ s.suffix

/-- The text after the sign. -/
def bodyChars (s : Spelling) : List Char :=
  s.opening ++ (s.whole ++ (s.pointChars ++ s.tailChars))

/-- The text of a literal. -/
def chars (s : Spelling) : List Char :=
  s.sign.chars ++ s.bodyChars

/-- The power of the radix that the exponent stands for. -/
def power (s : Spelling) : Int :=
  match s.exponent with
  | none => 0
  | some e => e.power

/-- The number of digits of the exponent. -/
def exponentDigits (s : Spelling) : Nat :=
  match s.exponent with
  | none => 0
  | some e => e.digits.length

/-- The exact magnitude that is written. -/
def magnitude (s : Spelling) : Rat :=
  (ofDigits s.form.base s.whole +
      ofDigits s.form.base s.places / (s.form.base : Rat) ^ s.places.length) *
    (s.form.radix : Rat) ^ s.power

/-- The exact value that is written. -/
def value (s : Spelling) : Rat :=
  signed s.sign.negative s.magnitude

/-- The literal that a spelling is read as. -/
def literal (s : Spelling) : Literal where
  form := s.form
  negative := s.sign.negative
  coefficient := ofDigits s.form.base (s.whole ++ s.places)
  exponent := s.power - s.form.width * s.places.length
  exponentDigits := s.exponentDigits

section Value

theorem base_eq_radix_pow (form : LiteralForm) :
    (form.base : Rat) = (form.radix : Rat) ^ form.width := by
  cases form <;> norm_num [LiteralForm.base, LiteralForm.radix, LiteralForm.width]

theorem radix_pos (form : LiteralForm) :
    (0 : Rat) < form.radix := by
  cases form <;> norm_num [LiteralForm.radix]

/-- The literal has the magnitude that is written. -/
@[simp] theorem magnitude_literal (s : Spelling) :
    s.literal.magnitude = s.magnitude := by
  have hradix := radix_pos s.form
  have hplaces :
      (s.form.base : Rat) ^ s.places.length =
        (s.form.radix : Rat) ^ (s.form.width * s.places.length) := by
    rw [base_eq_radix_pow, pow_mul]
  have hpower :
      (s.form.radix : Rat) ^ (s.power - s.form.width * s.places.length) =
        (s.form.radix : Rat) ^ s.power / (s.form.base : Rat) ^ s.places.length := by
    rw [zpow_sub₀ hradix.ne', hplaces, ← Nat.cast_mul, zpow_natCast]
  have hbase : (s.form.base : Rat) ^ s.places.length ≠ 0 := by
    rw [hplaces]
    exact (pow_pos hradix _).ne'
  simp only [Literal.magnitude, literal, magnitude, ofDigits_append, hpower]
  push_cast
  field_simp

@[simp] theorem value_literal (s : Spelling) :
    s.literal.value = s.value := by
  rw [Literal.value, magnitude_literal]
  rfl

end Value

section Reading

variable {s : Spelling}

/-- A sign is taken off a text that goes on without one. -/
theorem takeSign_chars
    (sign : Sign)
    {body : List Char}
    (hplus : body.head? ≠ some '+')
    (hminus : body.head? ≠ some '-') :
    takeSign (sign.chars ++ body) = (sign.negative, body) := by
  cases sign with
  | plus => rfl
  | minus => rfl
  | absent =>
      simp only [Sign.chars, List.nil_append, Sign.negative]
      unfold takeSign
      split
      · exact absurd rfl hplus
      · exact absurd rfl hminus
      · rfl

theorem head?_digits
    {digits : List Char}
    (hdigits : ∀ c ∈ digits, isDigit c = true)
    (hne : digits ≠ [])
    (rest : List Char)
    {c : Char}
    (hc : isDigit c = false) :
    (digits ++ rest).head? ≠ some c := by
  cases digits with
  | nil => exact absurd rfl hne
  | cons d ds =>
      rintro hsame
      cases hsame
      rw [hdigits _ (List.mem_cons_self ..)] at hc
      contradiction

/-- An exponent is read up to what is no digit. -/
theorem signedRun?_chars
    {form : LiteralForm}
    (e : ExponentSpelling form)
    {rest : List Char}
    (hrest : ∀ c, rest.head? = some c → isDigit c = false) :
    signedRun? (e.sign.chars ++ (e.digits ++ rest)) =
      some ⟨e.power, e.digits.length, rest⟩ := by
  have hplus := head?_digits e.isDigit_of_mem e.digits_ne_nil rest (c := '+') rfl
  have hminus := head?_digits e.isDigit_of_mem e.digits_ne_nil rest (c := '-') rfl
  simp only [signedRun?, takeSign_chars e.sign hplus hminus,
    takeWhile_digits e.isDigit_of_mem hrest, dropWhile_digits e.isDigit_of_mem hrest]
  simp [e.digits_ne_nil, ExponentSpelling.power]

theorem suffix_cases (s : Spelling) :
    s.suffix = [] ∨ s.suffix = ['f'] ∨ s.suffix = ['F'] ∨ s.suffix = ['d'] ∨
      s.suffix = ['D'] := by
  simpa [suffixes] using s.suffix_mem

theorem endsLiteral_suffix (s : Spelling) :
    Literal.endsLiteral s.suffix = true := by
  rcases s.suffix_cases with h | h | h | h | h <;> rw [h] <;> rfl

/-- No suffix goes on with decimal digits. -/
theorem isDigit_head?_suffix
    (s : Spelling)
    (c : Char)
    (h : s.suffix.head? = some c) :
    isDigit c = false := by
  rcases s.suffix_cases with hs | hs | hs | hs | hs <;> rw [hs] at h <;> cases h <;> rfl

theorem exponentLetter_spec (form : LiteralForm) :
    ∀ c ∈ form.exponentLetters, form.isDigit c = false ∧ c ≠ '.' := by
  rw [← List.forall_iff_forall_mem]
  cases form <;> decide

/-- What follows the digits goes on with none and with no point. -/
theorem head?_tailChars
    (c : Char)
    (h : s.tailChars.head? = some c) :
    s.form.isDigit c = false ∧ c ≠ '.' := by
  unfold tailChars at h
  split at h
  · next hnone =>
      have hdecimal : s.form = .decimal := by
        cases hform : s.form with
        | decimal => rfl
        | hexadecimal =>
            have hsome := s.exponent_isSome hform
            rw [hnone] at hsome
            contradiction
      rw [hdecimal]
      rcases s.suffix_cases with hs | hs | hs | hs | hs <;>
        rw [hs] at h <;> cases h <;> exact ⟨rfl, by decide⟩
  · next e he =>
      cases h
      exact exponentLetter_spec s.form e.letter e.letter_mem

/-- The digits around the point are read up to the exponent. -/
theorem mantissa_chars (s : Spelling) :
    Literal.mantissa s.form.isDigit (s.whole ++ (s.pointChars ++ s.tailChars)) =
      ⟨s.whole, s.places, s.tailChars⟩ := by
  have hwhole : ∀ c ∈ s.whole, s.form.isDigit c = true :=
    fun c hc => s.isDigit_of_mem c (List.mem_append_left _ hc)
  have hplaces : ∀ c ∈ s.places, s.form.isDigit c = true :=
    fun c hc => s.isDigit_of_mem c (List.mem_append_right _ hc)
  have htail : ∀ c, s.tailChars.head? = some c → s.form.isDigit c = false :=
    fun c hc => (head?_tailChars c hc).1
  unfold pointChars places at *
  cases hfraction : s.fraction with
  | none =>
      simp only [Literal.mantissa, List.nil_append, takeWhile_digits hwhole htail,
        dropWhile_digits hwhole htail]
      split
      · next rest heq => exact absurd rfl (head?_tailChars '.' (by rw [heq]; rfl)).2
      · rfl
  | some digits =>
      rw [hfraction, Option.getD_some] at hplaces
      have hpoint :
          ∀ c, ('.' :: (digits ++ s.tailChars)).head? = some c → s.form.isDigit c = false := by
        rintro c hc
        cases hc
        cases s.form <;> rfl
      simp only [Literal.mantissa, List.cons_append, takeWhile_digits hwhole hpoint,
        dropWhile_digits hwhole hpoint, takeWhile_digits hplaces htail,
        dropWhile_digits hplaces htail, Option.getD_some]

end Reading

section Characters

variable {s : Spelling}
variable {c : Char}

/-- The characters that a literal has after its opening. -/
def IsLiteralChar
    (form : LiteralForm)
    (c : Char) : Prop :=
  isHexDigit c = true ∨ c ∈ ['.', '+', '-'] ∨ c ∈ form.exponentLetters

theorem isHexDigit_of_isDigit
    (h : isDigit c = true) :
    isHexDigit c = true := by
  simp [isHexDigit, h]

theorem isHexDigit_of_form
    {form : LiteralForm}
    (h : form.isDigit c = true) :
    isHexDigit c = true := by
  cases form with
  | decimal => exact isHexDigit_of_isDigit h
  | hexadecimal => exact h

theorem isLiteralChar_of_mem_suffix
    (h : c ∈ s.suffix) :
    IsLiteralChar s.form c := by
  refine Or.inl ?_
  rcases s.suffix_cases with hs | hs | hs | hs | hs <;> rw [hs] at h
  · contradiction
  all_goals
    rw [List.mem_singleton.1 h]
    rfl

theorem isLiteralChar_of_mem_sign
    {sign : Sign}
    (h : c ∈ sign.chars) :
    IsLiteralChar s.form c := by
  refine Or.inr (Or.inl ?_)
  cases sign <;> simp_all [Sign.chars]

theorem isLiteralChar_of_mem_pointChars
    (h : c ∈ s.pointChars) :
    IsLiteralChar s.form c := by
  cases hfraction : s.fraction with
  | none =>
      simp [pointChars, hfraction] at h
  | some digits =>
      simp only [pointChars, hfraction, List.mem_cons] at h
      rcases h with rfl | hdigit
      · exact Or.inr (Or.inl (by decide))
      · refine Or.inl (isHexDigit_of_form (s.isDigit_of_mem c ?_))
        rw [hfraction]
        exact List.mem_append_right _ hdigit

theorem isLiteralChar_of_mem_tailChars
    (h : c ∈ s.tailChars) :
    IsLiteralChar s.form c := by
  cases hexponent : s.exponent with
  | none =>
      simp only [tailChars, hexponent] at h
      exact isLiteralChar_of_mem_suffix h
  | some e =>
      simp only [tailChars, hexponent, ExponentSpelling.chars, List.cons_append,
        List.mem_cons, List.mem_append] at h
      rcases h with rfl | (hsign | hdigit) | hsuffix
      · exact Or.inr (Or.inr e.letter_mem)
      · exact isLiteralChar_of_mem_sign hsign
      · exact Or.inl (isHexDigit_of_isDigit (e.isDigit_of_mem c hdigit))
      · exact isLiteralChar_of_mem_suffix hsuffix

theorem isLiteralChar_of_mem_bodyChars
    (h : c ∈ s.bodyChars) :
    c ∈ s.opening ∨ IsLiteralChar s.form c := by
  simp only [bodyChars, List.mem_append] at h
  rcases h with hopening | hwhole | hpoint | htail
  · exact Or.inl hopening
  · have hdigit := s.isDigit_of_mem c (List.mem_append_left _ hwhole)
    exact Or.inr (Or.inl (isHexDigit_of_form hdigit))
  · exact Or.inr (isLiteralChar_of_mem_pointChars hpoint)
  · exact Or.inr (isLiteralChar_of_mem_tailChars htail)

theorem isBlank_of_isHexDigit
    (h : isHexDigit c = true) :
    Text.isBlank c = false := by
  simp only [isHexDigit, isDigit, Bool.or_eq_true, Bool.and_eq_true, decide_eq_true_eq,
    Char.le_def, UInt32.le_iff_toNat_le] at h
  change
    ((48 ≤ c.toNat ∧ c.toNat ≤ 57) ∨ 97 ≤ c.toNat ∧ c.toNat ≤ 102) ∨
      65 ≤ c.toNat ∧ c.toNat ≤ 70 at h
  rw [← Bool.not_eq_true, Text.isBlank, Text.inRanges_iff]
  rintro ⟨range, hrange, hlow, hhigh⟩
  simp only [Text.blanks, List.mem_cons, List.not_mem_nil, or_false] at hrange
  rcases hrange with rfl | rfl | rfl | rfl | rfl | rfl | rfl | rfl | rfl | rfl <;>
    simp only at hlow hhigh <;> omega

theorem isBlank_of_isLiteralChar
    {form : LiteralForm}
    (h : IsLiteralChar form c) :
    Text.isBlank c = false := by
  have hmarks : ∀ c ∈ ['.', '+', '-'], Text.isBlank c = false := by
    rw [← List.forall_iff_forall_mem]
    decide
  have hletters : ∀ c ∈ form.exponentLetters, Text.isBlank c = false := by
    rw [← List.forall_iff_forall_mem]
    cases form <;> decide
  rcases h with hdigit | hmark | hletter
  · exact isBlank_of_isHexDigit hdigit
  · exact hmarks c hmark
  · exact hletters c hletter

/-- No blank is a part of a literal. -/
theorem isBlank_of_mem_chars
    (h : c ∈ s.chars) :
    Text.isBlank c = false := by
  rcases List.mem_append.1 h with hsign | hbody
  · exact isBlank_of_isLiteralChar (isLiteralChar_of_mem_sign (s := s) hsign)
  · rcases isLiteralChar_of_mem_bodyChars hbody with hopening | hchar
    · have hblank (form : LiteralForm) :
          ∀ opening ∈ form.openings, opening.Forall (Text.isBlank · = false) := by
        cases form <;> decide
      exact List.forall_iff_forall_mem.1 (hblank s.form s.opening s.opening_mem) c hopening
    · exact isBlank_of_isLiteralChar hchar

/-- Stripping takes nothing off a literal. -/
theorem stripChars_chars (s : Spelling) :
    Text.stripChars s.chars = s.chars :=
  (Text.stripChars_eq_iff fun _ => isBlank_of_mem_chars).2 ⟨[], [], by simp⟩

end Characters

section Reading

variable {s : Spelling}

theorem opening_of_decimal
    (h : s.form = .decimal) :
    s.opening = [] := by
  have hmem := s.opening_mem
  rw [h] at hmem
  simpa [LiteralForm.openings] using hmem

theorem opening_of_hexadecimal
    (h : s.form = .hexadecimal) :
    s.opening = ['0', 'x'] ∨ s.opening = ['0', 'X'] := by
  have hmem := s.opening_mem
  rw [h] at hmem
  simpa [LiteralForm.openings] using hmem

/-- A decimal literal does not start with a mark for the radix. -/
theorem not_opened_of_decimal
    (h : s.form = .decimal)
    (rest : List Char) :
    s.bodyChars ≠ '0' :: 'x' :: rest ∧ s.bodyChars ≠ '0' :: 'X' :: rest := by
  have hmarks : ∀ c ∈ ['x', 'X'], isHexDigit c = false ∧ c ∉ ['.', '+', '-'] ∧ c ∉ ['e', 'E'] := by
    rw [← List.forall_iff_forall_mem]
    decide
  have hnone (c : Char) (hc : c ∈ ['x', 'X']) : c ∉ s.bodyChars := by
    intro hmem
    obtain ⟨hdigit, hmark, hletter⟩ := hmarks c hc
    have hchar :=
      (isLiteralChar_of_mem_bodyChars hmem).resolve_left (by simp [opening_of_decimal h])
    rw [h] at hchar
    rcases hchar with hchar | hchar | hchar
    · exact Bool.false_ne_true (hdigit.symm.trans hchar)
    · exact hmark hchar
    · exact hletter hchar
  constructor
  · intro hbody
    exact hnone 'x' (by decide) (by simp [hbody])
  · intro hbody
    exact hnone 'X' (by decide) (by simp [hbody])

/-- After the sign comes no other. -/
theorem head?_bodyChars
    (s : Spelling)
    {c : Char}
    (hc : c = '+' ∨ c = '-') :
    s.bodyChars.head? ≠ some c := by
  intro hhead
  have hdigit : isHexDigit c = false := by
    rcases hc with rfl | rfl <;> rfl
  cases hform : s.form with
  | hexadecimal =>
      unfold bodyChars at hhead
      rcases opening_of_hexadecimal hform with hopening | hopening
      all_goals
        rw [hopening] at hhead
        cases hhead
        contradiction
  | decimal =>
      rw [bodyChars, opening_of_decimal hform, List.nil_append] at hhead
      cases hwhole : s.whole with
      | cons d digits =>
          rw [hwhole] at hhead
          cases hhead
          have hfirst := s.isDigit_of_mem c (by simp [hwhole])
          rw [isHexDigit_of_form hfirst] at hdigit
          contradiction
      | nil =>
          have hplaces := s.digits_ne_nil
          rw [hwhole, List.nil_append] at hplaces hhead
          cases hfraction : s.fraction with
          | none => exact hplaces (by rw [hfraction]; rfl)
          | some digits =>
              simp only [pointChars, hfraction, List.cons_append, List.head?_cons,
                Option.some.injEq] at hhead
              subst hhead
              revert hc
              decide

theorem digits_isEmpty (s : Spelling) :
    (s.whole.isEmpty && s.places.isEmpty) = false := by
  have hne := s.digits_ne_nil
  rw [← Bool.not_eq_true, Bool.and_eq_true, List.isEmpty_iff, List.isEmpty_iff]
  rintro ⟨hwhole, hplaces⟩
  exact hne (by rw [hwhole, List.nil_append]; exact hplaces)

theorem tailChars_of_some
    {e : ExponentSpelling s.form}
    (h : s.exponent = some e) :
    s.tailChars = e.letter :: (e.sign.chars ++ (e.digits ++ s.suffix)) := by
  simp [tailChars, h, ExponentSpelling.chars]

/-- The decimal form is read after the sign. -/
theorem ofDecimal?_bodyChars
    (h : s.form = .decimal) :
    Literal.ofDecimal? s.sign.negative s.bodyChars = some s.literal := by
  have hmantissa := mantissa_chars s
  rw [h] at hmantissa
  simp only [LiteralForm.isDigit] at hmantissa
  have hbody : s.bodyChars = s.whole ++ (s.pointChars ++ s.tailChars) := by
    rw [bodyChars, opening_of_decimal h, List.nil_append]
  simp only [Literal.ofDecimal?, hbody, hmantissa, digits_isEmpty]
  cases hexponent : s.exponent with
  | none =>
      have htail : s.tailChars = s.suffix := by simp [tailChars, hexponent]
      rw [htail]
      rcases s.suffix_cases with hs | hs | hs | hs | hs <;>
        simp [hs, Literal.endsLiteral, literal, h, power, exponentDigits, hexponent,
          LiteralForm.base, LiteralForm.width]
  | some e =>
      have hletter := e.letter_mem
      simp only [h, LiteralForm.exponentLetters, List.mem_cons, List.not_mem_nil, or_false]
        at hletter
      have hrun := signedRun?_chars e s.isDigit_head?_suffix
      rw [tailChars_of_some hexponent]
      rcases hletter with hl | hl
      all_goals
        rw [hl]
        simp [hrun, endsLiteral_suffix, literal, h, power, exponentDigits, hexponent,
          LiteralForm.base, LiteralForm.width]

/-- The hexadecimal form is read after its mark. -/
theorem ofHexadecimal?_bodyChars
    (h : s.form = .hexadecimal) :
    Literal.ofHexadecimal? s.sign.negative (s.whole ++ (s.pointChars ++ s.tailChars)) =
      some s.literal := by
  have hmantissa := mantissa_chars s
  rw [h] at hmantissa
  simp only [LiteralForm.isDigit] at hmantissa
  simp only [Literal.ofHexadecimal?, hmantissa, digits_isEmpty]
  obtain ⟨e, hexponent⟩ := Option.isSome_iff_exists.1 (s.exponent_isSome h)
  have hletter := e.letter_mem
  simp only [h, LiteralForm.exponentLetters, List.mem_cons, List.not_mem_nil, or_false]
    at hletter
  have hrun := signedRun?_chars e s.isDigit_head?_suffix
  rw [tailChars_of_some hexponent]
  rcases hletter with hl | hl
  all_goals
    rw [hl]
    simp [hrun, endsLiteral_suffix, literal, h, power, exponentDigits, hexponent,
      LiteralForm.base, LiteralForm.width]

/-- Every spelling is read, as the literal of its parts. -/
theorem ofChars?_chars (s : Spelling) :
    Literal.ofChars? s.chars = some s.literal := by
  have hsign :=
    takeSign_chars s.sign (head?_bodyChars s (Or.inl rfl)) (head?_bodyChars s (Or.inr rfl))
  simp only [Literal.ofChars?, chars, hsign]
  cases hform : s.form with
  | decimal =>
      split
      · next rest heq => exact absurd heq (not_opened_of_decimal hform rest).1
      · next rest heq => exact absurd heq (not_opened_of_decimal hform rest).2
      · exact ofDecimal?_bodyChars hform
  | hexadecimal =>
      rw [bodyChars]
      rcases opening_of_hexadecimal hform with hopening | hopening
      all_goals
        rw [hopening]
        exact ofHexadecimal?_bodyChars hform

end Reading

section Existence

/-- A product of a number and a power of two as a hexadecimal literal. -/
def ofProduct
    (negative : Bool)
    (m : Nat)
    (q : Int) : Spelling where
  form := .hexadecimal
  sign := if negative then .minus else .absent
  opening := ['0', 'x']
  whole := Nat.toDigits 16 m
  fraction := none
  exponent :=
    some
      { letter := 'p'
        sign := if q < 0 then .minus else .absent
        digits := Nat.toDigits 10 q.natAbs
        digits_ne_nil := Nat.toDigits_ne_nil
        all_isDigit := List.all_eq_true.2 fun _ => isDigit_of_mem_toDigits }
  suffix := []
  suffix_mem := nil_mem_suffixes
  all_isDigit := by
    rw [Option.getD_none, List.append_nil, List.all_eq_true]
    intro c hc
    obtain ⟨d, hd, rfl⟩ := exists_digit_of_mem_toDigits (by decide) hc
    exact isHexDigit_digitChar d hd
  digits_ne_nil := by
    rw [Option.getD_none, List.append_nil]
    exact Nat.toDigits_ne_nil
  exponent_isSome _ := rfl

theorem negative_ofProduct
    (negative : Bool)
    (m : Nat)
    (q : Int) :
    (ofProduct negative m q).sign.negative = negative := by
  cases negative <;> rfl

theorem magnitude_ofProduct
    (negative : Bool)
    (m : Nat)
    (q : Int) :
    (ofProduct negative m q).magnitude = m * 2 ^ q := by
  have hpower : (ofProduct negative m q).power = q := by
    simp only [power, ofProduct, ExponentSpelling.power, ofDigits_toDigits_ten]
    exact Sign.signedInt_ite rfl q
  rw [magnitude, hpower]
  simp [places, ofProduct, LiteralForm.base, LiteralForm.radix,
    ofDigits_toDigits (by decide : 1 < 16) (by decide)]

end Existence

end Spelling
end Number
end ChangeFeed
