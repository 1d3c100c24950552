import ChangeFeed.Number.Integer
import ChangeFeed.Proofs.Number.Digits
import ChangeFeed.Proofs.Number.Spelled
import Mathlib.Data.Nat.Digits.Lemmas
import Mathlib.Data.Set.List

/-!
# Spellings of integers

What the strict grammar of integers allows, said without its reader: a sign that may
be absent and decimal digits, at least one and no more than are read. The integer is
that of the digits by their places, the last one counting once and each one before it
ten times as much as the next.

**Results.**

* `ofDigits_digits`: the reader's number of a run is that of the digits by places.
* `ofChars?_eq_some_iff`: the texts that are read as an integer.
* `exists_padded`: each integer is spelled by its digits after any number of zeros.
-/

namespace ChangeFeed
namespace Number
namespace Integer

/-- The character of a decimal digit. -/
def digitChar (d : Fin 10) : Char :=
  Nat.digitChar d.val

/-- A sign and decimal digits, the first of which counts most. -/
structure Spelling where
  sign : Sign
  digits : List (Fin 10)

/--
The text of an integer in decimal digits after some zeros, with a minus sign just if it
is negative.
-/
def padded
    (zeros : Nat)
    (n : Int) : String :=
  String.ofList
    ((if n < 0 then ['-'] else []) ++ (List.replicate zeros '0' ++ Nat.toDigits 10 n.natAbs))

namespace Spelling

/-- The digits as characters. -/
def digitChars (s : Spelling) : List Char :=
  s.digits.map digitChar

/-- The characters of a spelling. -/
def chars (s : Spelling) : List Char :=
  s.sign.chars ++ s.digitChars

/-- The number of the digits by their places. -/
def magnitude (s : Spelling) : Nat :=
  Nat.ofDigits 10 (s.digits.map Fin.val).reverse

/-- The integer of a spelling. -/
def value (s : Spelling) : Int :=
  if s.sign = .minus then -(s.magnitude : Int) else s.magnitude

/-- Whether there is a digit, and no more of them than are read. -/
def IsReadable (s : Spelling) : Prop :=
  1 ≤ s.digits.length ∧ s.digits.length ≤ 4300

instance (s : Spelling) : Decidable s.IsReadable :=
  inferInstanceAs (Decidable (_ ∧ _))

end Spelling

section Digits

theorem exists_digitChar
    {c : Char}
    (h : isDigit c = true) :
    ∃ d, digitChar d = c := by
  simp only [isDigit, Bool.and_eq_true, decide_eq_true_eq, Char.le_def,
    UInt32.le_iff_toNat_le] at h
  change 48 ≤ c.toNat ∧ c.toNat ≤ 57 at h
  have hchars : ∀ d, digitChar d = Char.ofNat (48 + d.val) := by decide
  refine ⟨⟨c.toNat - 48, by omega⟩, ?_⟩
  rw [hchars, Nat.add_sub_cancel' h.1, Char.ofNat_toNat]

/-- Decimal digits are those of a list of numbers below ten. -/
theorem exists_digits
    {text : List Char}
    (h : text.all isDigit = true) :
    ∃ digits : List (Fin 10), digits.map digitChar = text := by
  have hrange : text ∈ {l : List Char | ∀ c ∈ l, c ∈ Set.range digitChar} :=
    fun c hc => exists_digitChar (List.all_eq_true.1 h c hc)
  rwa [← Set.range_list_map] at hrange

theorem isDigit_of_mem_map
    {digits : List (Fin 10)} :
    ∀ c ∈ digits.map digitChar, isDigit c = true := by
  intro c hc
  obtain ⟨d, -, rfl⟩ := List.mem_map.1 hc
  exact isDigit_digitChar d d.isLt

theorem ofDigits_digits (digits : List (Fin 10)) :
    ofDigits 10 (digits.map digitChar) =
      Nat.ofDigits 10 (digits.map Fin.val).reverse := by
  induction digits using List.reverseRecOn with
  | nil => rfl
  | append_singleton digits d ih =>
      rw [List.map_append, List.map_singleton, ofDigits_append_singleton, ih,
        digitChar, digitValue_digitChar d (by omega), List.map_append, List.map_singleton,
        List.reverse_append, List.reverse_singleton, List.singleton_append, Nat.ofDigits_cons]
      omega

end Digits

section Reading

variable {text : List Char}
variable {n : Int}

theorem Spelling.value_eq (s : Spelling) :
    s.value = signedInt s.sign.negative (ofDigits 10 s.digitChars) := by
  rw [digitChars, ofDigits_digits, value, magnitude]
  cases s.sign <;> rfl

theorem Spelling.takeSign_chars
    {s : Spelling}
    (hs : s.IsReadable) :
    takeSign s.chars = (s.sign.negative, s.digitChars) := by
  have hne : s.digitChars ≠ [] := by
    rw [digitChars, ne_eq, List.map_eq_nil_iff, ← List.length_eq_zero_iff]
    exact Nat.ne_of_gt hs.1
  have hhead {c : Char} (hc : isDigit c = false) : s.digitChars.head? ≠ some c :=
    List.append_nil s.digitChars ▸ Number.Spelling.head?_digits isDigit_of_mem_map hne [] hc
  exact Number.Spelling.takeSign_chars s.sign (hhead rfl) (hhead rfl)

/-- A text is read as an integer just if it spells it with as many digits as are read. -/
theorem ofChars?_eq_some_iff :
    ofChars? text = some n ↔ ∃ s : Spelling, s.chars = text ∧ s.IsReadable ∧ s.value = n := by
  constructor
  · intro h
    obtain ⟨sign, htext, hnegative⟩ := Number.Spelling.exists_sign text
    simp only [ofChars?] at h
    split at h
    · contradiction
    · next hdigits =>
        simp only [Bool.or_eq_true, not_or, Bool.not_eq_true', Bool.not_eq_false,
          List.isEmpty_iff, decide_eq_true_eq, Nat.not_lt] at hdigits
        obtain ⟨⟨hne, hall⟩, hlimit⟩ := hdigits
        obtain ⟨digits, hchars⟩ := exists_digits hall
        have hlength : digits.length = (takeSign text).2.length := by
          rw [← hchars, List.length_map]
        have hpos := List.length_pos_of_ne_nil hne
        cases h
        refine ⟨⟨sign, digits⟩, ?_, ⟨hlength ▸ hpos, hlength ▸ hlimit⟩, ?_⟩
        · rw [Spelling.chars, Spelling.digitChars, hchars, ← htext]
        · rw [Spelling.value_eq, Spelling.digitChars, hchars, hnegative]
  · rintro ⟨s, rfl, hs, rfl⟩
    have hlength : s.digitChars.length = s.digits.length := List.length_map _
    have hall : s.digitChars.all isDigit = true := List.all_eq_true.2 isDigit_of_mem_map
    have hempty : s.digitChars.isEmpty = false := by
      rw [List.isEmpty_eq_false_iff, ← List.length_pos_iff, hlength]
      exact hs.1
    simp only [ofChars?, Spelling.takeSign_chars hs]
    rw [if_neg, Spelling.value_eq]
    simpa [hempty, hall, hlength, digitLimit] using hs.2

/-- Zeros and the digits of an integer spell it. -/
theorem exists_padded
    (zeros : Nat)
    (n : Int) :
    ∃ s : Spelling,
      s.chars = (padded zeros n).toList ∧
        s.digits.length = zeros + (Nat.toDigits 10 n.natAbs).length ∧
        s.value = n := by
  have hall : (List.replicate zeros '0' ++ Nat.toDigits 10 n.natAbs).all isDigit = true := by
    refine List.all_eq_true.2 fun c hc => ?_
    rcases List.mem_append.1 hc with hzero | hdigit
    · rw [List.eq_of_mem_replicate hzero]
      rfl
    · exact isDigit_of_mem_toDigits hdigit
  obtain ⟨digits, hdigits⟩ := exists_digits hall
  refine ⟨⟨if n < 0 then .minus else .absent, digits⟩, ?_, ?_, ?_⟩
  · rw [padded, String.toList_ofList, ← hdigits, Spelling.chars, Spelling.digitChars]
    split <;> rfl
  · rw [← List.length_map digitChar, hdigits,
      List.length_append, List.length_replicate]
  · rw [Spelling.value_eq, Spelling.digitChars, hdigits, ofDigits_append, ofDigits_zeros,
      ofDigits_toDigits_ten, Nat.zero_mul, Nat.zero_add]
    exact Sign.signedInt_ite rfl n

end Reading

end Integer
end Number
end ChangeFeed
