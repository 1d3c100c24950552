import ChangeFeed.Number.Digits
import Mathlib.Algebra.Order.Group.Nat
import Mathlib.Data.List.Induction
import Mathlib.Tactic.Ring

/-!
# Runs of digits and numerals

The digits of a number spell the number, the first of them is no zero unless the
number is, and they end where something else follows.

**Results.**

* `ofDigits_toDigits`: the digits of a number stand for it.
* `ofDigits_append`: the number of a run in its parts.
* `takeWhile_digits`, `dropWhile_digits`: a run of digits, of whatever kind, ends where
  no digit follows.
-/

namespace ChangeFeed
namespace Number

theorem digitValue_digitChar :
    ∀ d < 16, digitValue (Nat.digitChar d) = d := by
  decide

theorem isDigit_digitChar :
    ∀ d < 10, isDigit (Nat.digitChar d) = true := by
  decide

theorem isHexDigit_digitChar :
    ∀ d < 16, isHexDigit (Nat.digitChar d) = true := by
  decide

theorem digitChar_ne_zero :
    ∀ d < 10, d ≠ 0 → Nat.digitChar d ≠ '0' := by
  decide

/-- A run of decimal digits stands for less than the power of ten of its length. -/
theorem ofDigits_lt
    {digits : List Char}
    (h : ∀ c ∈ digits, isDigit c = true) :
    ofDigits 10 digits < 10 ^ digits.length := by
  induction digits using List.reverseRecOn with
  | nil =>
      simp
  | append_singleton digits c ih =>
      have hfront := ih fun d hd => h d (List.mem_append_left _ hd)
      have hlast : digitValue c < 10 := by
        have hdigit := h c (by simp)
        rw [digitValue, if_pos hdigit]
        simp only [isDigit, Bool.and_eq_true, decide_eq_true_eq, Char.le_def,
          UInt32.le_iff_toNat_le] at hdigit
        change 48 ≤ c.toNat ∧ c.toNat ≤ 57 at hdigit
        change c.toNat - 48 < 10
        omega
      rw [ofDigits_append_singleton, List.length_append, List.length_singleton, pow_succ]
      omega

theorem ofDigits_append
    (base : Nat)
    (digits others : List Char) :
    ofDigits base (digits ++ others) =
      ofDigits base digits * base ^ others.length + ofDigits base others := by
  induction others using List.reverseRecOn with
  | nil =>
      simp
  | append_singleton others c ih =>
      rw [← List.append_assoc, ofDigits_append_singleton, ih, ofDigits_append_singleton,
        List.length_append, List.length_singleton, pow_succ]
      ring

theorem ofDigits_zeros
    (base count : Nat) :
    ofDigits base (List.replicate count '0') = 0 := by
  induction count with
  | zero =>
      rfl
  | succ count ih =>
      rw [List.replicate_succ', ofDigits_append_singleton, ih]
      simp [digitValue, isDigit]

section ToDigits

variable {base : Nat}

/-- The digits of a number are those below the base. -/
theorem exists_digit_of_mem_toDigits
    (hbase : 1 < base)
    {n : Nat}
    {c : Char}
    (h : c ∈ Nat.toDigits base n) :
    ∃ d < base, c = Nat.digitChar d := by
  induction n using Nat.strongRecOn with
  | ind n ih =>
      rw [Nat.toDigits_eq_if hbase] at h
      split at h
      · next hlt => exact ⟨n, hlt, by simpa using h⟩
      · next hge =>
          rcases List.mem_append.1 h with hfront | hlast
          · exact ih (n / base) (Nat.div_lt_self (by omega) hbase) hfront
          · exact ⟨n % base, Nat.mod_lt n (by omega), by simpa using hlast⟩

theorem ofDigits_toDigits
    (hbase : 1 < base)
    (hlimit : base ≤ 16)
    (n : Nat) :
    ofDigits base (Nat.toDigits base n) = n := by
  induction n using Nat.strongRecOn with
  | ind n ih =>
      rw [Nat.toDigits_eq_if hbase]
      split
      · next hlt =>
          simp [ofDigits, digitValue_digitChar n (by omega)]
      · next hge =>
          have hmod : n % base < base := Nat.mod_lt n (by omega)
          rw [ofDigits_append_singleton, ih (n / base) (Nat.div_lt_self (by omega) hbase),
            digitValue_digitChar (n % base) (by omega)]
          exact Nat.div_add_mod' n base

end ToDigits

theorem ofDigits_toDigits_ten (n : Nat) :
    ofDigits 10 (Nat.toDigits 10 n) = n :=
  ofDigits_toDigits (by decide) (by decide) n

/-- An integer is its magnitude with its sign. -/
theorem signedInt_natAbs (n : Int) :
    signedInt (decide (n < 0)) n.natAbs = n := by
  simp only [signedInt, decide_eq_true_eq]
  split <;> omega

theorem isDigit_of_mem_toDigits
    {n : Nat}
    {c : Char}
    (h : c ∈ Nat.toDigits 10 n) :
    isDigit c = true := by
  obtain ⟨d, hd, rfl⟩ := exists_digit_of_mem_toDigits (by decide) h
  exact isDigit_digitChar d hd

/-- Only zero has a leading zero. -/
theorem head?_toDigits_ne_zero
    {n : Nat}
    (hn : n ≠ 0) :
    (Nat.toDigits 10 n).head? ≠ some '0' := by
  induction n using Nat.strongRecOn with
  | ind n ih =>
      rw [Nat.toDigits_eq_if (by decide)]
      split
      · next hlt => simpa using digitChar_ne_zero n hlt hn
      · next hge =>
          have hfront := ih (n / 10) (by omega) (by omega)
          have hne : Nat.toDigits 10 (n / 10) ≠ [] := Nat.toDigits_ne_nil
          rwa [List.head?_append, List.head?_eq_some_head hne, Option.some_or,
            ← List.head?_eq_some_head hne]

section Run

variable {digits rest : List Char}

theorem takeWhile_digits
    {isDigit : Char → Bool}
    (hdigits : ∀ c ∈ digits, isDigit c = true)
    (hrest : ∀ c, rest.head? = some c → isDigit c = false) :
    (digits ++ rest).takeWhile isDigit = digits := by
  rw [List.takeWhile_append_of_pos hdigits]
  cases rest with
  | nil => simp
  | cons c rest => simp [hrest c rfl]

theorem dropWhile_digits
    {isDigit : Char → Bool}
    (hdigits : ∀ c ∈ digits, isDigit c = true)
    (hrest : ∀ c, rest.head? = some c → isDigit c = false) :
    (digits ++ rest).dropWhile isDigit = rest := by
  rw [List.dropWhile_append_of_pos hdigits]
  cases rest with
  | nil => simp
  | cons c rest => simp [hrest c rfl]

end Run

end Number
end ChangeFeed
