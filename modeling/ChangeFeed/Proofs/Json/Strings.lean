import ChangeFeed.Json.Reader
import ChangeFeed.Json.Writer
import ChangeFeed.Proofs.Number.Digits
import Mathlib.Data.List.Basic

/-!
# Strings read back

A symbol of a string is written as itself, as an escape of one letter, or as an
escape of each of its code units. The reader goes over the written form of one symbol,
finds its code units and hands on the rest, so the code units of a string are read by an
induction over its symbols. A text is made of its code units.

**Results.**

* `escaped_escapeSymbol`: the ways in which a symbol is written.
* `string_string`: a written string reads back.
-/

namespace ChangeFeed
namespace Json

namespace Writer

/-- The ways in which a symbol is written inside a string. -/
inductive Escaped : Symbol → List Char → Prop
  | letter
      {c e : Char}
      (h : Reader.simpleEscape? e = some c) :
      Escaped (.char c) [Text.backslash, e]
  | plain
      {c : Char}
      (hlow : 0x20 ≤ c.toNat)
      (hhigh : c.toNat < 0x7F)
      (hquote : c ≠ Text.doubleQuote)
      (hbackslash : c ≠ Text.backslash) :
      Escaped (.char c) [c]
  | units (symbol : Symbol) :
      Escaped symbol (symbol.units.flatMap unitEscape)

theorem escaped_escapeChar (c : Char) :
    Escaped (.char c) (escapeChar c) := by
  unfold escapeChar
  split
  · next hself =>
      rcases Bool.or_eq_true_iff.1 hself with hquote | hbackslash
      · rw [of_decide_eq_true hquote]
        exact .letter rfl
      · rw [of_decide_eq_true hbackslash]
        exact .letter rfl
  · next hself =>
      split
      · next h => exact h ▸ .letter rfl
      · split
        · next h => exact h ▸ .letter rfl
        · split
          · next h => exact h ▸ .letter rfl
          · split
            · next h => exact h ▸ .letter rfl
            · split
              · next h => exact h ▸ .letter rfl
              · split
                · next hprintable =>
                    have hne : c ≠ Text.doubleQuote ∧ c ≠ Text.backslash := by simpa using hself
                    have hrange : 0x20 ≤ c.toNat ∧ c.toNat < 0x7F := by simpa using hprintable
                    exact .plain hrange.1 hrange.2 hne.1 hne.2
                · exact .units (.char c)

theorem escaped_escapeSymbol (symbol : Symbol) :
    Escaped symbol (escapeSymbol symbol) := by
  cases symbol with
  | char c => exact escaped_escapeChar c
  | half unit =>
      have hunits := Escaped.units (.half unit)
      rwa [Symbol.units, List.flatMap_singleton] at hunits

/-- A code unit has four hexadecimal digits, and they stand for it. -/
theorem exists_hex_four (unit : UInt16) :
    ∃ h₃ h₂ h₁ h₀,
      Text.hex 4 unit.toNat = [h₃, h₂, h₁, h₀] ∧
      Reader.codeUnit? [h₃, h₂, h₁, h₀] = some unit ∧
      ∀ d ∈ [h₃, h₂, h₁, h₀], ∃ value < 16, d = Nat.digitChar value := by
  have hsize : unit.toNat < 0x10000 := unit.toNat_lt
  have hlength : (Text.hex 4 unit.toNat).length = 4 := by
    have hle : (Nat.toDigits 16 unit.toNat).length ≤ 4 :=
      (Nat.length_toDigits_le_iff (by decide) (by decide)).2 (by omega)
    simp only [Text.hex, List.length_append, List.length_replicate]
    omega
  have hdigits : ∀ d ∈ Text.hex 4 unit.toNat, ∃ value < 16, d = Nat.digitChar value := by
    intro d hd
    rcases List.mem_append.1 hd with hzero | hdigit
    · exact ⟨0, by decide, List.eq_of_mem_replicate hzero⟩
    · exact Number.exists_digit_of_mem_toDigits (by decide) hdigit
  have hvalue : Number.ofDigits 16 (Text.hex 4 unit.toNat) = unit.toNat := by
    rw [Text.hex, Number.ofDigits_append, Number.ofDigits_zeros, zero_mul, zero_add,
      Number.ofDigits_toDigits (by decide) (by decide)]
  obtain ⟨h₃, h₂, h₁, h₀, hhex⟩ := List.length_eq_four.1 hlength
  rw [hhex] at hdigits hvalue
  have hall : ∀ d ∈ [h₃, h₂, h₁, h₀], Number.isHexDigit d = true := by
    intro d hd
    obtain ⟨value, hlt, rfl⟩ := hdigits d hd
    exact Number.isHexDigit_digitChar value hlt
  refine ⟨h₃, h₂, h₁, h₀, hhex, ?_, hdigits⟩
  rw [Reader.codeUnit?, if_pos (List.all_eq_true.2 hall), hvalue, UInt16.ofNat_toNat]

end Writer

namespace Reader

open Writer

section Units

variable {start : Nat}
variable {tail : List Char}

theorem prepend_prepend
    (front others : List UInt16)
    (reading : Reading (List UInt16)) :
    prepend front (prepend others reading) = prepend (front ++ others) reading := by
  cases reading <;> simp [prepend]

theorem units_plain
    {c : Char}
    (hlow : 0x20 ≤ c.toNat)
    (hquote : c ≠ Text.doubleQuote)
    (hbackslash : c ≠ Text.backslash) :
    units start (c :: tail) = prepend (Symbol.unitsOfChar c) (units start tail) := by
  rw [units.eq_def]
  simp only [if_neg hquote, if_neg hbackslash, if_neg (Nat.not_lt.2 hlow)]

theorem units_letter
    {c e : Char}
    (h : simpleEscape? e = some c) :
    units start (Text.backslash :: e :: tail) =
      prepend (Symbol.unitsOfChar c) (units start tail) := by
  have hne : e ≠ 'u' := by
    rintro rfl
    contradiction
  rw [units.eq_def]
  simp only [if_neg (show Text.backslash ≠ Text.doubleQuote by decide), if_true]
  split
  · contradiction
  · next heq =>
      cases heq
      contradiction
  · next heq =>
      cases heq
      contradiction
  · next heq =>
      cases heq
      rw [h]

/-- The escape of a code unit is read if the string goes on after it. -/
theorem units_unitEscape
    (unit : UInt16)
    (htail : tail ≠ []) :
    units start (unitEscape unit ++ tail) = prepend [unit] (units start tail) := by
  obtain ⟨h₃, h₂, h₁, h₀, hhex, hunit, -⟩ := exists_hex_four unit
  cases tail with
  | nil => contradiction
  | cons next rest =>
      rw [unitEscape, hhex, units.eq_def]
      simp only [List.cons_append, List.nil_append,
        if_neg (show Text.backslash ≠ Text.doubleQuote by decide), if_true, hunit]

theorem units_unitEscapes
    (all : List UInt16)
    (htail : tail ≠ []) :
    units start (all.flatMap unitEscape ++ tail) = prepend all (units start tail) := by
  induction all with
  | nil =>
      simp only [List.flatMap_nil, List.nil_append]
      cases units start tail <;> rfl
  | cons unit all ih =>
      have hne : all.flatMap unitEscape ++ tail ≠ [] := List.append_ne_nil_of_right_ne_nil _ htail
      rw [List.flatMap_cons, List.append_assoc, units_unitEscape unit hne, ih, prepend_prepend,
        List.singleton_append]

theorem units_escapeSymbol
    (symbol : Symbol)
    (htail : tail ≠ []) :
    units start (escapeSymbol symbol ++ tail) = prepend symbol.units (units start tail) := by
  have hescaped := escaped_escapeSymbol symbol
  generalize escapeSymbol symbol = written at *
  cases hescaped with
  | letter h => exact units_letter h
  | plain hlow hhigh hquote hbackslash => exact units_plain hlow hquote hbackslash
  | units => exact units_unitEscapes symbol.units htail

theorem units_written
    (symbols : List Symbol)
    (rest : List Char) :
    units start (symbols.flatMap escapeSymbol ++ Text.doubleQuote :: rest) =
      .ok (symbols.flatMap Symbol.units, rest) := by
  induction symbols with
  | nil => exact units.eq_def .. ▸ if_pos rfl
  | cons symbol symbols ih =>
      rw [List.flatMap_cons, List.append_assoc, units_escapeSymbol symbol (by simp), ih]
      rfl

end Units

/-- A written string reads back, once its opening quote has been taken. -/
theorem string_string
    (s : Text)
    (rest : List Char) :
    string (s.symbols.flatMap escapeSymbol ++ Text.doubleQuote :: rest) = .ok (s, rest) := by
  rw [string, units_written]
  exact congrArg (fun text => Except.ok (text, rest)) (Text.ofUnits_units s)

end Reader

end Json
end ChangeFeed
