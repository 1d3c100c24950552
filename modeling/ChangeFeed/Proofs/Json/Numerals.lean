import ChangeFeed.Json.Writer
import ChangeFeed.Proofs.Json.Tokens
import ChangeFeed.Proofs.Number.Shortest

/-!
# Numbers are written as tokens

The layouts of a decimal are tokens that stand for it, so the text of a finite double
is a token that is no integer, and the double is nearest to it. Integers are written as
tokens without a point and an exponent.

**Results.**

* `exists_spells_layout`: a layout is a token of the same value.
* `exists_token_text`, `exists_token_integer`: finite doubles and integers are
  written as tokens of theirs.
-/

namespace ChangeFeed
namespace Json

open Number
  (Decimal Double ExponentSpelling Floating Format Literal Spelling isDigit ofDigits)

/-- A token that is no integer, with what it stands for and its text, the sign apart. -/
structure Spells
    (d : Spelling)
    (negative : Bool)
    (body : List Char)
    (x : Rat) : Prop where
  isToken : IsToken d
  isFractional : ¬ IsIntegral d
  sign : d.sign = if negative then .minus else .absent
  bodyChars : d.bodyChars = body
  magnitude : d.magnitude = x

namespace Spells

variable {d : Spelling}
variable {negative : Bool}
variable {body : List Char}
variable {x : Rat}

theorem chars
    (h : Spells d negative body x) :
    d.chars = if negative then '-' :: body else body := by
  rw [Spelling.chars, h.sign, h.bodyChars]
  cases negative <;> rfl

theorem nearest
    (h : Spells d negative body x) :
    d.literal.nearest .binary64 = Format.binary64.nearest negative x := by
  have hnegative : d.literal.negative = negative := by
    rw [Spelling.literal, h.sign]
    cases negative <;> rfl
  rw [Literal.nearest_double, Spelling.magnitude_literal, hnegative, h.magnitude]

/-- Digits with a point among them or an exponent after them, taken together. -/
theorem of_spell
    {whole : List Char}
    {fraction : Option (List Char)}
    {exponent : Option (ExponentSpelling .decimal)}
    {hwhole : whole ≠ []}
    {hdigits : ∀ c ∈ whole ++ fraction.getD [], isDigit c = true}
    (hleading : whole = ['0'] ∨ whole.head? ≠ some '0')
    (hfraction : fraction ≠ some [])
    (hfractional : fraction ≠ none ∨ exponent ≠ none)
    (hbody :
      whole ++
          ((fraction.map (List.cons '.')).getD [] ++
            (exponent.map ExponentSpelling.chars).getD []) =
        body)
    (hvalue :
      ofDigits 10 (whole ++ fraction.getD []) *
          10 ^ ((exponent.map ExponentSpelling.power).getD 0 - (fraction.getD []).length) =
        x) :
    Spells (spell negative whole fraction exponent hwhole hdigits) negative body x where
  isToken := isToken_spell negative exponent hwhole hdigits hleading hfraction
  isFractional := fun hintegral =>
    hfractional.elim (absurd hintegral.1) (absurd hintegral.2)
  sign := rfl
  bodyChars := (bodyChars_spell negative hwhole hdigits).trans hbody
  magnitude := by
    rw [(isToken_spell negative exponent hwhole hdigits hleading hfraction).magnitude_eq, ← hvalue]
    cases exponent <;> rfl

end Spells

section Layout

variable {digits : List Char}
variable {e : Int}

/-- What a run of digits with this exponent for its first one stands for. -/
def valueOfRun (digits : List Char) (e : Int) : Rat :=
  ofDigits 10 digits * 10 ^ (e - (digits.length - 1))

theorem isDigit_of_mem_zeros
    {count : Nat}
    {c : Char}
    (h : c ∈ Number.zeros count) :
    isDigit c = true := by
  rw [List.eq_of_mem_replicate h]
  rfl

/-- A layout with zeros after the point. -/
theorem exists_spells_of_small
    (negative : Bool)
    (hdigits : ∀ c ∈ digits, isDigit c = true)
    (hne : digits ≠ [])
    (he : e < 0) :
    ∃ d,
      Spells d negative ('0' :: '.' :: (Number.zeros (-e - 1).toNat ++ digits))
        (valueOfRun digits e) := by
  have hparts :
      ∀ c ∈ ['0'] ++ (some (Number.zeros (-e - 1).toNat ++ digits)).getD [], isDigit c = true := by
    intro c hc
    simp only [Option.getD_some, List.cons_append, List.nil_append, List.mem_cons,
      List.mem_append] at hc
    rcases hc with rfl | hzero | hdigit
    · rfl
    · exact isDigit_of_mem_zeros hzero
    · exact hdigits c hdigit
  have hrun :
      ofDigits 10 (['0'] ++ (Number.zeros (-e - 1).toNat ++ digits)) = ofDigits 10 digits := by
    rw [Number.ofDigits_append, Number.ofDigits_append, Number.zeros, Number.ofDigits_zeros]
    simp [ofDigits, Number.digitValue, isDigit]
  have hlength :
      (0 : Int) - ((Number.zeros (-e - 1).toNat ++ digits).length : Nat) =
        e - (digits.length - 1) := by
    simp only [Number.zeros, List.length_append, List.length_replicate]
    omega
  refine ⟨spell negative ['0'] _ none (List.cons_ne_nil _ _) hparts,
    .of_spell (Or.inl rfl) (by simp [hne]) (Or.inl (by simp)) (by simp) ?_⟩
  simp only [Option.getD_some, Option.map_none, Option.getD_none, hrun, hlength, valueOfRun]

/-- A layout with zeros before the point. -/
theorem exists_spells_of_integral
    (negative : Bool)
    (hdigits : ∀ c ∈ digits, isDigit c = true)
    (hne : digits ≠ [])
    (hhead : digits.head? ≠ some '0')
    (he : 0 ≤ e)
    (hlength : digits.length ≤ e.toNat + 1) :
    ∃ d,
      Spells d negative (digits ++ Number.zeros (e.toNat + 1 - digits.length) ++ ['.', '0'])
        (valueOfRun digits e) := by
  have hparts :
      ∀ c ∈ (digits ++ Number.zeros (e.toNat + 1 - digits.length)) ++ (some ['0']).getD [],
        isDigit c = true := by
    intro c hc
    simp only [Option.getD_some, List.mem_append, List.mem_singleton] at hc
    rcases hc with (hdigit | hzero) | rfl
    · exact hdigits c hdigit
    · exact isDigit_of_mem_zeros hzero
    · rfl
  have hrun :
      ofDigits 10 (digits ++ Number.zeros (e.toNat + 1 - digits.length) ++ ['0']) =
        ofDigits 10 digits * 10 ^ (e.toNat + 1 - digits.length) * 10 := by
    rw [Number.ofDigits_append, Number.ofDigits_append, Number.zeros, Number.ofDigits_zeros]
    simp [ofDigits, Number.digitValue, isDigit]
  have hpower :
      (10 : Rat) ^ (e - (digits.length - 1)) = 10 ^ (e.toNat + 1 - digits.length) := by
    rw [← zpow_natCast]
    congr 1
    omega
  have htenth : (10 : Rat) ^ ((0 : Int) - ((['0'] : List Char).length : Nat)) = 1 / 10 := by
    norm_num
  refine ⟨spell negative _ (some ['0']) none (by simp [hne]) hparts,
    .of_spell (Or.inr (by rwa [List.head?_append_of_ne_nil _ hne])) (by simp) (Or.inl (by simp))
      ?_ ?_⟩
  · simp
  · simp only [Option.getD_some, Option.map_none, Option.getD_none, hrun, hpower, htenth,
      valueOfRun]
    push_cast
    ring

/-- A layout with the point among the digits. -/
theorem exists_spells_of_pointed
    (negative : Bool)
    (hdigits : ∀ c ∈ digits, isDigit c = true)
    (hhead : digits.head? ≠ some '0')
    (he : 0 ≤ e)
    (hlength : e.toNat + 1 < digits.length) :
    ∃ d,
      Spells d negative (digits.take (e.toNat + 1) ++ '.' :: digits.drop (e.toNat + 1))
        (valueOfRun digits e) := by
  obtain ⟨first, rest, rfl⟩ := List.exists_cons_of_length_pos (Nat.zero_lt_of_lt hlength)
  have hfraction : (first :: rest).drop (e.toNat + 1) ≠ [] := by
    simpa using hlength
  have hparts :
      ∀ c ∈ (first :: rest).take (e.toNat + 1) ++
          (some ((first :: rest).drop (e.toNat + 1))).getD [],
        isDigit c = true := by
    rwa [Option.getD_some, List.take_append_drop]
  have hexponent :
      (0 : Int) - (((first :: rest).drop (e.toNat + 1)).length : Nat) =
        e - ((first :: rest).length - 1) := by
    rw [List.length_drop]
    omega
  refine ⟨spell negative _ (some _) none (by simp) hparts,
    .of_spell (Or.inr (by simpa using hhead)) (by simpa using hfraction) (Or.inl (by simp))
      (by simp) ?_⟩
  simp only [Option.getD_some, Option.map_none, Option.getD_none, List.take_append_drop, hexponent,
    valueOfRun]

/-- The exponent that is written of a number. -/
def exponentOf (e : Int) : ExponentSpelling .decimal where
  letter := 'e'
  sign := if e < 0 then .minus else .plus
  digits := Number.zeros (2 - (Nat.toDigits 10 e.natAbs).length) ++ Nat.toDigits 10 e.natAbs
  letter_mem := Number.LiteralForm.e_mem_exponentLetters
  digits_ne_nil := by simp [Nat.toDigits_ne_nil]
  all_isDigit := by
    refine List.all_eq_true.2 fun c hc => ?_
    rcases List.mem_append.1 hc with hzero | hdigit
    · exact isDigit_of_mem_zeros hzero
    · exact Number.isDigit_of_mem_toDigits hdigit

theorem chars_exponentOf (e : Int) :
    (exponentOf e).chars = Number.exponentText e := by
  simp only [ExponentSpelling.chars, exponentOf, Number.exponentText]
  split <;> rfl

theorem power_exponentOf (e : Int) :
    (exponentOf e).power = e := by
  simp only [ExponentSpelling.power, exponentOf]
  rw [Number.ofDigits_append, Number.zeros, Number.ofDigits_zeros, zero_mul, zero_add,
    Number.ofDigits_toDigits_ten]
  exact Number.Sign.signedInt_ite rfl e

/-- A layout with an exponent. -/
theorem exists_spells_of_scientific
    (negative : Bool)
    {first : Char}
    {rest : List Char}
    (hdigits : ∀ c ∈ first :: rest, isDigit c = true)
    (hhead : first ≠ '0')
    (e : Int) :
    ∃ d,
      Spells d negative
        (first :: ((if rest = [] then [] else '.' :: rest) ++ Number.exponentText e))
        (valueOfRun (first :: rest) e) := by
  have hplaces : (if rest = [] then none else some rest).getD [] = rest := by
    split
    · next hnil => exact hnil.symm
    · rfl
  have hparts :
      ∀ c ∈ [first] ++ (if rest = [] then none else some rest).getD [], isDigit c = true := by
    rwa [hplaces]
  refine ⟨spell negative [first] _ (some (exponentOf e)) (List.cons_ne_nil _ _) hparts,
    .of_spell (Or.inr (by simpa using hhead)) (by split <;> simp_all) (Or.inr (by simp)) ?_ ?_⟩
  · rw [Option.map_some, Option.getD_some, chars_exponentOf]
    split <;> simp
  · simp only [hplaces, Option.map_some, Option.getD_some, power_exponentOf, valueOfRun,
      List.singleton_append, List.length_cons]
    congr 2
    omega

/-- A layout of digits is a token that stands for what the digits do. -/
theorem exists_spells_layout
    (negative : Bool)
    (hdigits : ∀ c ∈ digits, isDigit c = true)
    (hne : digits ≠ [])
    (hhead : digits.head? ≠ some '0')
    (e : Int) :
    ∃ d, Spells d negative (Number.layout digits e) (valueOfRun digits e) := by
  unfold Number.layout
  split
  · next h => exact exists_spells_of_small negative hdigits hne h.2
  · split
    · next h =>
        simp only
        split
        · next hlength => exact exists_spells_of_integral negative hdigits hne hhead h.1 hlength
        · next hlength =>
            exact exists_spells_of_pointed negative hdigits hhead h.1 (by omega)
    · cases digits with
      | nil => exact absurd rfl hne
      | cons first rest =>
          have hscientific :=
            exists_spells_of_scientific negative hdigits
              (fun heq => hhead (by rw [heq]; rfl)) e
          cases rest with
          | nil => exact hscientific
          | cons second rest => exact hscientific

end Layout

section Text

/-- A run of digits without the zeros at its end, and these zeros. -/
theorem exists_zeros_eq_append (run : List Char) :
    ∃ count,
      run = (run.reverse.dropWhile (· = '0')).reverse ++ List.replicate count '0' := by
  induction run using List.reverseRecOn with
  | nil =>
      exact ⟨0, rfl⟩
  | append_singleton run c ih =>
      by_cases hzero : c = '0'
      · obtain ⟨count, hrun⟩ := ih
        have hdrop :
            ((run ++ [c]).reverse.dropWhile (· = '0')).reverse =
              (run.reverse.dropWhile (· = '0')).reverse := by
          simp [hzero]
        refine ⟨count + 1, ?_⟩
        rw [hdrop, List.replicate_succ', ← List.append_assoc, ← hrun, hzero]
      · exact ⟨0, by simp [hzero]⟩

/-- The digits of a decimal stand for it. -/
theorem digits_decimal
    {d : Decimal}
    (hd : d.coefficient ≠ 0) :
    (∀ c ∈ d.digits, isDigit c = true) ∧
      d.digits ≠ [] ∧
      d.digits.head? ≠ some '0' ∧
      valueOfRun d.digits d.leadingExponent = d.value := by
  obtain ⟨count, hrun⟩ := exists_zeros_eq_append (Nat.toDigits 10 d.coefficient)
  change Nat.toDigits 10 d.coefficient = d.digits ++ List.replicate count '0' at hrun
  have hhead := Number.head?_toDigits_ne_zero hd
  have hne : d.digits ≠ [] := by
    intro hnil
    rw [hnil, List.nil_append] at hrun
    cases count with
    | zero => exact Nat.toDigits_ne_nil hrun
    | succ count =>
        rw [hrun] at hhead
        exact hhead rfl
  refine ⟨fun c hc => ?_, hne, ?_, ?_⟩
  · exact Number.isDigit_of_mem_toDigits (hrun ▸ List.mem_append_left _ hc)
  · rwa [hrun, List.head?_append_of_ne_nil _ hne] at hhead
  · have hcoefficient : d.coefficient = ofDigits 10 d.digits * 10 ^ count := by
      have hvalue : ofDigits 10 (Nat.toDigits 10 d.coefficient) = d.coefficient :=
        Number.ofDigits_toDigits_ten _
      rw [hrun, Number.ofDigits_append, Number.ofDigits_zeros, List.length_replicate] at hvalue
      exact hvalue.symm
    have hleading : d.leadingExponent - (d.digits.length - 1) = count + d.exponent := by
      have hlength := congrArg List.length hrun
      rw [List.length_append, List.length_replicate] at hlength
      simp only [Decimal.leadingExponent, Number.decimalLength, hlength]
      omega
    rw [valueOfRun, Decimal.value, hleading, hcoefficient, zpow_add₀ (by norm_num), zpow_natCast]
    push_cast
    ring

/-- The text of a finite double spells a number that the double is nearest to. -/
theorem exists_spells_text
    (negative : Bool)
    (m : Nat)
    (q : Int)
    (h : Format.binary64.Canonical m q) :
    ∃ d body x,
      Spells d negative body x ∧
        (Floating.finite negative m q h).text.toList = (if negative then '-' :: body else body) ∧
        Format.binary64.nearest negative x = .finite negative m q h := by
  simp only [Floating.text, String.toList_ofList]
  by_cases hm : m = 0
  · subst hm
    refine ⟨spell negative ['0'] (some ['0']) none (by simp) (by simp [isDigit]), _, 0,
      .of_spell (Or.inl rfl) (by simp) (Or.inl (by simp)) rfl ?_, rfl, ?_⟩
    · simp [ofDigits, Number.digitValue, isDigit]
    · simpa using Format.nearest_of_canonical negative h
  · obtain ⟨d, hd⟩ :
        ∃ d, d = Number.Shortest.decimal (.finite false m q h) (m * 2 ^ q) := ⟨_, rfl⟩
    have hnearest : Format.binary64.nearest false d.value = .finite false m q h :=
      hd ▸ Number.Shortest.nearest_value_decimal h (Nat.pos_of_ne_zero hm) (by decide)
    have hcoefficient : d.coefficient ≠ 0 := by
      intro hzero
      rw [Decimal.value, hzero, Nat.cast_zero, zero_mul] at hnearest
      simp only [Format.nearest, if_true, Floating.zero, Floating.finite.injEq] at hnearest
      exact hm hnearest.2.1.symm
    obtain ⟨hdigits, hne, hhead, hvalue⟩ := digits_decimal hcoefficient
    obtain ⟨spelled, hspells⟩ :=
      exists_spells_layout negative hdigits hne hhead d.leadingExponent
    refine ⟨spelled, _, _, hspells, ?_, ?_⟩
    · rw [if_neg hm, ← hd]
    · rw [hvalue]
      exact Format.nearest_of_nearest_false hnearest negative

/-- The text of a finite double is a token, with a point or an exponent, and the double nearest. -/
theorem exists_token_text
    {x : Double}
    (hx : x.isFinite = true) :
    ∃ d : Spelling,
      IsToken d ∧
        ¬ IsIntegral d ∧
        d.chars = x.text.toList ∧
        d.literal.nearest .binary64 = x := by
  cases x with
  | nan => contradiction
  | infinite negative => contradiction
  | finite negative m q h =>
      obtain ⟨d, body, x, hspells, htext, hnearest⟩ := exists_spells_text negative m q h
      refine ⟨d, hspells.isToken, hspells.isFractional, ?_, ?_⟩
      · rw [hspells.chars, htext]
      · rw [hspells.nearest, hnearest]

/-- The text of an integer is a token without a point and an exponent. -/
theorem exists_token_integer (n : Int) :
    ∃ d : Spelling,
      IsToken d ∧
        IsIntegral d ∧
        d.chars = Writer.integer n ∧
        d.whole = Nat.toDigits 10 n.natAbs ∧
        d.sign.negative = decide (n < 0) := by
  have hdigits : ∀ c ∈ Nat.toDigits 10 n.natAbs ++ (none : Option (List Char)).getD [],
      isDigit c = true := by
    intro c hc
    rw [Option.getD_none, List.append_nil] at hc
    exact Number.isDigit_of_mem_toDigits hc
  have hleading :
      Nat.toDigits 10 n.natAbs = ['0'] ∨ (Nat.toDigits 10 n.natAbs).head? ≠ some '0' := by
    by_cases hn : n = 0
    · subst hn
      exact Or.inl rfl
    · exact Or.inr (Number.head?_toDigits_ne_zero (Int.natAbs_ne_zero.2 hn))
  refine ⟨spell (decide (n < 0)) _ none none Nat.toDigits_ne_nil hdigits,
    isToken_spell _ none _ hdigits hleading (by simp), ⟨rfl, rfl⟩, ?_, rfl, ?_⟩
  · by_cases hn : n < 0 <;>
      simp [spell, Spelling.chars, Spelling.bodyChars, Spelling.pointChars, Spelling.tailChars,
        Number.Sign.chars, Writer.integer, hn]
  · by_cases hn : n < 0 <;> simp [spell, Number.Sign.negative, hn]

end Text

end Json
end ChangeFeed
