import ChangeFeed.Column.Coercion
import ChangeFeed.Proofs.Number.Integers
import ChangeFeed.Proofs.Text.Letters
import Mathlib.Data.Int.ConditionallyCompleteOrder
import Mathlib.Order.Interval.Set.Defs

/-!
# The texts of integer and boolean columns

Which texts are values of integers and of booleans, and of which. An integer is
spelled in ASCII with nothing around it, and has to be one of its class: an integer
beyond the class is refused and not brought into it. A boolean is one of two words in
ASCII letters of either case. Everything else is refused, with the text as it was.

**Results.**

* `integer?_eq_some_iff`, `boolean?_eq_some_iff`: what the readers of the classes accept.
* `coerce_discrete_iff`: the values of the texts, the texts of the integers.
-/

namespace ChangeFeed
namespace Coercion

open Number.Integer (Spelling padded)

/-- The integers of a class of integers. -/
def integers : TypeClass → Set Int
  | .int32 => Set.Icc (-2 ^ 31) (2 ^ 31 - 1)
  | .int64 => Set.Icc (-2 ^ 63) (2 ^ 63 - 1)
  | _ => ∅

/-- The word for a truth value. -/
def truthWord : Bool → String
  | true => "true"
  | false => "false"

/-- Which value a text stands for in a class of integers or of booleans. -/
inductive StandsFor (raw : String) : TypeClass → Value → Prop where
  | integer
      {typeClass : TypeClass}
      (s : Spelling)
      (hchars : s.chars = raw.toList)
      (hreadable : s.IsReadable)
      (hrange : s.value ∈ integers typeClass) :
      StandsFor raw typeClass (.integer s.value)
  | boolean
      (b : Bool)
      (hword : raw.map Char.toLower = truthWord b) :
      StandsFor raw .boolean (.boolean b)

section Readers

variable {raw : String}

theorem integer?_eq_some_iff
    {low high n : Int} :
    integer? low high raw = some n ↔
      ∃ s : Spelling,
        s.chars = raw.toList ∧ s.IsReadable ∧ s.value = n ∧ n ∈ Set.Icc low high := by
  simp only [integer?, Option.bind_eq_bind, Option.bind_eq_some_iff,
    Number.Integer.ofChars?_eq_some_iff]
  constructor
  · rintro ⟨m, ⟨s, hchars, hreadable, hvalue⟩, hm⟩
    split at hm
    · next hrange =>
        cases hm
        exact ⟨s, hchars, hreadable, hvalue, hrange⟩
    · contradiction
  · rintro ⟨s, hchars, hreadable, hvalue, hrange⟩
    exact ⟨n, ⟨s, hchars, hreadable, hvalue⟩, if_pos hrange⟩

/-- No text beyond ASCII becomes one of the two words in small letters. -/
theorem lower_eq_truthWord_iff (b : Bool) :
    Text.lower raw = truthWord b ↔ raw.map Char.toLower = truthWord b := by
  have hascii : ∀ d ∈ (truthWord b).toList, d.toNat < 0x80 := by
    cases b <;> simp [truthWord]
  exact Text.lower_eq_iff hascii (by cases b <;> decide)

theorem boolean?_eq_some_iff
    {b : Bool} :
    boolean? raw = some b ↔ raw.map Char.toLower = truthWord b := by
  rw [← lower_eq_truthWord_iff, boolean?]
  by_cases htrue : Text.lower raw = "true"
  · rw [if_pos htrue, htrue]
    cases b <;> decide
  · rw [if_neg htrue]
    by_cases hfalse : Text.lower raw = "false"
    · rw [if_pos hfalse, hfalse]
      cases b <;> decide
    · rw [if_neg hfalse]
      refine iff_of_false (by simp) ?_
      cases b
      · exact hfalse
      · exact htrue

theorem standsFor_integers_iff
    (typeClass : TypeClass)
    {v : Value}
    (h : typeClass ≠ .boolean) :
    StandsFor raw typeClass v ↔
      ∃ n, (∃ s : Spelling,
        s.chars = raw.toList ∧ s.IsReadable ∧ s.value = n ∧ n ∈ integers typeClass) ∧
          .integer n = v := by
  constructor
  · rintro (⟨s, hchars, hreadable, hrange⟩ | ⟨b, -⟩)
    · exact ⟨s.value, ⟨s, hchars, hreadable, rfl, hrange⟩, rfl⟩
    · exact absurd rfl h
  · rintro ⟨n, ⟨s, hchars, hreadable, rfl, hrange⟩, rfl⟩
    exact .integer s hchars hreadable hrange

theorem standsFor_boolean_iff
    {v : Value} :
    StandsFor raw .boolean v ↔
      ∃ b, raw.map Char.toLower = truthWord b ∧ .boolean b = v := by
  constructor
  · rintro (⟨s, -, -, hrange⟩ | ⟨b, hword⟩)
    · exact absurd hrange (Set.notMem_empty _)
    · exact ⟨b, hword, rfl⟩
  · rintro ⟨b, hword, rfl⟩
    exact .boolean b hword

/-- The readers of the three classes accept what a text stands for. -/
theorem read?_eq_some_iff_standsFor
    {raw : Text}
    {typeClass : TypeClass}
    {v : Value}
    (h : typeClass = .int32 ∨ typeClass = .int64 ∨ typeClass = .boolean) :
    read? typeClass raw = some v ↔ StandsFor raw.shown typeClass v := by
  rcases h with rfl | rfl | rfl
  · simp only [read?, Option.map_eq_some_iff, integer?_eq_some_iff]
    exact (standsFor_integers_iff .int32 (by decide)).symm
  · simp only [read?, Option.map_eq_some_iff, integer?_eq_some_iff]
    exact (standsFor_integers_iff .int64 (by decide)).symm
  · simp only [read?, Option.map_eq_some_iff, boolean?_eq_some_iff]
    exact standsFor_boolean_iff.symm

end Readers

/--
A text of a column of integers or booleans is coerced to what it stands for, to nothing
else, and else refused, as it is with half of a pair in it. The integers of the class have
texts: their digits after any number of zeros that leaves no more digits than are read.
-/
theorem coerce_discrete_iff
    {code : Int}
    (column : Json)
    (raw : Text)
    (hcode :
      TypeClass.ofCode code = .int32 ∨
        TypeClass.ofCode code = .int64 ∨
        TypeClass.ofCode code = .boolean) :
    (∀ v, coerce false code column raw = .ok v ↔ StandsFor raw.shown (.ofCode code) v) ∧
      ((∀ v, ¬ StandsFor raw.shown (.ofCode code) v) →
        coerce false code column raw = .error ⟨raw, code, column⟩) ∧
      (∀ n ∈ integers (.ofCode code), ∀ zeros,
        zeros + (Nat.toDigits 10 n.natAbs).length ≤ 4300 →
          coerce false code column (padded zeros n) = .ok (.integer n)) ∧
      (∀ b, Text.lower raw.shown = truthWord b ↔ raw.shown.map Char.toLower = truthWord b) := by
  refine ⟨fun v => ?_, fun hnone => ?_, fun n hn zeros hlength => ?_, lower_eq_truthWord_iff⟩
  · rw [coerce_eq_ok_iff, read?_eq_some_iff_standsFor hcode]
  · rw [coerce_eq_error_iff, Option.eq_none_iff_forall_ne_some]
    exact fun v hv => hnone v ((read?_eq_some_iff_standsFor hcode).1 hv)
  · rw [coerce_eq_ok_iff, read?_eq_some_iff_standsFor hcode]
    obtain ⟨s, hchars, hdigits, rfl⟩ := Number.Integer.exists_padded zeros n
    have hpos : 0 < (Nat.toDigits 10 s.value.natAbs).length := Nat.length_toDigits_pos
    exact .integer s hchars ⟨by omega, hdigits ▸ hlength⟩ hn

/-- The least integer of a class with a zero before it, and the first beyond the class. -/
theorem coerce_discrete_iff_edges :
    coerce false 4 (.text "STOCK") "-02147483648" = .ok (.integer (-2147483648)) ∧
      coerce false 4 (.text "STOCK") "2147483648" =
        .error ⟨"2147483648", 4, .text "STOCK"⟩ ∧
      coerce false 16 (.text "SOLD") "tRUE" = .ok (.boolean true) := by
  have hbeyond (v : Value) : ¬ StandsFor "2147483648" (.ofCode 4) v := by
    rintro (⟨s, hchars, hreadable, hrange⟩ | -)
    have hread : Number.Integer.ofChars? "2147483648".toList = some 2147483648 := by decide
    rw [Number.Integer.ofChars?_eq_some_iff.2 ⟨s, hchars, hreadable, rfl⟩] at hread
    rw [Option.some.inj hread] at hrange
    exact absurd hrange.2 (by decide)
  have hleast : -2147483648 ∈ integers (.ofCode 4) := ⟨by decide, by decide⟩
  have hword : "tRUE".map Char.toLower = truthWord true := by
    rw [← String.toList_inj, String.toList_map]
    decide
  exact
    ⟨(coerce_discrete_iff _ "" (Or.inl (by decide))).2.2.1 _ hleast 1 (by decide),
      (coerce_discrete_iff _ _ (Or.inl (by decide))).2.1 hbeyond,
      ((coerce_discrete_iff _ _ (Or.inr (Or.inr (by decide)))).1 _).2 (.boolean true hword)⟩

end Coercion
end ChangeFeed
