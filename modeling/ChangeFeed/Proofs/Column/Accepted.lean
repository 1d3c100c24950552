import ChangeFeed.Proofs.Column.Double
import ChangeFeed.Proofs.Column.Middle
import ChangeFeed.Proofs.Number.Spelled

/-!
# The texts of floating-point columns

Which texts are values of doubles and of singles, said by the grammar of literals and
by what the values of literals are. A double is any literal that does not round to an
infinity. A single is any literal at all or one of six words, but where the nearest
double is in the middle between two singles, the exponent of a hexadecimal literal has
to be short enough to be looked at. Everything else is refused, with the text as it was.

**Results.**

* `isSome_double?_iff`, `isSome_single?_iff`: the texts of the two classes.
* `coerce_floating_iff`: they are coerced, and no other text is.
-/

namespace ChangeFeed
namespace Coercion

open Number (Double Literal Spelling)

/--
Whether a text without blanks around it stands for a value of a floating-point class:
a literal whose nearest double is finite for doubles; for singles a word, or a literal
that is not a hexadecimal one in the middle of two singles with an exponent too long.
-/
def IsFloatingText
    (typeClass : TypeClass)
    (text : List Char) : Prop :=
  match typeClass with
  | .double =>
      ∃ (s : Spelling) (x : Double),
        s.chars = text ∧
          x.IsNearest s.sign.negative s.value ∧
          x.isFinite = true
  | .single =>
      String.ofList text ∈ ["NaN", "+NaN", "-NaN", "Infinity", "+Infinity", "-Infinity"] ∨
        ∃ (s : Spelling) (x : Double),
          s.chars = text ∧
            x.IsNearest s.sign.negative s.value ∧
            ¬ (s.form = .hexadecimal ∧ 4300 < s.exponentDigits ∧ IsMiddle x)
  | _ => False

section Texts

variable {code : Int}
variable {raw : String}
variable {text : List Char}

/-- What is read through a literal is read from the spellings. -/
theorem isSome_bind_ofChars?_iff
    {α : Type}
    {read : Literal → Option α} :
    ((Literal.ofChars? text).bind read).isSome = true ↔
      ∃ s : Spelling, s.chars = text ∧ (read s.literal).isSome = true := by
  constructor
  · intro h
    obtain ⟨y, hy⟩ := Option.isSome_iff_exists.1 h
    obtain ⟨l, hl, hread⟩ := Option.bind_eq_some_iff.1 hy
    obtain ⟨s, hchars, rfl⟩ := Spelling.ofChars?_eq_some_iff.1 hl
    exact ⟨s, hchars, Option.isSome_iff_exists.2 ⟨y, hread⟩⟩
  · rintro ⟨s, rfl, hread⟩
    rwa [s.ofChars?_chars, Option.bind_some]

/-- The doubles that are refused are those that are not finite. -/
theorem isSome_toPlaces?
    (x : Double) :
    (toPlaces? x).isSome = x.isFinite := by
  cases hx : x.isFinite with
  | false => rw [toPlaces?_of_not_isFinite hx, Option.isSome_none]
  | true => rw [toPlaces?_of_isFinite hx, Option.isSome_some]

/-- A text is read as a double just if it is the text of one. -/
theorem isSome_double?_iff :
    (double? raw).isSome = true ↔ IsFloatingText .double (Text.stripChars raw.toList) := by
  rw [double?, Option.bind_eq_bind, isSome_bind_ofChars?_iff]
  simp only [IsFloatingText, isSome_toPlaces?, isNearest_value_iff, exists_and_left,
    exists_eq_left]

/-- The words that are looked up. -/
theorem isSome_lookup_singleWords_iff :
    (singleWords.lookup (String.ofList text)).isSome = true ↔
      String.ofList text ∈ ["NaN", "+NaN", "-NaN", "Infinity", "+Infinity", "-Infinity"] := by
  rw [← not_iff_not, Bool.not_eq_true, Option.isSome_eq_false_iff, Option.isNone_iff_eq_none,
    List.lookup_eq_none_iff]
  simp [singleWords]

/-- The exact value of a literal is not known if its exponent is too long. -/
theorem exactValue?_eq_none_iff
    (l : Literal) :
    exactValue? l = none ↔ l.form = .hexadecimal ∧ 4300 < l.exponentDigits := by
  rw [exactValue?]
  split
  · next h => exact iff_of_true rfl h
  · next h => exact iff_of_false (by simp) h

/-- A text is read as a single just if it is the text of one. -/
theorem isSome_single?_iff :
    (single? raw).isSome = true ↔ IsFloatingText .single (Text.stripChars raw.toList) := by
  rw [single?, IsFloatingText, ← isSome_lookup_singleWords_iff]
  split
  · next x hword => simp [hword]
  · next hword =>
      have htaken (l : Literal) (x : Double) :
          (singleFrom? l x).isSome = true ↔
            ¬ (l.form = .hexadecimal ∧ 4300 < l.exponentDigits ∧ IsMiddle x) := by
        rw [Option.isSome_iff_ne_none, ne_eq, singleFrom?_eq_none_iff, exactValue?_eq_none_iff,
          and_comm, and_assoc]
      rw [Option.bind_eq_bind, isSome_bind_ofChars?_iff, hword, Option.isSome_none]
      simp only [htaken, isNearest_value_iff, exists_and_left, exists_eq_left,
        Bool.false_eq_true, false_or]
      rfl

/--
Of every text, the text without its blanks decides whether it is coerced in a
floating-point class: half of a pair is no part of a literal. Otherwise the text as it was
is reported as unreadable, with the type code and the column.
-/
theorem coerce_floating_iff
    (column : Json)
    (raw : Text)
    (hcode : TypeClass.ofCode code = .double ∨ TypeClass.ofCode code = .single) :
    ((∃ v, coerce false code column raw = .ok v) ↔
        IsFloatingText (.ofCode code) (Text.stripChars raw.shown.toList)) ∧
      (¬ IsFloatingText (.ofCode code) (Text.stripChars raw.shown.toList) →
        coerce false code column raw = .error ⟨raw, code, column⟩) := by
  have hread :
      (read? (.ofCode code) raw).isSome = true ↔
        IsFloatingText (.ofCode code) (Text.stripChars raw.shown.toList) := by
    rcases hcode with hdouble | hsingle
    · rw [hdouble, read?, Option.isSome_map, isSome_double?_iff]
    · rw [hsingle, read?, Option.isSome_map, isSome_single?_iff]
  rw [← hread, coerce_eq_error_iff, Option.isSome_iff_exists]
  exact
    ⟨exists_congr fun v => coerce_eq_ok_iff,
      fun hnone => Option.eq_none_iff_forall_ne_some.2 (not_exists.1 hnone)⟩

/-- A word for singles is no literal, so it is refused as a double. -/
theorem coerce_floating_iff_word :
    (∃ v, coerce false 7 (.text "PRICE") " +NaN " = .ok v) ∧
      coerce false 8 (.text "PRICE") " +NaN " = .error ⟨" +NaN ", 8, .text "PRICE"⟩ := by
  have hnone : Literal.ofChars? (Text.stripChars " +NaN ".toList) = none := by decide
  refine
    ⟨(coerce_floating_iff _ _ (Or.inr (by decide))).1.2 (Or.inl (by decide)),
      (coerce_floating_iff _ _ (Or.inl (by decide))).2 ?_⟩
  rintro ⟨s, x, hchars, -⟩
  exact absurd (hnone.symm.trans (Spelling.ofChars?_eq_some_iff.2 ⟨s, hchars, rfl⟩)) (by simp)

end Texts

end Coercion
end ChangeFeed
