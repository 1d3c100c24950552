import ChangeFeed.Proofs.Column.Double
import ChangeFeed.Proofs.Column.Middle
import ChangeFeed.Proofs.Number.Order

/-!
# The order of coerced literals

However a literal is written, in which form, with how many zeros and where its point
is, the value it is coerced to depends only on its sign and its exact value, and the
values are in the order of the literals. Both hold over the whole range of a class:
doubles are rounded twice, but both roundings keep the order; singles leave the nearest
ones only just below the overflow, where they are infinite already.

**Results.**

* `signedRounding_rounded`, `signedRounding_singleOf`: what literals are rounded to.
* `coerce_mono`: two literals of one class, of the same and of different spellings.
-/

namespace ChangeFeed

/-- Whether a floating-point value is not above another of its class. -/
def Value.AtMost : Value → Value → Prop
  | .double x, .double y => x.AtMost y
  | .single x, .single y => x.AtMost y
  | _, _ => False

namespace Coercion

open Number (Double Single Floating Spelling SignedRounding signed)
open Number.Format (binary32 binary64)

section Roundings

theorem rounded_neg (x : Double) :
    rounded x.neg = (rounded x).neg := by
  cases x with
  | nan => rfl
  | infinite negative => rfl
  | finite negative m q h =>
      obtain ⟨n, e, hnearest, hx⟩ := rounded_finite h
      rw [Floating.neg, hx, hx]
      rfl

/-- The order of doubles, the infinite ones included, is kept when they are rounded. -/
theorem rounded_atMost
    {x y : Double}
    (h : x.AtMost y) :
    (rounded x).AtMost (rounded y) := by
  cases x with
  | nan => exact h.elim
  | infinite negative =>
      cases y with
      | nan => exact h.elim
      | infinite negative' => exact h
      | finite negative' m' q' hm' =>
          obtain ⟨n', e', hnearest', hy⟩ := rounded_finite hm'
          rw [hy]
          exact h
  | finite negative m q hm =>
      obtain ⟨n, e, hnearest, hx⟩ := rounded_finite hm
      rw [hx]
      cases y with
      | nan => exact h.elim
      | infinite negative' => exact h
      | finite negative' m' q' hm' =>
          obtain ⟨n', e', hnearest', hy⟩ := rounded_finite hm'
          rw [hy]
          exact signed_value_le hnearest hnearest' h

/-- The double that is taken for a magnitude with a sign. -/
def doubleOf
    (negative : Bool)
    (x : Rat) : Double :=
  rounded (binary64.nearest negative x)

theorem signedRounding_doubleOf :
    SignedRounding doubleOf where
  reflects x := by
    rw [doubleOf, Number.nearest_true, rounded_neg]
    rfl
  zero := by decide +kernel
  mono hx hxy := rounded_atMost ((Number.signedRounding_nearest (by decide)).mono hx hxy)

theorem signedRounding_singleOf :
    SignedRounding singleOf where
  reflects x := by
    simp only [singleOf, Number.nearest_true]
    split_ifs <;> rfl
  zero := by decide +kernel
  mono {x y} hx hxy := by
    have hnearest := (Number.signedRounding_nearest (f := binary32) (by decide)).mono hx hxy
    simp only [singleOf]
    split_ifs with hlow hhigh hhigh
    · exact Or.inr rfl
    · exact absurd (hlow.trans hxy) hhigh
    · exact hnearest.infinite
    · exact hnearest

end Roundings

section Texts

variable {code code' : Int}
variable {raw raw' : String}
variable {s s' : Spelling}
variable {v v' : Value}

/-- A literal that is coerced to a double is coerced to that of its sign and magnitude. -/
theorem eq_doubleOf_of_coerce
    {column : Json}
    (hcode : TypeClass.ofCode code = .double)
    (hraw : Text.stripChars raw.toList = s.chars)
    (hv : coerce false code column raw = .ok v) :
    v = .double (doubleOf s.sign.negative s.magnitude) := by
  rw [coerce_double_eq column hcode hraw] at hv
  cases hfinite : (s.literal.nearest .binary64).isFinite with
  | false =>
      rw [toPlaces?_of_not_isFinite hfinite] at hv
      contradiction
  | true =>
      rw [toPlaces?_of_isFinite hfinite, Number.Literal.nearest_double,
        Spelling.magnitude_literal] at hv
      cases hv
      rfl

/-- A literal that is coerced to a single is coerced to that of its sign and magnitude. -/
theorem eq_singleOf_of_coerce
    {column : Json}
    (hcode : TypeClass.ofCode code = .single)
    (hraw : Text.stripChars raw.toList = s.chars)
    (hv : coerce false code column raw = .ok v) :
    v = .single (singleOf s.sign.negative s.magnitude) := by
  obtain ⟨x, -, rfl⟩ : ∃ x, single? raw = some x ∧ .single x = v := by
    have hread := coerce_eq_ok_iff.1 hv
    rwa [hcode, read?, Option.map_eq_some_iff] at hread
  have hx := eq_singleOf_of_singleFrom? ((coerce_single_eq_ok_iff column hcode hraw).1 hv)
  rw [hx, Spelling.magnitude_literal]
  rfl

/--
Two literals that are coerced in one floating-point class, in whatever form they are
written, are coerced in the order of their exact values; equal values with equal signs
are coerced to the same.
-/
theorem coerce_mono
    (column column' : Json)
    (hclass : TypeClass.ofCode code = .double ∨ TypeClass.ofCode code = .single)
    (hcode : TypeClass.ofCode code' = TypeClass.ofCode code)
    (hraw : Text.stripChars raw.toList = s.chars)
    (hraw' : Text.stripChars raw'.toList = s'.chars)
    (hv : coerce false code column raw = .ok v)
    (hv' : coerce false code' column' raw' = .ok v') :
    (s.value ≤ s'.value → v.AtMost v') ∧
      (s.value = s'.value → s.sign.negative = s'.sign.negative → v = v') := by
  have hpos := s.literal.magnitude_nonneg
  have hpos' := s'.literal.magnitude_nonneg
  rw [Spelling.magnitude_literal] at hpos hpos'
  have hsame (hvalue : s.value = s'.value) (hsign : s.sign.negative = s'.sign.negative) :
      s.magnitude = s'.magnitude := by
    rw [Spelling.value, Spelling.value, hsign] at hvalue
    exact Number.signed_injective _ hvalue
  rcases hclass with hdouble | hsingle
  · obtain rfl := eq_doubleOf_of_coerce hdouble hraw hv
    obtain rfl := eq_doubleOf_of_coerce (hcode.trans hdouble) hraw' hv'
    refine ⟨signedRounding_doubleOf.atMost hpos hpos', fun hvalue hsign => ?_⟩
    rw [hsame hvalue hsign, hsign]
  · obtain rfl := eq_singleOf_of_coerce hsingle hraw hv
    obtain rfl := eq_singleOf_of_coerce (hcode.trans hsingle) hraw' hv'
    refine ⟨signedRounding_singleOf.atMost hpos hpos', fun hvalue hsign => ?_⟩
    rw [hsame hvalue hsign, hsign]

/-- The least single but zero, in the hexadecimal form. -/
def leastSingle : Spelling where
  form := .hexadecimal
  sign := .plus
  opening := ['0', 'x']
  whole := ['0']
  fraction := some ['8']
  exponent :=
    some
      { letter := 'p'
        sign := .minus
        digits := "148".toList
        letter_mem := Number.LiteralForm.p_mem_exponentLetters }
  suffix := []
  opening_mem := Number.LiteralForm.lower_mem_openings
  suffix_mem := Number.nil_mem_suffixes

/-- A smaller number in the decimal form. -/
def belowLeast : Spelling where
  form := .decimal
  sign := .absent
  opening := []
  whole := ['1', '4']
  fraction := some []
  exponent :=
    some
      { letter := 'E'
        sign := .minus
        digits := "046".toList }
  suffix := ['f']
  opening_mem := Number.LiteralForm.nil_mem_openings

theorem coerce_mono_belowLeast :
    ∃ v v',
      coerce false 6 (.text "PRICE") " 14.E-046f" = .ok v ∧
        coerce false 7 (.text "PRICE") "+0x0.8p-148 " = .ok v' ∧
        v.AtMost v' := by
  have hraw : Text.stripChars " 14.E-046f".toList = belowLeast.chars := by decide
  have hraw' : Text.stripChars "+0x0.8p-148 ".toList = leastSingle.chars := by decide
  have hv :
      coerce false 6 (.text "PRICE") " 14.E-046f" =
        .ok (.single (.finite false 1 (-149) (by decide))) :=
    (coerce_single_eq_ok_iff _ (by decide) hraw).2 (by decide +kernel)
  have hv' :
      coerce false 7 (.text "PRICE") "+0x0.8p-148 " =
        .ok (.single (.finite false 1 (-149) (by decide))) :=
    (coerce_single_eq_ok_iff _ (by decide) hraw').2 (by decide +kernel)
  refine
    ⟨_, _, hv, hv', (coerce_mono _ _ (Or.inr (by decide)) (by decide) hraw hraw' hv hv').1 ?_⟩
  decide +kernel

end Texts

end Coercion
end ChangeFeed
