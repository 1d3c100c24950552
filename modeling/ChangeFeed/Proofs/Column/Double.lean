import ChangeFeed.Column.Coercion
import ChangeFeed.Proofs.Number.Places
import ChangeFeed.Proofs.Number.Spelling

/-!
# Doubles are rounded to sixteen places

A literal is read as the nearest double. If that is finite its exact value is rounded
to sixteen places, for which the digits kept are enough whatever the exponent, and the
result is made a double again, which is finite as well.

The double only depends on the first one, so this is a map of finite doubles. It is
stable: what has been rounded is not changed by being rounded again.

**Results.**

* `decimalLength_le_digitsKept`: no double takes more digits than are kept.
* `coerce_double_nearest`: the texts of literals.
* `stableRounding_rounded`: the map of finite doubles.
-/

namespace ChangeFeed
namespace Coercion

open Number
  (Double Floating IsNearestMultiple Spelling decimalLength roundInt roundPlaces signed)
open Number.Format (binary64)

section Digits

variable {m : Nat}
variable {q : Int}

theorem value_lt_ten_pow
    (h : binary64.Canonical m q) :
    (m : Rat) * 2 ^ q < 10 ^ 342 := by
  have hm : (m : Rat) < 2 ^ 53 := by exact_mod_cast h.1
  have hunit : (2 : Rat) ^ q ≤ 2 ^ (973 : Int) :=
    zpow_le_zpow_right₀ (by norm_num) (h.2.2.1.trans (by decide))
  calc
    (m : Rat) * 2 ^ q ≤ m * 2 ^ (973 : Int) :=
      mul_le_mul_of_nonneg_left hunit (Nat.cast_nonneg _)
    _ < 2 ^ 53 * 2 ^ (973 : Int) :=
      mul_lt_mul_of_pos_right hm (Number.Format.two_zpow_pos _)
    _ = (2 ^ 3) ^ 342 := by
      rw [show (973 : Int) = (973 : Nat) from rfl, zpow_natCast, ← pow_add, ← pow_mul]
    _ ≤ 10 ^ 342 := pow_le_pow_left₀ (by norm_num) (by norm_num) _

/-- No double takes more digits than are kept. -/
theorem decimalLength_le_digitsKept
    (h : binary64.Canonical m q) :
    decimalLength (roundInt .upward (m * 2 ^ q * 10 ^ places)).natAbs ≤ digitsKept := by
  have hscaled : (m : Rat) * 2 ^ q * 10 ^ places ≤ ((10 ^ (342 + places) : Int) : Rat) := by
    rw [Int.cast_pow, pow_add]
    exact mul_le_mul_of_nonneg_right (value_lt_ten_pow h).le (Number.ten_pow_pos _).le
  have hround := Number.roundInt_mono .upward hscaled
  rw [Number.roundInt_intCast] at hround
  have hpos : 0 ≤ roundInt .upward ((m : Rat) * 2 ^ q * 10 ^ places) :=
    Number.roundInt_nonneg .upward
      (mul_nonneg (Number.Format.value_nonneg m q) (Number.ten_pow_pos _).le)
  have hfits : (roundInt .upward ((m : Rat) * 2 ^ q * 10 ^ places)).natAbs < 10 ^ digitsKept := by
    zify
    rw [abs_of_nonneg hpos]
    exact hround.trans_lt (pow_lt_pow_right₀ (by norm_num) (by decide))
  exact (Nat.length_toDigits_le_iff (by decide) (by decide)).2 hfits

end Digits

section Rounded

variable {m : Nat}
variable {q : Int}

/-- A finite double rounded to sixteen places and back to a double; others stay. -/
def rounded : Double → Double
  | .finite negative m q _ => binary64.nearest negative (roundPlaces .upward places (m * 2 ^ q))
  | x => x

/-- The rounding of finite doubles does not fail. -/
theorem toPlaces?_of_isFinite
    {x : Double}
    (hx : x.isFinite = true) :
    toPlaces? x = some (rounded x) := by
  obtain ⟨negative, m, q, h, rfl⟩ := Floating.exists_finite_of_isFinite hx
  rw [toPlaces?, quantize?, if_pos (decimalLength_le_digitsKept h)]
  rfl

theorem toPlaces?_of_not_isFinite
    {x : Double}
    (hx : x.isFinite = false) :
    toPlaces? x = none := by
  cases x with
  | nan => rfl
  | infinite negative => rfl
  | finite negative m q h => contradiction

/-- What a double is rounded to is the nearest double to the nearest multiple. -/
theorem rounded_finite
    (h : binary64.Canonical m q) :
    ∃ n e, ∃ hnearest : binary64.IsNearest (roundPlaces .upward 16 (m * 2 ^ q)) n e,
      ∀ negative,
        rounded (.finite negative m q h) = .finite negative n e hnearest.canonical := by
  have hpos : 0 ≤ roundPlaces .upward 16 ((m : Rat) * 2 ^ q) :=
    Number.roundPlaces_nonneg (Number.Format.value_nonneg m q)
  have hover := Number.roundPlaces_lt_overflow .upward h
  obtain ⟨n, e, hnearest, -⟩ :=
    Number.Format.exists_nearest_eq (by decide) hpos hover false
  exact ⟨n, e, hnearest,
    Number.Format.nearest_eq_of_isNearest (by decide) hpos hover hnearest⟩

end Rounded

section Texts

variable {code : Int}
variable {raw : String}
variable {s : Spelling}

/-- A literal is read as its nearest double rounded to places, if that is finite. -/
theorem double?_eq
    (hraw : Text.stripChars raw.toList = s.chars) :
    double? raw = toPlaces? (s.literal.nearest .binary64) := by
  simp only [double?, hraw, s.ofChars?_chars, Option.bind_eq_bind, Option.bind_some]

/-- And so it is coerced to that, or refused. -/
theorem coerce_double_eq
    (column : Json)
    (hcode : TypeClass.ofCode code = .double)
    (hraw : Text.stripChars raw.toList = s.chars) :
    coerce false code column raw =
      match toPlaces? (s.literal.nearest .binary64) with
      | some x => .ok (.double x)
      | none => .error ⟨raw, code, column⟩ := by
  simp only [coerce, Bool.false_eq_true, if_false, hcode, read?, Text.shown_whole, double?_eq hraw]
  cases toPlaces? (s.literal.nearest .binary64) <;> rfl

/-- The nearest double to a literal is the one it is read as. -/
theorem isNearest_value_iff
    (s : Spelling)
    (x : Double) :
    x.IsNearest s.sign.negative s.value ↔ x = s.literal.nearest .binary64 := by
  rw [← Spelling.value_literal]
  exact Number.Literal.isNearest_iff (by decide) (by decide) (by decide) s.literal x

/-- A finite double that a literal is read as has the sign of the literal. -/
theorem exists_finite_of_nearest
    (s : Spelling)
    {v : Rat}
    (hv : (s.literal.nearest .binary64).toRat? = some v) :
    ∃ m q, ∃ h : binary64.Canonical m q,
      s.literal.nearest .binary64 = .finite s.sign.negative m q h ∧
        v = signed s.sign.negative (m * 2 ^ q) := by
  obtain ⟨negative, m, q, h, hx, hvalue⟩ := Floating.exists_finite_of_toRat? hv
  obtain ⟨hsign, -⟩ := (isNearest_value_iff s (.finite negative m q h)).2 hx.symm
  subst hsign
  exact ⟨m, q, h, hx, hvalue⟩

/--
A literal is coerced to the double nearest to `h`, which is the multiple of the
sixteenth place nearest to the exact value of its own nearest double. The sign is that
of the literal throughout. It is refused just if that double is infinite: the number of
digits is no reason, as no finite double has too many.
-/
theorem coerce_double_nearest
    (column : Json)
    (hcode : TypeClass.ofCode code = .double)
    (hraw : Text.stripChars raw.toList = s.chars) :
    (∃ x : Double,
      x.IsNearest s.sign.negative s.value ∧
        (x.isFinite = false →
          coerce false code column raw = .error ⟨raw, code, column⟩) ∧
        ∀ v,
          x.toRat? = some v →
          ∃ (h : Rat) (y : Double),
            IsNearestMultiple 16 v h ∧
              y.IsNearest s.sign.negative h ∧
              y.isFinite = true ∧
              coerce false code column raw = .ok (.double y)) ∧
      ∀ (x : Double) (v : Rat),
        x.toRat? = some v →
        decimalLength (roundInt .upward (|v| * 10 ^ 16)).natAbs ≤ 400 ∧
          (toPlaces? x).isSome = true := by
  refine ⟨⟨_, (isNearest_value_iff s _).2 rfl, fun hinfinite => ?_, fun v hv => ?_⟩,
    fun x v hv => ?_⟩
  · rw [coerce_double_eq column hcode hraw, toPlaces?_of_not_isFinite hinfinite]
  · obtain ⟨m, q, h, hx, rfl⟩ := exists_finite_of_nearest s hv
    obtain ⟨n, e, hnearest, hy⟩ := rounded_finite h
    have hpos := Number.Format.value_nonneg m q
    refine ⟨_, _, (Number.isNearestMultiple_roundPlaces 16 hpos).signed s.sign.negative,
      (Floating.isNearest_iff (by decide) (Number.roundPlaces_nonneg hpos) _ _).2
        (hy s.sign.negative).symm,
      rfl, ?_⟩
    rw [coerce_double_eq column hcode hraw, hx, toPlaces?_of_isFinite rfl, hy]
  · obtain ⟨negative, m, q, h, rfl, rfl⟩ := Floating.exists_finite_of_toRat? hv
    rw [toPlaces?_of_isFinite rfl, Number.abs_signed,
      abs_of_nonneg (Number.Format.value_nonneg m q)]
    exact ⟨decimalLength_le_digitsKept h, rfl⟩

/-- A price that is too small for sixteen places, with its sign. -/
def tinyPrice : Spelling where
  form := .decimal
  sign := .minus
  opening := []
  whole := ['1']
  fraction := none
  exponent :=
    some
      { letter := 'e'
        sign := .minus
        digits := ['2', '0'] }
  suffix := ['d']
  opening_mem := Number.LiteralForm.nil_mem_openings

theorem coerce_double_nearest_tinyPrice :
    ∃ (x : Double) (v h : Rat) (y : Double),
      x.IsNearest true tinyPrice.value ∧
        x.toRat? = some v ∧
        IsNearestMultiple 16 v h ∧
        y.IsNearest true h ∧
        coerce false 2 (.text "PRICE") " -1e-20d " = .ok (.double y) := by
  obtain ⟨⟨x, hx, -, hcoerced⟩, -⟩ :=
    coerce_double_nearest (.text "PRICE") (by decide : TypeClass.ofCode 2 = .double)
      (by decide : Text.stripChars " -1e-20d ".toList = tinyPrice.chars)
  cases x with
  | nan => exact hx.elim
  | infinite negative =>
      have hless : |tinyPrice.value| < binary64.overflow := by decide +kernel
      exact absurd hx.2 (not_le.2 hless)
  | finite negative m q hcanonical =>
      obtain ⟨h, y, hmultiple, hnearest, -, hy⟩ := hcoerced _ rfl
      exact ⟨_, _, h, y, hx, rfl, hmultiple, hnearest, hy⟩

end Texts

section Stable

variable {m m' n n' : Nat}
variable {q q' e e' : Int}

/--
`R` is what finite doubles are coerced to through literals, and it is stable: it
changes nothing twice and nothing from one half on, moves a value by less than a
sixteenth place and keeps signs and the order.
-/
structure StableRounding (R : Double → Double) : Prop where
  /-- The literals whose nearest double is `x` are coerced to `R x`. -/
  coerced :
    ∀ {code : Int} {raw : String} {s : Spelling} {x : Double} (column : Json),
      TypeClass.ofCode code = .double →
      Text.stripChars raw.toList = s.chars →
      x.IsNearest s.sign.negative s.value →
      x.isFinite = true →
      coerce false code column raw = .ok (.double (R x))
  /-- There are such literals for every finite double. -/
  spelled :
    ∀ {x : Double},
      x.isFinite = true →
      ∃ (raw : String) (s : Spelling),
        Text.stripChars raw.toList = s.chars ∧ x.IsNearest s.sign.negative s.value
  again :
    ∀ {x : Double},
      x.isFinite = true →
      R (R x) = R x
  fixed :
    ∀ {x : Double} {v : Rat},
      x.toRat? = some v →
      1 / 2 ≤ |v| →
      R x = x
  close :
    ∀ {x : Double} {v : Rat},
      x.toRat? = some v →
      ∃ w, (R x).toRat? = some w ∧ |w - v| < 1 / 10 ^ 16
  odd :
    ∀ {x : Double},
      x.isFinite = true →
      R x.neg = (R x).neg
  mono :
    ∀ {x y : Double} {v w v' w' : Rat},
      x.toRat? = some v →
      y.toRat? = some w →
      (R x).toRat? = some v' →
      (R y).toRat? = some w' →
      v ≤ w →
      v' ≤ w'

/-- The nearest double to a zero is one. -/
theorem nearest_value_eq_zero
    (hzero : (m : Rat) * 2 ^ q = 0)
    (hnearest : binary64.IsNearest (roundPlaces .upward 16 (m * 2 ^ q)) n e) :
    (n : Rat) * 2 ^ e = 0 := by
  have hnone := Number.roundPlaces_multiple .upward 16 0
  rw [Int.cast_zero, zero_div] at hnone
  rw [hzero, hnone] at hnearest
  obtain ⟨rfl, rfl⟩ := hnearest.unique (by decide) (Number.Format.isNearest_zero _)
  rw [Nat.cast_zero, zero_mul]

/-- The order of signed values follows from that of the magnitudes. -/
theorem signed_value_le
    {negative negative' : Bool}
    (hn : binary64.IsNearest (roundPlaces .upward 16 (m * 2 ^ q)) n e)
    (hn' : binary64.IsNearest (roundPlaces .upward 16 (m' * 2 ^ q')) n' e')
    (hle : signed negative ((m : Rat) * 2 ^ q) ≤ signed negative' (m' * 2 ^ q')) :
    signed negative ((n : Rat) * 2 ^ e) ≤ signed negative' (n' * 2 ^ e') := by
  have hx := Number.Format.value_nonneg m q
  have hy := Number.Format.value_nonneg m' q'
  cases negative with
  | false =>
      cases negative' with
      | false => exact hn.mono (by decide) hn' (Number.roundPlaces_mono .upward 16 hle)
      | true =>
          -- Both are zeros.
          have hneg : (m : Rat) * 2 ^ q ≤ -(m' * 2 ^ q') := hle
          simp only [signed, Bool.false_eq_true, if_true, if_false]
          rw [nearest_value_eq_zero (by linarith) hn, nearest_value_eq_zero (by linarith) hn',
            neg_zero]
  | true =>
      cases negative' with
      | false =>
          have hleft := Number.Format.value_nonneg n e
          have hright := Number.Format.value_nonneg n' e'
          exact (neg_nonpos.2 hleft).trans hright
      | true =>
          have hge := Number.roundPlaces_mono .upward 16 (neg_le_neg_iff.1 hle)
          exact neg_le_neg (hn'.mono (by decide) hn hge)

/-- Rounding finite doubles to sixteen places is stable. -/
theorem stableRounding_rounded :
    StableRounding rounded where
  coerced column hcode hraw hx hfinite := by
    rw [coerce_double_eq column hcode hraw, ← (isNearest_value_iff _ _).1 hx,
      toPlaces?_of_isFinite hfinite]
  spelled hfinite := by
    obtain ⟨negative, m, q, h, rfl⟩ := Floating.exists_finite_of_isFinite hfinite
    refine ⟨String.ofList (Spelling.ofProduct negative m q).chars,
      Spelling.ofProduct negative m q, ?_, ?_⟩
    · rw [String.toList_ofList, Spelling.stripChars_chars]
    · rw [Spelling.value, Spelling.negative_ofProduct, Spelling.magnitude_ofProduct]
      exact (Floating.isNearest_iff (by decide) (Number.Format.value_nonneg m q) _ _).2
        (Number.Format.nearest_of_canonical negative h).symm
  again hfinite := by
    obtain ⟨negative, m, q, h, rfl⟩ := Floating.exists_finite_of_isFinite hfinite
    obtain ⟨n, e, hnearest, hx⟩ := rounded_finite h
    rw [hx]
    by_cases hhalf : 1 / 2 ≤ (m : Rat) * 2 ^ q
    · obtain ⟨rfl, rfl⟩ := Number.eq_of_half_le h hhalf hnearest
      exact hx negative
    · have hsame := Number.roundPlaces_eq_of_lt_half (not_le.1 hhalf) hnearest
      exact (congrArg (binary64.nearest negative) hsame).trans (hx negative)
  fixed hv hhalf := by
    obtain ⟨negative, m, q, h, rfl, rfl⟩ := Floating.exists_finite_of_toRat? hv
    rw [Number.abs_signed, abs_of_nonneg (Number.Format.value_nonneg m q)] at hhalf
    obtain ⟨n, e, hnearest, hx⟩ := rounded_finite h
    obtain ⟨rfl, rfl⟩ := Number.eq_of_half_le h hhalf hnearest
    exact hx negative
  close hv := by
    obtain ⟨negative, m, q, h, rfl, rfl⟩ := Floating.exists_finite_of_toRat? hv
    obtain ⟨n, e, hnearest, hx⟩ := rounded_finite h
    refine ⟨_, congrArg Floating.toRat? (hx negative), ?_⟩
    rw [Number.signed_sub, Number.abs_signed]
    by_cases hhalf : 1 / 2 ≤ (m : Rat) * 2 ^ q
    · obtain ⟨rfl, rfl⟩ := Number.eq_of_half_le h hhalf hnearest
      rw [sub_self, abs_zero]
      exact one_div_pos.2 (Number.ten_pow_pos 16)
    · exact Number.abs_sub_lt_of_lt_half (not_le.1 hhalf) hnearest
  odd hfinite := by
    obtain ⟨negative, m, q, h, rfl⟩ := Floating.exists_finite_of_isFinite hfinite
    obtain ⟨n, e, hnearest, hx⟩ := rounded_finite h
    rw [Floating.neg, hx, hx]
    rfl
  mono hv hw hv' hw' hle := by
    obtain ⟨negative, m, q, h, rfl, rfl⟩ := Floating.exists_finite_of_toRat? hv
    obtain ⟨negative', m', q', h', rfl, rfl⟩ := Floating.exists_finite_of_toRat? hw
    obtain ⟨n, e, hn, hx⟩ := rounded_finite h
    obtain ⟨n', e', hn', hy⟩ := rounded_finite h'
    rw [hx] at hv'
    rw [hy] at hw'
    cases hv'
    cases hw'
    exact signed_value_le hn hn' hle

end Stable

end Coercion
end ChangeFeed
