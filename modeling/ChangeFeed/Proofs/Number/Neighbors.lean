import ChangeFeed.Proofs.Number.Adjacent
import ChangeFeed.Proofs.Number.Order

/-!
# Neighbors in the order of values

The neighbor of a value is the next one in the order of values, infinities included:
nothing is between them. The other way around the order is the same with all signs
changed, so only the values above have to be looked at. What is next to a value on one
side can be told from the other side, which is why going there and back ends where it
began, except that of the two zeros either may be met.

The codes of magnitudes are in the order of the magnitudes, so two values have
different codes, and the neighbor is the one with the next code or the code before.

**Results.**

* `isNextAbove_neighbor`, `neighbor_isNextAbove`: the neighbors are next in the order.
* `toRat?_neighbor_neighbor`: there and back.
* `neighbor_largest`, `isFinite_neighbor_iff`: only the largest value has an infinity next to it.
* `toBits_injective`, `toBits_eq_iff_eq_neighbor`: the neighbor is told by its code.
-/

namespace ChangeFeed
namespace Number
namespace Floating

open Format

section Order

variable {f : Format}
variable {x y z : Floating f}

/-- Whether a value is below another, in the order in which the zeros are at one place. -/
def Below (x y : Floating f) : Prop :=
  x.AtMost y ∧ ¬ y.AtMost x

theorem below_finite_iff
    {negative negative' : Bool}
    {m m' : Nat}
    {q q' : Int}
    {h : f.Canonical m q}
    {h' : f.Canonical m' q'} :
    (finite negative m q h).Below (finite negative' m' q' h') ↔
      signed negative (m * 2 ^ q) < signed negative' (m' * 2 ^ q') := by
  simp only [Below, AtMost, not_le]
  exact ⟨fun hboth => hboth.2, fun hlt => ⟨hlt.le, hlt⟩⟩

theorem not_below_self (x : Floating f) :
    ¬ x.Below x :=
  fun h => h.2 h.1

/-- The other sign turns the order around. -/
theorem Below.neg
    (h : x.Below y) :
    y.neg.Below x.neg := by
  refine ⟨h.1.neg, fun hback => h.2 ?_⟩
  have hneg := hback.neg
  rwa [neg_neg, neg_neg] at hneg

theorem Below.of_atMost_left
    (hxy : x.AtMost y)
    (hyz : y.Below z) :
    x.Below z :=
  ⟨hxy.trans hyz.1, fun hback => hyz.2 (hback.trans hxy)⟩

/-- What is not NaN has its place in the order. -/
theorem AtMost.total
    (hx : x ≠ .nan)
    (hy : y ≠ .nan) :
    x.AtMost y ∨ y.AtMost x := by
  cases x with
  | nan => contradiction
  | infinite negative => cases y <;> cases negative <;> simp_all [AtMost]
  | finite negative m q h =>
      cases y with
      | nan => contradiction
      | infinite negative' => cases negative' <;> simp [AtMost]
      | finite => exact le_total _ _

theorem AtMost.ne_nan
    (h : x.AtMost y) :
    x ≠ .nan ∧ y ≠ .nan := by
  cases x <;> cases y <;> simp_all [AtMost]

/-- Two values at one place have the same number. -/
theorem toRat?_eq_of_atMost
    (hxy : x.AtMost y)
    (hyx : y.AtMost x) :
    x.toRat? = y.toRat? := by
  cases x <;> cases y <;> simp_all [AtMost, toRat?]
  exact le_antisymm hxy hyx

/-- What has a value above it is below the positive infinity. -/
theorem Below.infinite
    (h : x.Below y) :
    x.Below (.infinite false) := by
  refine ⟨h.1.infinite, fun hback => h.2 ?_⟩
  have hy : y.AtMost y := (AtMost.total h.1.ne_nan.2 h.1.ne_nan.2).elim id id
  exact hy.infinite.trans hback

/-- And what has a value below it is above the negative infinity. -/
theorem Below.infinite_left
    (h : x.Below y) :
    (.infinite true : Floating f).Below y := by
  have hneg := h.neg.infinite.neg
  rwa [neg_neg] at hneg

end Order

/-- The largest magnitude has all digits and the largest exponent. -/
theorem value_full (f : Format) :
    ((Nat.pow 2 f.precision - 1 : Nat) : Rat) * 2 ^ f.maxExponent = f.largest := by
  rw [Nat.pow_eq, Nat.cast_sub Nat.one_le_two_pow, Format.largest]
  push_cast
  rfl

section Next

variable {f : Format}
variable {x y z : Floating f}
variable {m m' : Nat}
variable {q q' : Int}

/-- Whether a value is the next one above another: there is none between them. -/
structure IsNextAbove (x y : Floating f) : Prop where
  below : x.Below y
  between : ∀ z, x.Below z → ¬ z.Below y

theorem IsNextAbove.neg
    (h : x.IsNextAbove y) :
    y.neg.IsNextAbove x.neg where
  below := h.below.neg
  between z hyz hzx := by
    refine h.between z.neg ?_ ?_
    · have hneg := hzx.neg
      rwa [neg_neg] at hneg
    · have hneg := hyz.neg
      rwa [neg_neg] at hneg

/-- Which of the zeros a value is makes no difference. -/
theorem IsNextAbove.of_atMost
    (hxz : x.AtMost z)
    (hzx : z.AtMost x)
    (h : x.IsNextAbove y) :
    z.IsNextAbove y where
  below := .of_atMost_left hzx h.below
  between w hw := h.between w (.of_atMost_left hxz hw)

/-- Two values with the same one next above them are at one place. -/
theorem IsNextAbove.atMost
    (hx : x.IsNextAbove z)
    (hy : y.IsNextAbove z) :
    x.AtMost y := by
  rcases AtMost.total hx.below.1.ne_nan.1 hy.below.1.ne_nan.1 with hxy | hyx
  · exact hxy
  · by_contra hnot
    exact hy.between x ⟨hyx, hnot⟩ hx.below

/-- And so are two values that are next above the same one. -/
theorem IsNextAbove.atMost_right
    (hy : x.IsNextAbove y)
    (hz : x.IsNextAbove z) :
    y.AtMost z := by
  have hneg := (hz.neg.atMost hy.neg).neg
  rwa [neg_neg, neg_neg] at hneg

/-- Adjacent magnitudes are next to each other. -/
theorem isNextAbove_of_adjacent
    (h : f.Adjacent m q m' q') :
    (finite false m q h.left).IsNextAbove (finite false m' q' h.right) where
  below := below_finite_iff.2 h.lt
  between z hxz hzy := by
    have hvalue := value_nonneg m q
    cases z with
    | nan => exact hzy.1
    | infinite negative => simp_all [Below, AtMost]
    | finite negative n e hn =>
        rw [below_finite_iff] at hxz hzy
        cases negative with
        | false =>
            rcases h.le_or_le hn with hle | hge
            · exact absurd hle (not_le.2 hxz)
            · exact absurd hge (not_le.2 hzy)
        | true =>
            have hother := value_nonneg n e
            simp only [signed, Bool.false_eq_true, if_true, if_false] at hxz
            linarith

/-- The positive infinity is next above the largest value. -/
theorem isNextAbove_infinite :
    (largest false : Floating f).IsNextAbove (.infinite false) where
  below := ⟨rfl, nofun⟩
  between z hxz hzy := by
    cases z with
    | nan => exact hzy.1
    | infinite negative => cases negative <;> simp_all [Below, AtMost, largest]
    | finite negative n e hn =>
        have hle := value_le_largest hn
        have hvalue := value_nonneg n e
        rw [largest, below_finite_iff, value_full] at hxz
        cases negative <;>
          simp only [signed, Bool.false_eq_true, if_true, if_false] at hxz <;>
          linarith

end Next

section Neighbor

variable {f : Format}
variable {x y : Floating f}
variable {m : Nat}
variable {q : Int}

theorem outward_neg (x : Floating f) :
    x.neg.outward = x.outward.neg := by
  cases x with
  | nan => rfl
  | infinite negative => rfl
  | finite negative m q h =>
      simp only [neg, outward]
      split_ifs <;> rfl

theorem inward_neg (x : Floating f) :
    x.neg.inward = x.inward.neg := by
  cases x with
  | nan => rfl
  | infinite negative => rfl
  | finite negative m q h =>
      simp only [neg, inward]
      split_ifs <;> rfl

/-- With the other sign, the neighbor below is that above. -/
theorem neighbor_neg
    (x : Floating f)
    (up : Bool) :
    x.neg.neighbor up = (x.neighbor (!up)).neg := by
  cases x with
  | nan => rfl
  | infinite negative => cases negative <;> cases up <;> rfl
  | finite negative m q h =>
      by_cases hm : m = 0
      · subst hm
        have hzero : (zero (!up) : Floating f) = (zero up).neg := rfl
        rw [neg, neighbor_of_eq_zero, neighbor_of_eq_zero, hzero, outward_neg, Bool.not_not]
      · have hneg : (finite (!negative) m q h : Floating f) = (finite negative m q h).neg := rfl
        rw [neg, neighbor_of_ne_zero _ _ _ hm, neighbor_of_ne_zero _ _ _ hm, hneg, outward_neg,
          inward_neg]
        cases negative <;> cases up <;> rfl

/-- The next positive value away from zero is next above, the largest one has the infinity. -/
theorem isNextAbove_outward
    (h : f.Canonical m q) :
    (finite false m q h).IsNextAbove (finite false m q h).outward := by
  rcases adjacent_outward false h with ⟨m', q', hnext, hout⟩ | ⟨hcarry, rfl, hout⟩
  · rw [hout]
    exact isNextAbove_of_adjacent hnext
  · rw [hout]
    obtain rfl : m = Nat.pow 2 f.precision - 1 := by
      rw [Nat.pow_eq]
      omega
    exact isNextAbove_infinite

/-- Above a negative value the next one is toward zero. -/
theorem isNextAbove_inward
    (h : f.Canonical m q)
    (hm : m ≠ 0) :
    (finite true m q h).IsNextAbove (finite true m q h).inward := by
  obtain ⟨m', q', hnext, hin⟩ := adjacent_inward true h hm
  rw [hin]
  exact (isNextAbove_of_adjacent hnext).neg

/-- The neighbor above is next above, wherever there is something above. -/
theorem isNextAbove_neighbor
    (h : x.Below (.infinite false)) :
    x.IsNextAbove (x.neighbor true) := by
  cases x with
  | nan => exact absurd rfl h.1.ne_nan.1
  | infinite negative =>
      cases negative with
      | false => exact absurd h (not_below_self _)
      | true => exact isNextAbove_infinite.neg
  | finite negative m q hm =>
      by_cases hzero : m = 0
      · subst hzero
        rw [neighbor_of_eq_zero]
        refine .of_atMost ?_ ?_ (isNextAbove_outward f.canonical_zero) <;>
          cases negative <;> simp [AtMost, signed]
      · rw [neighbor_of_ne_zero _ _ _ hzero]
        cases negative with
        | false => exact isNextAbove_outward hm
        | true => exact isNextAbove_inward hm hzero

/-- And so is the neighbor below on the other side. -/
theorem neighbor_isNextAbove
    (h : (infinite true : Floating f).Below x) :
    (x.neighbor false).IsNextAbove x := by
  have hnext := (isNextAbove_neighbor h.neg).neg
  rwa [neighbor_neg, neg_neg, neg_neg] at hnext

theorem below_infinite_of_isFinite
    (hx : x.isFinite = true) :
    x.Below (.infinite false) ∧ (infinite true : Floating f).Below x := by
  cases x <;> simp_all [isFinite, Below, AtMost]

/-- The neighbor on one side has on its other side what is at the place of the value. -/
theorem toRat?_neighbor_neighbor
    (hx : x.isFinite = true)
    (up : Bool) :
    ((x.neighbor up).neighbor (!up)).toRat? = x.toRat? := by
  obtain ⟨habove, hbelow⟩ := below_infinite_of_isFinite hx
  cases up with
  | true =>
      have hnext := isNextAbove_neighbor habove
      have hback := neighbor_isNextAbove hnext.below.infinite_left
      exact toRat?_eq_of_atMost (hback.atMost hnext) (hnext.atMost hback)
  | false =>
      have hnext := neighbor_isNextAbove hbelow
      have hback := isNextAbove_neighbor hnext.below.infinite
      exact toRat?_eq_of_atMost (hback.atMost_right hnext) (hnext.atMost_right hback)

theorem full_ne_zero (f : Format) :
    Nat.pow 2 f.precision - 1 ≠ 0 := by
  have htwo : 2 ^ 1 ≤ 2 ^ f.precision := Nat.pow_le_pow_right (by decide) f.precision_pos
  rw [Nat.pow_eq]
  omega

/-- Beyond the largest value is the infinity. -/
theorem neighbor_largest (up : Bool) :
    (largest (!up) : Floating f).neighbor up = .infinite (!up) := by
  have hlargest :
      (largest (!up) : Floating f) =
        finite (!up) (Nat.pow 2 f.precision - 1) f.maxExponent f.canonical_full := rfl
  rw [hlargest, neighbor_of_ne_zero _ _ _ (full_ne_zero f), if_pos rfl]
  rcases adjacent_outward (!up) f.canonical_full with ⟨m', q', hnext, -⟩ | ⟨-, -, hout⟩
  · have hlt := hnext.lt
    rw [value_full] at hlt
    exact absurd (value_le_largest hnext.right) (not_le.2 hlt)
  · exact hout

/-- All other finite values have finite neighbors. -/
theorem isFinite_neighbor_iff
    (hx : x.isFinite = true)
    (up : Bool) :
    (x.neighbor up).isFinite = true ↔ x ≠ largest (!up) := by
  constructor
  · rintro hfinite rfl
    rw [neighbor_largest] at hfinite
    contradiction
  · intro hne
    obtain ⟨negative, m, q, h, rfl⟩ := exists_finite_of_isFinite hx
    have houtward {negative : Bool} {m : Nat} {q : Int} (h : f.Canonical m q)
        (hsmaller : m ≠ Nat.pow 2 f.precision - 1 ∨ q ≠ f.maxExponent) :
        (finite negative m q h).outward.isFinite = true := by
      rcases adjacent_outward negative h with ⟨m', q', hnext, hout⟩ | ⟨hcarry, hq, -⟩
      · rw [hout]
        rfl
      · rw [Nat.pow_eq] at hsmaller
        omega
    by_cases hzero : m = 0
    · subst hzero
      rw [neighbor_of_eq_zero]
      exact houtward f.canonical_zero (Or.inl (full_ne_zero f).symm)
    · rw [neighbor_of_ne_zero _ _ _ hzero]
      split
      · next hsign =>
          refine houtward h ?_
          by_contra hsame
          obtain ⟨rfl, rfl⟩ := not_or.1 hsame |>.imp not_not.1 not_not.1
          exact hne (by rw [hsign]; rfl)
      · obtain ⟨m', q', hnext, hin⟩ := adjacent_inward negative h hzero
        rw [hin]
        rfl

end Neighbor

section Codes

variable {f : Format}
variable {x y z : Floating f}
variable {m m' : Nat}
variable {q q' : Int}

/-- A larger exponent has larger codes, whatever the significand. -/
theorem code_lt_of_exponent_lt
    (h : f.Canonical m q)
    (h' : f.Canonical m' q')
    (hlt : q < q') :
    (q - f.minExponent).toNat * 2 ^ (f.precision - 1) + m <
      (q' - f.minExponent).toNat * 2 ^ (f.precision - 1) + m' := by
  obtain ⟨hfits, hmin, -, -⟩ := h
  have hfull : 2 ^ (f.precision - 1) ≤ m' := h'.2.2.2.resolve_left (by omega)
  have hdigits := two_pow_precision f
  have hcode := exponentCode_succ hmin
  have hmono :
      (q + 1 - f.minExponent).toNat * 2 ^ (f.precision - 1) ≤
        (q' - f.minExponent).toNat * 2 ^ (f.precision - 1) :=
    Nat.mul_le_mul_right _ (by omega)
  rw [Nat.pow_eq] at hfits
  omega

/-- Different magnitudes have different codes. -/
theorem code_injective
    (h : f.Canonical m q)
    (h' : f.Canonical m' q')
    (hcode :
      (q - f.minExponent).toNat * 2 ^ (f.precision - 1) + m =
        (q' - f.minExponent).toNat * 2 ^ (f.precision - 1) + m') :
    m = m' ∧ q = q' := by
  rcases lt_trichotomy q q' with hlt | rfl | hgt
  · exact absurd hcode (code_lt_of_exponent_lt h h' hlt).ne
  · exact ⟨Nat.add_left_cancel hcode, rfl⟩
  · exact absurd hcode (code_lt_of_exponent_lt h' h hgt).ne'

/-- The codes of magnitudes are below those of infinities. -/
theorem code_lt
    (h : f.Canonical m q) :
    (q - f.minExponent).toNat * 2 ^ (f.precision - 1) + m <
      (f.exponentCodes - 1) * 2 ^ (f.precision - 1) := by
  obtain ⟨hfits, -, hmax, -⟩ := h
  have hdigits := two_pow_precision f
  have hmono :
      ((q - f.minExponent).toNat + 2) * 2 ^ (f.precision - 1) ≤
        (f.exponentCodes - 1) * 2 ^ (f.precision - 1) := by
    refine Nat.mul_le_mul_right _ ?_
    rw [exponentCodes]
    omega
  rw [Nat.add_mul] at hmono
  rw [Nat.pow_eq] at hfits
  omega

/-- The sign that a code shows; NaN has none. -/
def isNegative : Floating f → Bool
  | .nan => false
  | .infinite negative => negative
  | .finite negative _ _ _ => negative

/-- The code of a value without its sign. -/
def magnitudeCode : Floating f → Nat
  | .nan => (f.exponentCodes - 1) * 2 ^ (f.precision - 1) + 2 ^ (f.precision - 1) / 2
  | .infinite _ => (f.exponentCodes - 1) * 2 ^ (f.precision - 1)
  | .finite _ m q _ => (q - f.minExponent).toNat * 2 ^ (f.precision - 1) + m

theorem toBits_eq_magnitudeCode (x : Floating f) :
    x.toBits =
      (if x.isNegative then f.exponentCodes * 2 ^ (f.precision - 1) else 0) +
        x.magnitudeCode := by
  cases x with
  | nan => exact (Nat.zero_add _).symm
  | infinite negative => rfl
  | finite negative m q h => rw [toBits_finite, isNegative, magnitudeCode, Nat.add_assoc]

/-- There are as many codes without sign as the sign stands for. -/
theorem magnitudeCode_lt (x : Floating f) :
    x.magnitudeCode < f.exponentCodes * 2 ^ (f.precision - 1) := by
  have hhidden : 0 < 2 ^ (f.precision - 1) := Nat.two_pow_pos _
  have hsplit :
      f.exponentCodes * 2 ^ (f.precision - 1) =
        (f.exponentCodes - 1) * 2 ^ (f.precision - 1) + 2 ^ (f.precision - 1) := by
    rw [← Nat.succ_mul]
    rfl
  rw [hsplit]
  cases x with
  | nan =>
      rw [magnitudeCode]
      omega
  | infinite negative =>
      rw [magnitudeCode]
      omega
  | finite negative m q h => exact (code_lt h).trans (Nat.lt_add_of_pos_right hhidden)

/-- The codes of finite values, of infinities and of NaN are in different ranges. -/
theorem magnitudeCode_injective
    (hprecision : 1 < f.precision)
    (hsign : x.isNegative = y.isNegative)
    (h : x.magnitudeCode = y.magnitudeCode) :
    x = y := by
  have hhidden : 2 ^ 1 ≤ 2 ^ (f.precision - 1) :=
    Nat.pow_le_pow_right (by decide) (Nat.le_sub_one_of_lt hprecision)
  cases x with
  | nan =>
      cases y with
      | nan => rfl
      | infinite negative =>
          rw [magnitudeCode, magnitudeCode] at h
          omega
      | finite negative m q hm =>
          have hcode := code_lt hm
          rw [magnitudeCode, magnitudeCode] at h
          omega
  | infinite negative =>
      cases y with
      | nan =>
          rw [magnitudeCode, magnitudeCode] at h
          omega
      | infinite negative' => rw [show negative = negative' from hsign]
      | finite negative' m q hm => exact absurd h.symm (code_lt hm).ne
  | finite negative m q hm =>
      have hcode := code_lt hm
      cases y with
      | nan =>
          rw [magnitudeCode, magnitudeCode] at h
          omega
      | infinite negative' => exact absurd h hcode.ne
      | finite negative' m' q' hm' =>
          obtain rfl : negative = negative' := hsign
          obtain ⟨rfl, rfl⟩ := code_injective hm hm' h
          rfl

/-- A value is told by its code. -/
theorem toBits_injective
    (hprecision : 1 < f.precision)
    (h : x.toBits = y.toBits) :
    x = y := by
  have hx := magnitudeCode_lt x
  have hy := magnitudeCode_lt y
  rw [toBits_eq_magnitudeCode, toBits_eq_magnitudeCode] at h
  cases hsign : x.isNegative <;> cases hsign' : y.isNegative <;>
    simp only [hsign, hsign', Bool.false_eq_true, if_true, if_false] at h
  · exact magnitudeCode_injective hprecision (hsign.trans hsign'.symm) (by omega)
  · omega
  · omega
  · exact magnitudeCode_injective hprecision (hsign.trans hsign'.symm) (by omega)

/-- Of a value that is not zero, the neighbor is what has the next code or the code before. -/
theorem toBits_eq_iff_eq_neighbor
    (hprecision : 1 < f.precision)
    {s : Rat}
    (hx : x.toRat? = some s)
    (hs : s ≠ 0)
    (up : Bool) :
    z.toBits = (if decide (0 < s) = up then x.toBits + 1 else x.toBits - 1) ↔
      z = x.neighbor up := by
  obtain ⟨negative, m, q, h, rfl, rfl⟩ := exists_finite_of_toRat? hx
  have hm : m ≠ 0 := by
    rintro rfl
    cases negative <;> simp [signed] at hs
  have hpos : (0 : Rat) < m * 2 ^ q :=
    mul_pos (by exact_mod_cast Nat.pos_of_ne_zero hm) (two_zpow_pos q)
  have hsign : decide (0 < signed negative ((m : Rat) * 2 ^ q)) = !negative := by
    cases negative <;> simp [signed, hpos, hpos.le]
  rw [hsign, ← toBits_neighbor negative up h hm]
  exact ⟨toBits_injective hprecision, fun heq => congrArg toBits heq⟩

end Codes

end Floating
end Number
end ChangeFeed
