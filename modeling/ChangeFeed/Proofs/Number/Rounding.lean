import ChangeFeed.Number.Rounding
import Mathlib.Data.Rat.Floor
import Mathlib.Tactic.Linarith
import Mathlib.Tactic.NormNum
import Mathlib.Tactic.Positivity
import Mathlib.Tactic.Ring

/-!
# Exponents and rounding

The exponents by which a unit is chosen are estimated from the lengths of a
numerator and a denominator and then corrected once. They are what they are meant
to be: the largest powers of two and of ten below a positive rational. Rounding
goes to an integer that is nearer than one half.

**Results.**

* `binaryExponent_spec`, `decimalExponent_spec`: the power is at most the number,
  and the next power is above it.
* `roundInt_eq_of_abs_lt`: an integer nearer than one half is the one rounded to.
-/

namespace ChangeFeed
namespace Number

section Exponent

variable {base : Rat}
variable {e e' : Int}
variable {x : Rat}

/-- One correction is enough where an estimate is wrong by at most one. -/
theorem exponentAtMost_spec
    (hlow : base ^ (e - 1) ≤ x)
    (hhigh : x < base ^ (e + 1)) :
    base ^ exponentAtMost base e x ≤ x ∧ x < base ^ (exponentAtMost base e x + 1) := by
  unfold exponentAtMost
  split
  · next h => exact ⟨h, hhigh⟩
  · next h =>
      refine ⟨hlow, ?_⟩
      rw [sub_add_cancel]
      exact not_le.1 h

/-- A quotient of numbers between powers is itself between powers. -/
theorem zpow_le_div_and_div_lt
    {n d : Rat}
    {a b : Int}
    (hbase : 0 < base)
    (hn : base ^ a ≤ n ∧ n < base ^ (a + 1))
    (hd : base ^ b ≤ d ∧ d < base ^ (b + 1)) :
    base ^ (a - b - 1) ≤ n / d ∧ n / d < base ^ (a - b + 1) := by
  have hne : base ≠ 0 := hbase.ne'
  have hdpos : 0 < d := (zpow_pos hbase b).trans_le hd.1
  constructor
  · rw [le_div_iff₀ hdpos]
    calc
      base ^ (a - b - 1) * d ≤ base ^ (a - b - 1) * base ^ (b + 1) :=
        mul_le_mul_of_nonneg_left hd.2.le (zpow_pos hbase _).le
      _ = base ^ a := by
        rw [← zpow_add₀ hne]
        congr 1
        omega
      _ ≤ n := hn.1
  · rw [div_lt_iff₀ hdpos]
    calc
      n < base ^ (a + 1) := hn.2
      _ = base ^ (a - b + 1) * base ^ b := by
        rw [← zpow_add₀ hne]
        congr 1
        omega
      _ ≤ base ^ (a - b + 1) * d :=
        mul_le_mul_of_nonneg_left hd.1 (zpow_pos hbase _).le

/-- Only one power of a base is the largest one that is at most a number. -/
theorem zpow_exponent_unique
    (hbase : 1 < base)
    (h : base ^ e ≤ x ∧ x < base ^ (e + 1))
    (h' : base ^ e' ≤ x ∧ x < base ^ (e' + 1)) :
    e = e' := by
  have hle : e < e' + 1 := (zpow_lt_zpow_iff_right₀ hbase).1 (h.1.trans_lt h'.2)
  have hge : e' < e + 1 := (zpow_lt_zpow_iff_right₀ hbase).1 (h'.1.trans_lt h.2)
  omega

/-- A positive rational is the quotient of two natural numbers. -/
theorem natAbs_num_div_den
    (hx : 0 < x) :
    (x.num.natAbs : Rat) / x.den = x := by
  have hnum : (x.num.natAbs : Int) = x.num :=
    Int.natAbs_of_nonneg (Rat.num_nonneg.2 hx.le)
  have hcast : ((x.num.natAbs : Int) : Rat) = x.num := by rw [hnum]
  rw [Int.cast_natCast] at hcast
  rw [hcast]
  exact Rat.num_div_den x

theorem natAbs_num_ne_zero
    (hx : 0 < x) :
    x.num.natAbs ≠ 0 :=
  Int.natAbs_ne_zero.2 (Rat.num_pos.2 hx).ne'

theorem zpow_log2_le_and_lt
    {n : Nat}
    (hn : n ≠ 0) :
    (2 : Rat) ^ (n.log2 : Int) ≤ n ∧ (n : Rat) < 2 ^ ((n.log2 : Int) + 1) := by
  have hle := Nat.log2_self_le hn
  have hlt := Nat.lt_log2_self (n := n)
  constructor
  · rw [zpow_natCast]
    exact_mod_cast hle
  · rw [← Nat.cast_succ, zpow_natCast]
    exact_mod_cast hlt

theorem binaryExponent_spec
    (hx : 0 < x) :
    2 ^ binaryExponent x ≤ x ∧ x < 2 ^ (binaryExponent x + 1) := by
  have hbounds :=
    zpow_le_div_and_div_lt (by norm_num) (zpow_log2_le_and_lt (natAbs_num_ne_zero hx))
      (zpow_log2_le_and_lt x.den_ne_zero)
  rw [natAbs_num_div_den hx] at hbounds
  exact exponentAtMost_spec hbounds.1 hbounds.2

theorem binaryExponent_eq
    (hlow : 2 ^ e ≤ x)
    (hhigh : x < 2 ^ (e + 1)) :
    binaryExponent x = e := by
  have hx : 0 < x := (zpow_pos (by norm_num) e).trans_le hlow
  exact zpow_exponent_unique (by norm_num) (binaryExponent_spec hx) ⟨hlow, hhigh⟩

theorem zpow_decimalLength_le_and_lt
    {n : Nat}
    (hn : n ≠ 0) :
    (10 : Rat) ^ ((decimalLength n : Int) - 1) ≤ n ∧
      (n : Rat) < 10 ^ ((decimalLength n : Int) - 1 + 1) := by
  have hpos : 0 < decimalLength n := Nat.length_toDigits_pos
  have hlt : n < 10 ^ decimalLength n :=
    (Nat.length_toDigits_le_iff (by decide) hpos).1 (Nat.le_refl _)
  have hle : 10 ^ (decimalLength n - 1) ≤ n := by
    by_cases hone : decimalLength n = 1
    · rw [hone]
      exact Nat.one_le_iff_ne_zero.2 hn
    · by_contra hless
      have hlength :=
        (Nat.length_toDigits_le_iff (b := 10) (n := n) (k := decimalLength n - 1) (by decide)
          (by omega)).2 (by omega)
      change decimalLength n ≤ decimalLength n - 1 at hlength
      omega
  constructor
  · rw [← Nat.cast_pred hpos, zpow_natCast]
    exact_mod_cast hle
  · rw [sub_add_cancel, zpow_natCast]
    exact_mod_cast hlt

theorem decimalExponent_spec
    (hx : 0 < x) :
    10 ^ decimalExponent x ≤ x ∧ x < 10 ^ (decimalExponent x + 1) := by
  have hbounds :=
    zpow_le_div_and_div_lt (by norm_num) (zpow_decimalLength_le_and_lt (natAbs_num_ne_zero hx))
      (zpow_decimalLength_le_and_lt x.den_ne_zero)
  rw [natAbs_num_div_den hx, sub_sub_sub_cancel_right] at hbounds
  exact exponentAtMost_spec hbounds.1 hbounds.2

end Exponent

theorem roundInt_eq_of_abs_lt
    (tie : Tie)
    {x : Rat}
    {n : Int}
    (h : |x - n| < 1 / 2) :
    roundInt tie x = n := by
  obtain ⟨hlow, hhigh⟩ := abs_lt.1 h
  have hfloor : x.floor = ⌊x⌋ := rfl
  simp only [roundInt, hfloor]
  by_cases hle : (n : Rat) ≤ x
  · have hbelow : ⌊x⌋ = n := Int.floor_eq_iff.2 ⟨hle, by linarith⟩
    rw [hbelow, if_pos hhigh]
  · have hbelow : ⌊x⌋ = n - 1 := by
      rw [Int.floor_eq_iff]
      push_cast
      constructor <;> linarith
    have hexcess : ¬ x - ((n - 1 : Int) : Rat) < 1 / 2 := by
      push_cast
      linarith
    have hupper : 1 / 2 < x - ((n - 1 : Int) : Rat) := by
      push_cast
      linarith
    rw [hbelow, if_neg hexcess, if_pos hupper]
    omega

section Integer

variable {tie : Tie}
variable {x y : Rat}
variable {n : Int}

/-- Of two integers that are as near, the one that is taken. -/
def Tie.choose : Tie → Int → Int
  | .toEven, below => if below % 2 = 0 then below else below + 1
  | .upward, below => below + 1

theorem Tie.choose_eq_or_eq
    (tie : Tie)
    (below : Int) :
    tie.choose below = below ∨ tie.choose below = below + 1 := by
  cases tie with
  | toEven =>
      simp only [choose]
      split
      · exact Or.inl rfl
      · exact Or.inr rfl
  | upward => exact Or.inr rfl

/-- Either an integer is nearer than one half, or the number is halfway between two. -/
theorem roundInt_cases
    (tie : Tie)
    (x : Rat) :
    |(roundInt tie x : Rat) - x| < 1 / 2 ∨
      ∃ below : Int, x = below + 1 / 2 ∧ roundInt tie x = tie.choose below := by
  have hle : ((⌊x⌋ : Int) : Rat) ≤ x := Int.floor_le x
  have hlt : x < (⌊x⌋ : Int) + 1 := Int.lt_floor_add_one x
  have hfloor : x.floor = ⌊x⌋ := rfl
  rcases lt_trichotomy (x - (⌊x⌋ : Int)) (1 / 2) with hless | hhalf | hmore
  · refine Or.inl ?_
    rw [show roundInt tie x = ⌊x⌋ by simp only [roundInt, hfloor, if_pos hless], abs_lt]
    constructor <;> linarith
  · refine Or.inr ⟨⌊x⌋, by linarith, ?_⟩
    simp only [roundInt, hfloor, hhalf, lt_irrefl, if_false]
    cases tie <;> rfl
  · refine Or.inl ?_
    have hup : roundInt tie x = ⌊x⌋ + 1 := by
      simp only [roundInt, hfloor, if_neg hmore.not_gt, if_pos hmore]
    rw [hup, abs_lt]
    push_cast
    constructor <;> linarith

theorem abs_roundInt_sub_le
    (tie : Tie)
    (x : Rat) :
    |(roundInt tie x : Rat) - x| ≤ 1 / 2 := by
  rcases roundInt_cases tie x with hnear | ⟨below, rfl, hround⟩
  · exact hnear.le
  · rw [hround, abs_le]
    rcases tie.choose_eq_or_eq below with hbelow | habove
    · rw [hbelow]
      constructor <;> linarith
    · rw [habove]
      push_cast
      constructor <;> linarith

/-- Another integer is at least the rest of one away. -/
theorem one_sub_le_abs_sub
    (h : n ≠ roundInt tie x) :
    1 - |(roundInt tie x : Rat) - x| ≤ |n - x| := by
  have hapart : (1 : Int) ≤ |n - roundInt tie x| := Int.one_le_abs (sub_ne_zero.2 h)
  have hcast : (1 : Rat) ≤ |(n : Rat) - roundInt tie x| := by exact_mod_cast hapart
  have htriangle := abs_sub_le (n : Rat) x (roundInt tie x)
  rw [abs_sub_comm x] at htriangle
  linarith

/-- No integer is nearer than the one rounded to. -/
theorem roundInt_nearest
    (tie : Tie)
    (x : Rat)
    (n : Int) :
    |(roundInt tie x : Rat) - x| ≤ |n - x| := by
  by_cases hn : n = roundInt tie x
  · rw [hn]
  · have hhalf := abs_roundInt_sub_le tie x
    have hother := one_sub_le_abs_sub hn
    linarith

/-- Where another integer is as near, the number is halfway between two. -/
theorem exists_half_of_tie
    (hne : n ≠ roundInt tie x)
    (htie : |(roundInt tie x : Rat) - x| = |n - x|) :
    ∃ below : Int,
      x = below + 1 / 2 ∧ roundInt tie x = tie.choose below ∧
        (n = below ∨ n = below + 1) := by
  have hother := one_sub_le_abs_sub hne
  rcases roundInt_cases tie x with hnear | ⟨below, hx, hround⟩
  · linarith
  · refine ⟨below, hx, hround, ?_⟩
    have hhalf := abs_roundInt_sub_le tie x
    rw [htie, hx, abs_le] at hhalf
    have hlow : below - 1 < n := by
      have : ((below - 1 : Int) : Rat) < n := by
        push_cast
        linarith
      exact_mod_cast this
    have hhigh : n < below + 2 := by
      have : (n : Rat) < ((below + 2 : Int) : Rat) := by
        push_cast
        linarith
      exact_mod_cast this
    omega

theorem even_roundInt_of_tie
    (hne : n ≠ roundInt .toEven x)
    (htie : |(roundInt .toEven x : Rat) - x| = |n - x|) :
    roundInt .toEven x % 2 = 0 := by
  obtain ⟨below, -, hround, -⟩ := exists_half_of_tie hne htie
  rw [hround]
  simp only [Tie.choose]
  split <;> omega

theorem lt_roundInt_of_tie
    (hne : n ≠ roundInt .upward x)
    (htie : |(roundInt .upward x : Rat) - x| = |n - x|) :
    n < roundInt .upward x := by
  obtain ⟨below, -, hround, hn⟩ := exists_half_of_tie hne htie
  rw [hround] at hne ⊢
  simp only [Tie.choose] at hne ⊢
  omega

theorem roundInt_mono
    (tie : Tie)
    (h : x ≤ y) :
    roundInt tie x ≤ roundInt tie y := by
  by_contra hless
  have hstep : ((roundInt tie y + 1 : Int) : Rat) ≤ roundInt tie x := by
    exact_mod_cast Int.add_one_le_iff.2 (not_le.1 hless)
  push_cast at hstep
  have hx := (abs_le.1 (abs_roundInt_sub_le tie x)).2
  have hy := (abs_le.1 (abs_roundInt_sub_le tie y)).1
  have hsame : x = y := le_antisymm h (by linarith)
  exact hless (hsame ▸ le_rfl)

theorem roundInt_nonneg
    (tie : Tie)
    (h : 0 ≤ x) :
    0 ≤ roundInt tie x := by
  rw [← roundInt_intCast tie 0]
  exact roundInt_mono tie h

end Integer

end Number
end ChangeFeed
