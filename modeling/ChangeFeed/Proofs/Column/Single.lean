import ChangeFeed.Column.Coercion
import ChangeFeed.Proofs.Number.Exact
import ChangeFeed.Proofs.Number.Spelling

/-!
# Singles are rounded once, but for the overflow

A literal is read as a double first and that is narrowed to a single. Up to the
largest single this gives the single nearest to the literal itself: only in the
middle between two singles may the double hide on which side the literal is, and
there its exact value is looked at.

At the overflow it is not looked at. The double that lies there is already infinite
as a single, whatever it was rounded from, and the literals of the last half unit of
doubles below the overflow are infinite with it, although the largest single is the
nearest to them.

**Results.**

* `singleFrom?_eq_nearest`: up to the largest single a literal is rounded once.
* `singleFrom?_eq_infinite_iff`, `singleFrom?_eq_largest`: beyond it.
* `coerce_nearest_single`: the texts of literals in the range of singles.
* `coerce_overflow_single`: the texts of literals at its end and beyond.
-/

namespace ChangeFeed
namespace Coercion

open Number (Double Single Floating Literal Spelling signed)
open Number.Format (binary32 binary64)

/-- The middle of a single and its neighbor is exact. -/
theorem toRat?_middleOf_neighbor
    {x : Single}
    {up : Bool}
    {s t : Rat}
    (hx : x.toRat? = some s)
    (hy : (x.neighbor up).toRat? = some t) :
    (middleOf x (x.neighbor up)).toRat? = some ((s + t) / 2) := by
  obtain ⟨m, q, m', q', hadjacent, habs⟩ := Floating.exists_adjacent_of_neighbor hx hy
  obtain ⟨n, e, hsum, hsumValue⟩ := hadjacent.exists_sum
  obtain ⟨k, i, hhalf, hhalfValue⟩ := hadjacent.exists_middle
  rw [← Floating.toRat?_widened] at hx hy
  refine Floating.toRat?_half (Floating.toRat?_add hx hy hsum ?_) hhalf ?_
  · rw [habs, hsumValue]
  · rw [habs, hhalfValue]

/-- With an infinity there is no middle. -/
theorem toRat?_middleOf_infinite
    (x : Single)
    (negative : Bool) :
    (middleOf x (.infinite negative)).toRat? = none := by
  have hsum : (x.convert .binary64).add (.infinite negative) = .infinite negative ∨
      (x.convert .binary64).add (.infinite negative) = .nan := by
    cases x.convert .binary64 with
    | nan => exact Or.inr rfl
    | infinite sign =>
        by_cases hsign : sign = negative
        · exact Or.inl (by simp [Floating.add, hsign])
        · exact Or.inr (by simp [Floating.add, hsign])
    | finite => exact Or.inl rfl
  have hmiddle :
      middleOf x (.infinite negative) =
        ((x.convert .binary64).add (.infinite negative)).half := rfl
  rw [hmiddle]
  rcases hsum with hsum | hsum <;> rw [hsum] <;> rfl

section Steps

variable {l : Literal}
variable {negative : Bool}
variable {m m' n : Nat}
variable {q q' e : Int}
variable {hn : binary64.Canonical n e}
variable {h : binary32.Canonical m q}

/-- A double that is infinite as a single gives the infinite single. -/
theorem singleFrom?_of_infinite
    {x : Double}
    (hnear : x.convert .binary32 = .infinite negative) :
    singleFrom? l x = some (.infinite negative) := by
  simp only [singleFrom?, hnear, Floating.toRat?]
  split
  · next hsome => contradiction
  · rfl

/-- A double that is a single gives that single. -/
theorem singleFrom?_of_eq
    (hnear : (.finite negative n e hn : Double).convert .binary32 = .finite negative m q h)
    (hvalue : (n : Rat) * 2 ^ e = m * 2 ^ q) :
    singleFrom? l (.finite negative n e hn) = some (.finite negative m q h) := by
  simp only [singleFrom?, hnear, Floating.toRat?, hvalue, ne_eq, not_true_eq_false,
    false_and, if_false]

/-- A double beyond the largest single, but not infinite as one, gives the largest. -/
theorem singleFrom?_of_neighbor_infinite
    (hnear : (.finite negative n e hn : Double).convert .binary32 = .finite negative m q h)
    (hother :
      (Floating.finite negative m q h).neighbor
          (decide (signed negative (m * 2 ^ q) < signed negative (n * 2 ^ e))) =
        .infinite negative) :
    singleFrom? l (.finite negative n e hn) = some (.finite negative m q h) := by
  simp only [singleFrom?, hnear, Floating.toRat?_finite, hother,
    toRat?_middleOf_infinite, reduceCtorEq, and_false, if_false]

/-- Of two values around a middle, the far one is taken where the exact value is beyond it. -/
theorem side_eq_ite
    {α : Type}
    {middle near exact : Rat}
    (hne : middle ≠ near)
    (close far : α) :
    (if middle < exact then some (if near < middle then far else close)
      else if exact < middle then some (if near < middle then close else far)
      else some close) =
      some
        (if (near < middle ∧ middle < exact) ∨ (middle < near ∧ exact < middle) then far
          else close) := by
  rcases hne.lt_or_gt with hside | hside
  · simp only [hside, hside.not_gt, if_false, false_and, true_and, false_or]
    rcases lt_trichotomy middle exact with hlt | rfl | hgt
    · rw [if_pos hlt, if_neg hlt.not_gt]
    · rw [if_neg (lt_irrefl _), if_neg (lt_irrefl _), if_neg (lt_irrefl _)]
    · rw [if_neg hgt.not_gt, if_pos hgt, if_pos hgt]
  · simp only [hside, hside.not_gt, if_true, false_and, true_and, or_false]
    rcases lt_trichotomy middle exact with hlt | rfl | hgt
    · rw [if_pos hlt, if_pos hlt]
    · rw [if_neg (lt_irrefl _), if_neg (lt_irrefl _), if_neg (lt_irrefl _)]
    · rw [if_neg hgt.not_gt, if_pos hgt, if_neg hgt.not_gt]

/-- Being beyond a middle is seen from the magnitudes as well. -/
theorem beyond_signed_iff
    (negative : Bool)
    {middle near exact : Rat} :
    (signed negative near < signed negative middle ∧ signed negative middle < exact) ∨
        (signed negative middle < signed negative near ∧ exact < signed negative middle) ↔
      (near < middle ∧ middle < signed negative exact) ∨
        (middle < near ∧ signed negative exact < middle) := by
  cases negative with
  | false => exact Iff.rfl
  | true =>
      exact
        (or_congr (and_congr neg_lt_neg_iff neg_lt) (and_congr neg_lt_neg_iff lt_neg)).trans
          or_comm

/--
Where a neighbor is on the other side of the double: in the middle of the two the
exact value is asked for, elsewhere the nearest single is taken.
-/
theorem singleFrom?_eq_ite
    {h' : binary32.Canonical m' q'}
    (hnear : (.finite negative n e hn : Double).convert .binary32 = .finite negative m q h)
    (hother :
      (Floating.finite negative m q h).neighbor
          (decide (signed negative (m * 2 ^ q) < signed negative (n * 2 ^ e))) =
        .finite negative m' q' h')
    (hne : (n : Rat) * 2 ^ e ≠ m * 2 ^ q) :
    singleFrom? l (.finite negative n e hn) =
      if 2 * ((n : Rat) * 2 ^ e) = m * 2 ^ q + m' * 2 ^ q' then
        (exactValue? l).map fun y =>
          if (m * 2 ^ q < (n : Rat) * 2 ^ e ∧ n * 2 ^ e < signed negative y) ∨
              ((n : Rat) * 2 ^ e < m * 2 ^ q ∧ signed negative y < n * 2 ^ e) then
            .finite negative m' q' h'
          else
            .finite negative m q h
      else
        some (.finite negative m q h) := by
  have hmiddle := toRat?_middleOf_neighbor rfl ((congrArg Floating.toRat? hother).trans rfl)
  rw [hother] at hmiddle
  have hmidway :
      (middleOf (.finite negative m q h) (.finite negative m' q' h')).toRat? =
          some (signed negative (n * 2 ^ e)) ↔
        2 * ((n : Rat) * 2 ^ e) = m * 2 ^ q + m' * 2 ^ q' := by
    rw [hmiddle, Option.some.injEq]
    cases negative <;> simp only [signed, Bool.false_eq_true, if_true, if_false] <;>
      constructor <;> intro hsame <;> linarith
  have happart : signed negative ((n : Rat) * 2 ^ e) ≠ signed negative (m * 2 ^ q) :=
    fun hsame => hne (Number.signed_injective negative hsame)
  simp only [singleFrom?, hnear, Floating.toRat?_finite, hother, hmidway, happart, ne_eq,
    not_false_eq_true, true_and, decide_eq_true_eq]
  by_cases hmiddle : 2 * ((n : Rat) * 2 ^ e) = m * 2 ^ q + m' * 2 ^ q'
  · simp only [hmiddle, if_true]
    cases exactValue? l with
    | none => rfl
    | some y =>
        rw [Option.bind_eq_bind, Option.bind_some, side_eq_ite happart, Option.map_some]
        simp only [beyond_signed_iff]
  · simp only [hmiddle, if_false]

/-- Where the exact value is known, it decides in the middle. -/
theorem singleFrom?_of_neighbor
    {h' : binary32.Canonical m' q'}
    {x : Rat}
    (hnear : (.finite negative n e hn : Double).convert .binary32 = .finite negative m q h)
    (hother :
      (Floating.finite negative m q h).neighbor
          (decide (signed negative (m * 2 ^ q) < signed negative (n * 2 ^ e))) =
        .finite negative m' q' h')
    (hne : (n : Rat) * 2 ^ e ≠ m * 2 ^ q)
    (hexact : exactValue? l = some (signed negative x)) :
    singleFrom? l (.finite negative n e hn) =
      if 2 * ((n : Rat) * 2 ^ e) = m * 2 ^ q + m' * 2 ^ q' ∧
          ((m * 2 ^ q < (n : Rat) * 2 ^ e ∧ n * 2 ^ e < x) ∨
            ((n : Rat) * 2 ^ e < m * 2 ^ q ∧ x < n * 2 ^ e)) then
        some (.finite negative m' q' h')
      else
        some (.finite negative m q h) := by
  rw [singleFrom?_eq_ite hnear hother hne, hexact, Option.map_some, Number.signed_signed]
  split_ifs <;> grind

end Steps

section Nearest

variable {l : Literal}

theorem canonical_largest :
    binary32.Canonical (2 ^ 24 - 1) 104 := by
  decide

theorem largest_single :
    binary32.largest = ((2 ^ 24 - 1 : Nat) : Rat) * 2 ^ (104 : Int) := by
  norm_num [Number.Format.largest, binary32]

theorem overflow_single_lt_double :
    binary32.overflow < binary64.overflow := by
  have hunit : (2 : Rat) ^ (104 : Int) ≤ 2 ^ (971 : Int) :=
    zpow_le_zpow_right₀ (by norm_num) (by norm_num)
  calc
    ((2 : Rat) ^ 24 - 1 / 2) * 2 ^ (104 : Int) ≤ (2 ^ 24 - 1 / 2) * 2 ^ (971 : Int) :=
      mul_le_mul_of_nonneg_left hunit (by norm_num)
    _ < (2 ^ 53 - 1 / 2) * 2 ^ (971 : Int) :=
      mul_lt_mul_of_pos_right (by norm_num) (Number.Format.two_zpow_pos _)

theorem largest_lt_overflow_double :
    binary32.largest < binary64.overflow :=
  (Number.Format.largest_lt_overflow _).trans overflow_single_lt_double

/-- Up to the largest single the single nearest to the value itself is taken. -/
theorem singleFrom?_eq_nearest
    (hexact : exactValue? l = some l.value)
    (hrange : l.magnitude ≤ binary32.largest) :
    singleFrom? l (l.nearest .binary64) = some (l.nearest .binary32) := by
  have hpos := l.magnitude_nonneg
  obtain ⟨n, e, hdouble, hx⟩ :=
    Number.Format.exists_nearest_eq (by decide) hpos
      (hrange.trans_lt largest_lt_overflow_double) l.negative
  have hvalue := Number.Format.value_nonneg n e
  have hlargest : (n : Rat) * 2 ^ e ≤ binary32.largest := by
    rw [largest_single] at hrange ⊢
    exact Number.Format.double_le_single canonical_largest hdouble hrange
  obtain ⟨m, q, hsingle, hnear⟩ :=
    Number.Format.exists_nearest_eq (by decide) hvalue
      (hlargest.trans_lt (Number.Format.largest_lt_overflow _)) l.negative
  have hresult {m q} (h : binary32.IsNearest l.magnitude m q) :
      l.nearest .binary32 = .finite l.negative m q h.canonical :=
    l.nearest_single.trans
      (Number.Format.nearest_eq_of_isNearest (by decide) hpos
        (hrange.trans_lt (Number.Format.largest_lt_overflow _)) h l.negative)
  have hneighbor :=
    Floating.neighbor_toward l.negative hsingle.canonical hvalue
  rw [Literal.nearest_double, hx]
  rcases lt_trichotomy ((n : Rat) * 2 ^ e) (m * 2 ^ q) with hbelow | heq | habove
  · have hm : m ≠ 0 := by
      rintro rfl
      rw [Nat.cast_zero, zero_mul] at hbelow
      exact absurd hvalue (not_le.2 hbelow)
    obtain ⟨m', q', hnext, hinward⟩ :=
      Floating.adjacent_inward l.negative hsingle.canonical hm
    have hother := (hneighbor hbelow.ne).trans ((if_neg hbelow.not_gt).trans hinward)
    obtain ⟨hmoves, hstays⟩ := Number.Format.isNearest_below hdouble hsingle hnext hbelow
    rw [singleFrom?_of_neighbor hnear hother hbelow.ne hexact]
    simp only [hbelow, hbelow.not_gt, false_and, true_and, false_or]
    split
    · next hmiddle => rw [hresult (hmoves hmiddle)]
    · next hmiddle => rw [hresult (hstays hmiddle)]
  · rw [singleFrom?_of_eq hnear heq,
      hresult (Number.Format.isNearest_of_eq hdouble hsingle.canonical heq hpos hrange)]
  · obtain ⟨m', q', hnext, houtward⟩ :=
      Floating.exists_adjacent_above l.negative hsingle.canonical (habove.trans_le hlargest)
    have hother := (hneighbor habove.ne').trans ((if_pos habove).trans houtward)
    obtain ⟨hmoves, hstays⟩ := Number.Format.isNearest_above hdouble hsingle hnext habove
    rw [singleFrom?_of_neighbor hnear hother habove.ne' hexact]
    simp only [habove, habove.not_gt, false_and, true_and, or_false]
    split
    · next hmiddle => rw [hresult (hmoves hmiddle)]
    · next hmiddle => rw [hresult (hstays hmiddle)]

end Nearest

section Overflow

variable {l : Literal}

theorem overflow_single :
    binary32.overflow = 2 ^ 128 - 2 ^ 103 := by
  norm_num [Number.Format.overflow, binary32]

/-- Only a double that is infinite as a single gives an infinite one. -/
theorem convert_of_singleFrom?_infinite
    {x : Double}
    {negative : Bool}
    (h : singleFrom? l x = some (.infinite negative)) :
    x.convert .binary32 = .infinite negative := by
  have hfinite {y : Single} {t : Rat} (hy : y.toRat? = some t) :
      some y ≠ some (.infinite negative) := by
    rintro hsame
    cases hsame
    contradiction
  simp only [singleFrom?] at h
  split at h
  · next v s hv hs =>
      have hnear := hfinite hs
      split at h
      · next hmiddle =>
          -- The neighbor is not infinite either, as there is a middle.
          have hother :
              some ((x.convert .binary32).neighbor (decide (s < v))) ≠
                some (.infinite negative) := by
            intro hinfinite
            rw [Option.some.inj hinfinite, toRat?_middleOf_infinite] at hmiddle
            exact absurd hmiddle.2 (Option.some_ne_none v).symm
          obtain ⟨exact', -, hside⟩ := Option.bind_eq_some_iff.1 h
          exfalso
          split_ifs at hside <;> contradiction
      · exact Option.some.inj h
  · exact Option.some.inj h

/-- The single is infinite from half a unit of doubles below the overflow of singles on. -/
theorem singleFrom?_eq_infinite_iff
    (l : Literal)
    (negative : Bool) :
    singleFrom? l (l.nearest .binary64) = some (.infinite negative) ↔
      negative = l.negative ∧ 2 ^ 128 - 2 ^ 103 - 2 ^ 74 ≤ l.magnitude := by
  have hpos := l.magnitude_nonneg
  rw [Literal.nearest_double]
  by_cases hdouble : binary64.overflow ≤ l.magnitude
  · have hlarge : (2 : Rat) ^ 128 - 2 ^ 103 - 2 ^ 74 ≤ l.magnitude := by
      have hsingle := overflow_single_lt_double.le.trans hdouble
      rw [overflow_single] at hsingle
      linarith
    rw [Number.Format.nearest_of_overflow_le hdouble, singleFrom?_of_infinite rfl]
    simp [hlarge, eq_comm]
  · obtain ⟨n, e, hnearest, hx⟩ :=
      Number.Format.exists_nearest_eq (by decide) hpos (not_le.1 hdouble) l.negative
    have hvalue := Number.Format.value_nonneg n e
    have hconvert :
        (.finite l.negative n e hnearest.canonical : Double).convert .binary32 =
          binary32.nearest l.negative (n * 2 ^ e) := rfl
    rw [hx, ← Number.Format.overflow_le_double_iff hnearest]
    constructor
    · intro h
      have hinfinite := convert_of_singleFrom?_infinite h
      rw [hconvert] at hinfinite
      by_cases hover : binary32.overflow ≤ n * 2 ^ e
      · rw [Number.Format.nearest_of_overflow_le hover] at hinfinite
        cases hinfinite
        exact ⟨rfl, hover⟩
      · obtain ⟨m, q, hsingle, hnear⟩ :=
          Number.Format.exists_nearest_eq (by decide) hvalue (not_le.1 hover) l.negative
        rw [hnear] at hinfinite
        contradiction
    · rintro ⟨rfl, hover⟩
      exact singleFrom?_of_infinite
        (hconvert.trans (Number.Format.nearest_of_overflow_le hover l.negative))

/-- A magnitude between the largest single and the overflow has the largest as its nearest. -/
theorem isNearest_largest
    {x : Rat}
    {m : Nat}
    {q : Int}
    (hlow : binary32.largest ≤ x)
    (h : binary32.IsNearest x m q) :
    m = 2 ^ 24 - 1 ∧ q = 104 := by
  refine Number.Format.canonical_unique h.canonical canonical_largest ?_
  rw [← largest_single]
  refine le_antisymm (Number.Format.value_le_largest h.canonical) ?_
  rw [largest_single] at hlow ⊢
  exact h.le_value canonical_largest hlow

/-- Up to there the largest single is taken. -/
theorem singleFrom?_eq_largest
    (hlow : binary32.largest ≤ l.magnitude)
    (hhigh : l.magnitude < 2 ^ 128 - 2 ^ 103 - 2 ^ 74) :
    singleFrom? l (l.nearest .binary64) =
      some (.finite l.negative (2 ^ 24 - 1) 104 canonical_largest) := by
  have hdouble : l.magnitude < binary64.overflow := by
    refine lt_trans ?_ overflow_single_lt_double
    rw [overflow_single]
    linarith
  obtain ⟨n, e, hnearest, hx⟩ :=
    Number.Format.exists_nearest_eq (by decide) l.magnitude_nonneg hdouble l.negative
  have hover : (n : Rat) * 2 ^ e < binary32.overflow := by
    rw [← not_le, Number.Format.overflow_le_double_iff hnearest]
    exact not_le.2 hhigh
  have hlargest : binary32.largest ≤ n * 2 ^ e := by
    rw [largest_single] at hlow ⊢
    exact Number.Format.single_le_double canonical_largest hnearest hlow
  have hvalue := Number.Format.value_nonneg n e
  obtain ⟨m, q, hsingle, hnear⟩ :=
    Number.Format.exists_nearest_eq (by decide) hvalue hover l.negative
  obtain ⟨rfl, rfl⟩ := isNearest_largest hlargest hsingle
  rw [Literal.nearest_double, hx]
  rw [largest_single] at hlargest
  rcases hlargest.eq_or_lt with heq | hlt
  · exact singleFrom?_of_eq hnear heq.symm
  · refine singleFrom?_of_neighbor_infinite hnear ?_
    rw [Floating.neighbor_toward l.negative hsingle.canonical hvalue hlt.ne', if_pos hlt]
    rcases Floating.adjacent_outward l.negative hsingle.canonical with
      ⟨m', q', hnext, -⟩ | ⟨-, -, houtward⟩
    · have hbeyond := Number.Format.value_le_largest hnext.right
      rw [largest_single] at hbeyond
      exact absurd hnext.lt (not_lt.2 hbeyond)
    · exact houtward

end Overflow

section Texts

variable {code : Int}
variable {raw : String}
variable {s : Spelling}

/-- No literal is a word. -/
theorem lookup_singleWords
    {text : List Char}
    {l : Literal}
    (h : Literal.ofChars? text = some l) :
    singleWords.lookup (String.ofList text) = none := by
  have hwords : ∀ word ∈ singleWords, Literal.ofChars? word.1.toList = none := by
    decide
  cases hfound : singleWords.lookup (String.ofList text) with
  | none => rfl
  | some x =>
      obtain ⟨before, after, hsplit, -⟩ := List.lookup_eq_some_iff.1 hfound
      have hnone := hwords (String.ofList text, x) (by simp [hsplit])
      rw [String.toList_ofList, h] at hnone
      contradiction

/-- A literal is read as the single that is taken for it. -/
theorem single?_eq
    (hraw : Text.stripChars raw.toList = s.chars) :
    single? raw = singleFrom? s.literal (s.literal.nearest .binary64) := by
  have hliteral := s.ofChars?_chars
  simp only [single?, hraw, lookup_singleWords hliteral, hliteral, Option.bind_eq_bind,
    Option.bind_some]

/-- And so it is coerced to that. -/
theorem coerce_single_eq_ok_iff
    (column : Json)
    (hcode : TypeClass.ofCode code = .single)
    (hraw : Text.stripChars raw.toList = s.chars)
    {x : Single} :
    coerce false code column raw = .ok (.single x) ↔
      singleFrom? s.literal (s.literal.nearest .binary64) = some x := by
  simp only [coerce, Bool.false_eq_true, if_false, hcode, read?, Text.shown_whole, single?_eq hraw]
  cases singleFrom? s.literal (s.literal.nearest .binary64) <;> simp

/--
A literal within the range of singles is coerced to the single nearest to its value,
with its sign: that it is rounded to a double first does not show.
-/
theorem coerce_nearest_single
    (column : Json)
    (hcode : TypeClass.ofCode code = .single)
    (hraw : Text.stripChars raw.toList = s.chars)
    (hdigits : s.form = .hexadecimal → s.exponentDigits ≤ 4300)
    (hrange : |s.value| ≤ (2 ^ 24 - 1) * 2 ^ 104) :
    ∃ x : Single,
      coerce false code column raw = .ok (.single x) ∧
        x.isFinite = true ∧
        x.IsNearest s.sign.negative s.value := by
  rw [← Spelling.value_literal, Literal.abs_value] at hrange
  have hexact : exactValue? s.literal = some s.literal.value := by
    refine if_neg ?_
    rintro ⟨hform, htoo⟩
    exact absurd (hdigits hform) (not_le.2 htoo)
  have hmagnitude : s.literal.magnitude ≤ binary32.largest := by
    refine hrange.trans_eq ?_
    norm_num [Number.Format.largest, binary32]
  have hover := hmagnitude.trans_lt (Number.Format.largest_lt_overflow _)
  have hnearest :=
    (Literal.isNearest_iff (f := binary32) (by decide) (by decide) (by decide) s.literal _).2 rfl
  obtain ⟨m, q, hsingle, hfinite⟩ :=
    Number.Format.exists_nearest_eq (by decide) s.literal.magnitude_nonneg hover
      s.sign.negative
  refine ⟨s.literal.nearest .binary32, ?_, ?_, ?_⟩
  · rw [coerce_single_eq_ok_iff column hcode hraw]
    exact singleFrom?_eq_nearest hexact hmagnitude
  · rw [Literal.nearest_single]
    exact congrArg Floating.isFinite hfinite
  · rwa [Spelling.value_literal] at hnearest

/-- A price just above the middle of one and the next single, between blanks. -/
def aboveMiddle : Spelling where
  form := .decimal
  sign := .absent
  opening := []
  whole := ['1']
  fraction := some "00000005960464477539062500001".toList
  exponent := none
  suffix := []
  opening_mem := Number.LiteralForm.nil_mem_openings
  suffix_mem := Number.nil_mem_suffixes

theorem coerce_nearest_single_aboveMiddle :
    ∃ x : Single,
      coerce false 7 (.text "PRICE") " 1.00000005960464477539062500001 " = .ok (.single x) ∧
        x.isFinite = true ∧
        x.IsNearest false aboveMiddle.value :=
  coerce_nearest_single (s := aboveMiddle) _ (by decide) (by decide) (by decide)
    (by decide +kernel)

/--
A literal is coerced to an infinite single from half a unit of doubles below the
overflow of singles on, and to the largest single from that up to there. So it is
coerced to the single nearest to its value just outside that half unit.
-/
theorem coerce_overflow_single
    (column : Json)
    (hcode : TypeClass.ofCode code = .single)
    (hraw : Text.stripChars raw.toList = s.chars) :
    (∀ negative,
      coerce false code column raw = .ok (.single (.infinite negative)) ↔
        negative = s.sign.negative ∧ 2 ^ 128 - 2 ^ 103 - 2 ^ 74 ≤ |s.value|) ∧
      ((2 ^ 24 - 1) * 2 ^ 104 ≤ |s.value| →
        |s.value| < 2 ^ 128 - 2 ^ 103 - 2 ^ 74 →
        coerce false code column raw =
          .ok (.single (.finite s.sign.negative (2 ^ 24 - 1) 104 canonical_largest))) ∧
      ((2 ^ 24 - 1) * 2 ^ 104 ≤ |s.value| →
        ∀ x : Single,
          x.IsNearest s.sign.negative s.value →
          (coerce false code column raw = .ok (.single x) ↔
            ¬ (2 ^ 128 - 2 ^ 103 - 2 ^ 74 ≤ |s.value| ∧ |s.value| < 2 ^ 128 - 2 ^ 103))) := by
  have hlargest : ((2 : Rat) ^ 24 - 1) * 2 ^ 104 = binary32.largest := by
    norm_num [Number.Format.largest, binary32]
  have hpos := s.literal.magnitude_nonneg
  simp only [coerce_single_eq_ok_iff column hcode hraw, ← Spelling.value_literal,
    Literal.abs_value, hlargest]
  refine ⟨fun negative => singleFrom?_eq_infinite_iff _ negative,
    fun hlow hhigh => singleFrom?_eq_largest hlow hhigh, fun hlow x hx => ?_⟩
  have hnearest : x = binary32.nearest s.sign.negative s.literal.magnitude :=
    (Floating.isNearest_iff (by decide) hpos _ _).1 hx
  by_cases hover : binary32.overflow ≤ s.literal.magnitude
  · -- Beyond the overflow both are infinite.
    rw [hnearest, Number.Format.nearest_of_overflow_le hover, singleFrom?_eq_infinite_iff]
    rw [overflow_single] at hover
    exact iff_of_true ⟨rfl, by linarith⟩ fun hgap => absurd hover (not_le.2 hgap.2)
  · obtain ⟨m, q, hsingle, hfinite⟩ :=
      Number.Format.exists_nearest_eq (by decide) hpos (not_le.1 hover) s.sign.negative
    obtain ⟨rfl, rfl⟩ := isNearest_largest hlow hsingle
    rw [hnearest, hfinite]
    rw [overflow_single] at hover
    by_cases hhigh : s.literal.magnitude < 2 ^ 128 - 2 ^ 103 - 2 ^ 74
    · exact iff_of_true (singleFrom?_eq_largest hlow hhigh)
        fun hgap => absurd hhigh (not_lt.2 hgap.1)
    · -- In the gap the nearest is still the largest single, but an infinite one is taken.
      have hinfinite :=
        (singleFrom?_eq_infinite_iff s.literal s.sign.negative).2 ⟨rfl, not_lt.1 hhigh⟩
      rw [hinfinite]
      exact iff_of_false (fun hsame => by cases hsame)
        fun hnone => hnone ⟨not_lt.1 hhigh, not_le.1 hover⟩

/-- The largest integer below the overflow of singles. -/
def belowOverflow : Spelling where
  form := .decimal
  sign := .absent
  opening := []
  whole := "340282356779733661637539395458142568447".toList
  fraction := none
  exponent := none
  suffix := []
  opening_mem := Number.LiteralForm.nil_mem_openings
  suffix_mem := Number.nil_mem_suffixes

theorem coerce_overflow_single_belowOverflow :
    coerce false 6 (.text "PRICE") "340282356779733661637539395458142568447" =
        .ok (.single (.infinite false)) ∧
      |belowOverflow.value| < 2 ^ 128 - 2 ^ 103 :=
  ⟨((coerce_overflow_single (s := belowOverflow) _ (by decide) (by decide)).1 false).2
      (by decide +kernel),
    by decide +kernel⟩

end Texts

end Coercion
end ChangeFeed
