import ChangeFeed.Proofs.Number.Digits
import ChangeFeed.Proofs.Stamp.Calendar
import Mathlib.Data.List.Forall2
import Mathlib.Data.String.Basic

/-!
# The texts of instants

The text of an instant is its year, without leading zeros, and then its other
fields, each in a width of its own after a mark. So the text tells the instant, in
either format. From year 1000 on, the year has a width too, and then the texts are
ordered as the instants are.

**Results.**

* `Number.lt_of_ofDigits_lt`: digits in one width are ordered as their numbers.
* `eq_of_render_eq`: the text of an instant tells the instant.
* `length_render`: the text has 26 characters from year 1000 on.
* `render_lt_render`: from year 1000 on, texts are ordered as instants.
-/

namespace ChangeFeed

namespace Number

theorem digitValue_lt_iff
    {c d : Char}
    (hc : isDigit c = true)
    (hd : isDigit d = true) :
    digitValue c < digitValue d ↔ c < d := by
  rw [digitValue, digitValue, if_pos hc, if_pos hd]
  simp only [isDigit, Bool.and_eq_true, decide_eq_true_eq, Char.le_def,
    UInt32.le_iff_toNat_le] at hc hd
  change 48 ≤ c.toNat ∧ c.toNat ≤ 57 at hc
  change 48 ≤ d.toNat ∧ d.toNat ≤ 57 at hd
  rw [Char.lt_def, UInt32.lt_iff_toNat_lt]
  change c.toNat - 48 < d.toNat - 48 ↔ c.toNat < d.toNat
  omega

/-- Runs of digits of one length are ordered, as texts, by the numbers they stand for. -/
theorem lt_of_ofDigits_lt
    {digits others : List Char}
    (hdigits : ∀ c ∈ digits, isDigit c = true)
    (hothers : ∀ c ∈ others, isDigit c = true)
    (hlength : digits.length = others.length)
    (h : ofDigits 10 digits < ofDigits 10 others) :
    digits < others := by
  induction digits generalizing others with
  | nil =>
      cases others with
      | nil => exact absurd h (Nat.lt_irrefl _)
      | cons c others => exact absurd hlength (Nat.zero_ne_add_one _)
  | cons d digits ih =>
      cases others with
      | nil => exact absurd hlength (Nat.succ_ne_zero _)
      | cons c others =>
          rw [List.forall_mem_cons] at hdigits hothers
          have hrest : digits.length = others.length := Nat.succ.inj hlength
          have hsingle : ∀ c, ofDigits 10 [c] = digitValue c := by simp [ofDigits]
          rw [← List.singleton_append, ofDigits_append, ← List.singleton_append (l := others),
            ofDigits_append, hrest, hsingle, hsingle] at h
          rw [List.cons_lt_cons_iff]
          rcases lt_trichotomy d c with hless | rfl | hmore
          · exact Or.inl hless
          · exact Or.inr ⟨rfl, ih hdigits.2 hothers.2 hrest (by omega)⟩
          · -- A greater first digit outweighs whatever follows it.
            rw [← digitValue_lt_iff hothers.1 hdigits.1] at hmore
            have hbound := ofDigits_lt hothers.2
            have hweight := Nat.mul_le_mul_right (10 ^ others.length) (Nat.succ_le_of_lt hmore)
            rw [Nat.succ_mul] at hweight
            omega

end Number

/-- Where texts of one length differ, what follows them does not matter to their order. -/
theorem append_lt_append
    {α : Type}
    [LT α]
    {first second : List α}
    (rest others : List α)
    (hlength : first.length = second.length)
    (h : first < second) :
    first ++ rest < second ++ others := by
  induction first generalizing second with
  | nil =>
      cases second with
      | nil => contradiction
      | cons b second => contradiction
  | cons a first ih =>
      cases second with
      | nil => contradiction
      | cons b second =>
          rw [List.cons_lt_cons_iff] at h
          rw [List.cons_append, List.cons_append, List.cons_lt_cons_iff]
          exact h.imp_right fun ⟨heq, hrest⟩ => ⟨heq, ih (Nat.succ.inj hlength) hrest⟩

theorem DateTime.eq_of_toList_eq
    {t u : DateTime}
    (h : t.toList = u.toList) :
    t = u := by
  cases t
  cases u
  simpa [toList] using h

namespace Instant

section Padded

variable {width n : Nat}

theorem length_padded
    (hwidth : 0 < width)
    (h : n < 10 ^ width) :
    (padded width n).length = width := by
  have hle := (Nat.length_toDigits_le_iff (by decide) hwidth).2 h
  simp only [padded, List.length_append, List.length_replicate]
  omega

theorem isDigit_of_mem_padded
    {c : Char}
    (h : c ∈ padded width n) :
    Number.isDigit c = true := by
  rcases List.mem_append.1 h with hzero | hdigit
  · rw [List.eq_of_mem_replicate hzero]
    rfl
  · exact Number.isDigit_of_mem_toDigits hdigit

theorem ofDigits_padded (width n : Nat) :
    Number.ofDigits 10 (padded width n) = n := by
  rw [padded, Number.ofDigits_append, Number.ofDigits_zeros, Number.ofDigits_toDigits_ten]
  omega

theorem padded_lt_padded
    {m : Nat}
    (hwidth : 0 < width)
    (hmn : m < n)
    (h : n < 10 ^ width) :
    padded width m < padded width n := by
  have hlength : (padded width m).length = (padded width n).length := by
    rw [length_padded hwidth (Nat.lt_trans hmn h), length_padded hwidth h]
  refine Number.lt_of_ofDigits_lt (fun _ => isDigit_of_mem_padded)
    (fun _ => isDigit_of_mem_padded) hlength ?_
  rwa [ofDigits_padded, ofDigits_padded]

theorem padded_inj
    {m : Nat}
    (h : padded width m = padded width n) :
    m = n := by
  rw [← ofDigits_padded width m, h, ofDigits_padded]

end Padded

/-- Fields, each in its width after its mark. -/
def ruled : List (Char × Nat) → List Nat → List Char
  | (mark, width) :: rules, value :: values => mark :: (padded width value ++ ruled rules values)
  | _, _ => []

/-- Each field has room in its width. -/
def Fits (rules : List (Char × Nat)) (values : List Nat) : Prop :=
  List.Forall₂ (fun rule value => 0 < rule.2 ∧ value < 10 ^ rule.2) rules values

section Ruled

variable {rules : List (Char × Nat)}
variable {values others : List Nat}

theorem length_ruled (h : Fits rules values) :
    (ruled rules values).length = (rules.map fun rule => rule.2 + 1).sum := by
  induction h with
  | nil => rfl
  | cons hfits _ ih =>
      simp only [ruled, List.length_cons, List.length_append, length_padded hfits.1 hfits.2, ih,
        List.map_cons, List.sum_cons]
      omega

/-- Fields are ordered as texts by the first of them that differs. -/
theorem ruled_lt_ruled
    (hvalues : Fits rules values)
    (hothers : Fits rules others)
    (h : precedes values others = true) :
    ruled rules values < ruled rules others := by
  induction hvalues generalizing others with
  | nil => cases hothers; contradiction
  | @cons rule value rules values hfits _ ih =>
      cases hothers with
      | @cons _ other _ others hfits' hrest =>
          simp only [precedes, Bool.or_eq_true, Bool.and_eq_true, decide_eq_true_eq] at h
          simp only [ruled, List.cons_lt_cons_iff, true_and]
          refine Or.inr ?_
          rcases h with hless | ⟨rfl, hafter⟩
          · refine append_lt_append _ _ ?_ (padded_lt_padded hfits.1 hless hfits'.2)
            rw [length_padded hfits.1 hfits.2, length_padded hfits.1 hfits'.2]
          · exact List.append_left_lt (ih hrest hafter)

/-- The fields can be told from the text, whatever the marks. -/
theorem eq_of_ruled_eq
    {rules' : List (Char × Nat)}
    (hvalues : Fits rules values)
    (hothers : Fits rules' others)
    (hwidths : rules.map Prod.snd = rules'.map Prod.snd)
    (h : ruled rules values = ruled rules' others) :
    values = others := by
  induction hvalues generalizing rules' others with
  | nil =>
      cases hothers with
      | nil => rfl
      | cons => contradiction
  | @cons rule value rules values hfits _ ih =>
      cases hothers with
      | nil => contradiction
      | @cons rule' other rules' others hfits' hrest =>
          obtain ⟨hwidth, hwidths⟩ := List.cons.inj hwidths
          obtain ⟨-, htext⟩ := List.cons.inj h
          have hlength : (padded rule.2 value).length = (padded rule'.2 other).length := by
            rw [length_padded hfits.1 hfits.2, length_padded hfits'.1 hfits'.2, hwidth]
          obtain ⟨hfield, htext⟩ := List.append_inj htext hlength
          rw [hwidth] at hfield
          rw [padded_inj hfield, ih hrest hwidths htext]

end Ruled

/-- The marks and widths of the fields after the year. -/
def rules (iso : Bool) : List (Char × Nat) :=
  [('-', 2), ('-', 2), (if iso then 'T' else ' ', 2), (':', 2), (':', 2), ('.', 6)]

/-- The fields after the year. -/
def afterYear (i : Instant) : List Nat :=
  i.fields.toList.tail

theorem toList_fields (i : Instant) :
    i.fields.toList = i.fields.year :: i.afterYear := rfl

theorem toList_render (iso : Bool) (i : Instant) :
    (i.render iso).toList =
      Nat.toDigits 10 i.fields.year ++ ruled (rules iso) i.afterYear := by
  simp [render, rules, afterYear, DateTime.toList, ruled]

theorem fits_rules (iso : Bool) (i : Instant) :
    Fits (rules iso) i.afterYear := by
  obtain ⟨-, ⟨-, hmonth⟩, ⟨-, hday⟩, hhour, hminute, hsecond, hmicrosecond⟩ := i.inRange
  have hdays := daysIn_le i.fields.year i.fields.month
  simp only [Fits, rules, afterYear, DateTime.toList, List.tail_cons, List.forall₂_cons,
    List.forall₂_nil_right_iff]
  refine ⟨⟨?_, ?_⟩, ⟨?_, ?_⟩, ⟨?_, ?_⟩, ⟨?_, ?_⟩, ⟨?_, ?_⟩, ⟨?_, ?_⟩, trivial⟩ <;> omega

/-- The text of an instant tells the instant, in whichever format it is. -/
theorem eq_of_render_eq
    {iso iso' : Bool}
    {i j : Instant}
    (h : i.render iso = j.render iso') :
    i = j := by
  have htext := congrArg String.toList h
  rw [toList_render, toList_render] at htext
  have hmark :
      ∀ (iso : Bool) (i : Instant) (c : Char),
        (ruled (rules iso) i.afterYear).head? = some c → Number.isDigit c = false := by
    intro iso i c hc
    cases hc
    rfl
  have hdigits :
      ∀ (i : Instant), ∀ c ∈ Nat.toDigits 10 i.fields.year, Number.isDigit c = true :=
    fun i c => Number.isDigit_of_mem_toDigits
  have hyear := congrArg (List.takeWhile Number.isDigit) htext
  rw [Number.takeWhile_digits (hdigits i) (hmark iso i),
    Number.takeWhile_digits (hdigits j) (hmark iso' j)] at hyear
  have hrest := congrArg (List.dropWhile Number.isDigit) htext
  rw [Number.dropWhile_digits (hdigits i) (hmark iso i),
    Number.dropWhile_digits (hdigits j) (hmark iso' j)] at hrest
  have hyears : i.fields.year = j.fields.year := by
    rw [← Number.ofDigits_toDigits_ten i.fields.year, hyear, Number.ofDigits_toDigits_ten]
  have hafter := eq_of_ruled_eq (fits_rules iso i) (fits_rules iso' j) rfl hrest
  refine eq_of_fields (DateTime.eq_of_toList_eq ?_)
  rw [toList_fields, toList_fields, hyears, hafter]

section Year

variable {i j : Instant}

/-- A year of four digits has no leading zeros to lack. -/
theorem toDigits_year (h : 1000 ≤ i.fields.year) :
    Nat.toDigits 10 i.fields.year = padded 4 i.fields.year := by
  have hshort := Nat.length_toDigits_le_iff (b := 10) (n := i.fields.year) (k := 3) (by decide)
    (by decide)
  have hfour : 4 - (Nat.toDigits 10 i.fields.year).length = 0 := by omega
  rw [padded, hfour, List.replicate_zero, List.nil_append]

theorem length_render
    (iso : Bool)
    (h : 1000 ≤ i.fields.year) :
    (i.render iso).length = 26 := by
  have hyear := i.inRange.1.2
  rw [← String.length_toList, toList_render, toDigits_year h, List.length_append,
    length_padded (by decide) (by omega), length_ruled (fits_rules iso i)]
  rfl

/-- From year 1000 on, texts of one format are ordered as instants are. -/
theorem render_lt_render
    (iso : Bool)
    (h : 1000 ≤ i.fields.year)
    (hij : i.isBefore j = true) :
    i.render iso < j.render iso := by
  have hyear := j.inRange.1.2
  rw [isBefore, toList_fields, toList_fields] at hij
  simp only [precedes, Bool.or_eq_true, Bool.and_eq_true, decide_eq_true_eq] at hij
  rw [String.lt_iff_toList_lt, toList_render, toList_render, toDigits_year h,
    toDigits_year (i := j) (by omega)]
  rcases hij with hearlier | ⟨hsame, hafter⟩
  · refine append_lt_append _ _ ?_ (padded_lt_padded (by decide) hearlier (by omega))
    rw [length_padded (by decide) (by omega), length_padded (by decide) (by omega)]
  · rw [hsame]
    exact List.append_left_lt (ruled_lt_ruled (fits_rules iso i) (fits_rules iso j) hafter)

end Year

end Instant
end ChangeFeed
