import ChangeFeed.Stamp.Instant
import Mathlib.Algebra.Order.Group.Nat

/-!
# The calendar as a count of microseconds

An instant is counted by the microseconds from the first one, with the leap days
of the Gregorian calendar in their places. The count tells instants apart, orders
them as their fields do, and is one more at the next instant; there is no next
instant only for the last microsecond of year 9999.

**Results.**

* `isBefore_iff`: an instant comes before another just if its count is smaller.
* `next?_eq_some_iff`: the next instant has the next count.
* `next?_eq_some_iff_covers`: between an instant and the next one there is no other.
* `next?_eq_none_iff`: only the last instant has no next one.
-/

namespace ChangeFeed

/-- The days of the first `n` years. -/
def daysOfYears (n : Nat) : Nat :=
  365 * n + n / 4 - n / 100 + n / 400

/-- The days of the first `n` months of a year. -/
def daysOfMonths (year : Nat) : Nat → Nat
  | 0 => 0
  | month + 1 => daysOfMonths year month + daysIn year (month + 1)

/-- A year has a day more than 365 just if it is a leap year. -/
theorem daysOfYears_succ (n : Nat) :
    daysOfYears (n + 1) = daysOfYears n + if isLeapYear (n + 1) then 366 else 365 := by
  have hquarter : (n + 1) / 4 = n / 4 + if (n + 1) % 4 = 0 then 1 else 0 := by
    simp only [Nat.succ_div, Nat.dvd_iff_mod_eq_zero]
  have hcentury : (n + 1) / 100 = n / 100 + if (n + 1) % 100 = 0 then 1 else 0 := by
    simp only [Nat.succ_div, Nat.dvd_iff_mod_eq_zero]
  have hcycle : (n + 1) / 400 = n / 400 + if (n + 1) % 400 = 0 then 1 else 0 := by
    simp only [Nat.succ_div, Nat.dvd_iff_mod_eq_zero]
  have hfewer : n / 100 ≤ n / 4 := Nat.div_le_div_left (by decide) (by decide)
  unfold daysOfYears isLeapYear
  rw [hquarter, hcentury, hcycle]
  by_cases h400 : (n + 1) % 400 = 0
  · have h100 : (n + 1) % 100 = 0 := by omega
    have h4 : (n + 1) % 4 = 0 := by omega
    simp [h400, h100, h4]
    omega
  by_cases h100 : (n + 1) % 100 = 0
  · have h4 : (n + 1) % 4 = 0 := by omega
    simp [h400, h100, h4]
    omega
  by_cases h4 : (n + 1) % 4 = 0
  · simp [h400, h100, h4]
    omega
  · simp [h400, h100, h4]
    omega

theorem daysIn_le (year month : Nat) :
    daysIn year month ≤ 31 := by
  unfold daysIn
  split <;> (try split) <;> decide

/-- The days of the twelve months of a year are those by which a year more is longer. -/
theorem daysOfMonths_twelve
    {year : Nat}
    (h : 1 ≤ year) :
    daysOfYears (year - 1) + daysOfMonths year 12 = daysOfYears year := by
  obtain ⟨n, rfl⟩ := Nat.exists_eq_add_of_le' h
  rw [Nat.add_sub_cancel, daysOfYears_succ]
  simp only [daysOfMonths, daysIn]
  split <;> rfl

theorem daysOfYears_mono {m n : Nat} (h : m ≤ n) :
    daysOfYears m ≤ daysOfYears n := by
  induction n, h using Nat.le_induction with
  | base => exact Nat.le_refl _
  | succ n _ ih =>
      rw [daysOfYears_succ]
      omega

theorem daysOfMonths_mono (year : Nat) {m n : Nat} (h : m ≤ n) :
    daysOfMonths year m ≤ daysOfMonths year n := by
  induction n, h using Nat.le_induction with
  | base => exact Nat.le_refl _
  | succ n _ ih =>
      rw [daysOfMonths]
      omega

namespace DateTime

/-- The days before the day of these fields, from the first day of year 1. -/
def days (t : DateTime) : Nat :=
  daysOfYears (t.year - 1) + daysOfMonths t.year (t.month - 1) + (t.day - 1)

/-- The microseconds before these fields, from the first instant. -/
def count (t : DateTime) : Nat :=
  (((t.days * 24 + t.hour) * 60 + t.minute) * 60 + t.second) * 1000000 + t.microsecond

/-- The days left in a month make up the days before the next one. -/
theorem days_add_left
    {t : DateTime}
    (h : t.InRange) :
    t.days + (daysIn t.year t.month - t.day) + 1 =
      daysOfYears (t.year - 1) + daysOfMonths t.year t.month := by
  obtain ⟨-, ⟨hmonth, -⟩, ⟨hday, hlast⟩, -⟩ := h
  obtain ⟨month, hsucc⟩ := Nat.exists_eq_add_of_le' hmonth
  rw [days, hsucc, Nat.add_sub_cancel, daysOfMonths, ← hsucc]
  omega

/-- Days are counted in the order of years, months and days. -/
theorem days_lt
    {t u : DateTime}
    (ht : t.InRange)
    (h :
      t.year < u.year ∨
        t.year = u.year ∧ (t.month < u.month ∨ t.month = u.month ∧ t.day < u.day)) :
    t.days < u.days := by
  have hleft := days_add_left ht
  obtain ⟨⟨hfirst, -⟩, ⟨-, htwelve⟩, ⟨hday, -⟩, -⟩ := ht
  rcases h with hyear | ⟨hyear, hmonth | ⟨hmonth, hlater⟩⟩
  · have hmonths := daysOfMonths_mono t.year htwelve
    have hall := daysOfMonths_twelve hfirst
    have hyears : daysOfYears t.year ≤ daysOfYears (u.year - 1) :=
      daysOfYears_mono (by omega)
    rw [days.eq_def u]
    omega
  · have hmonths : daysOfMonths t.year t.month ≤ daysOfMonths t.year (u.month - 1) :=
      daysOfMonths_mono _ (by omega)
    rw [days.eq_def u, ← hyear]
    omega
  · rw [days, days, hyear, hmonth]
    omega

/-- What it is for fields to come before others, from the year down. -/
theorem precedes_iff (t u : DateTime) :
    precedes t.toList u.toList = true
      ↔
    t.year < u.year ∨ t.year = u.year ∧
      (t.month < u.month ∨ t.month = u.month ∧
        (t.day < u.day ∨ t.day = u.day ∧
          (t.hour < u.hour ∨ t.hour = u.hour ∧
            (t.minute < u.minute ∨ t.minute = u.minute ∧
              (t.second < u.second ∨ t.second = u.second ∧
                t.microsecond < u.microsecond))))) := by
  simp [precedes, toList]

theorem count_lt
    {t u : DateTime}
    (ht : t.InRange)
    (hu : u.InRange)
    (h : precedes t.toList u.toList = true) :
    t.count < u.count := by
  have hdays :
      t.days < u.days ∨ t.days = u.days ∧
        (t.hour < u.hour ∨ t.hour = u.hour ∧
          (t.minute < u.minute ∨ t.minute = u.minute ∧
            (t.second < u.second ∨ t.second = u.second ∧
              t.microsecond < u.microsecond))) := by
    rcases (precedes_iff t u).1 h with
      hyear | ⟨hyear, hmonth | ⟨hmonth, hday | ⟨hday, htime⟩⟩⟩
    · exact Or.inl (days_lt ht (Or.inl hyear))
    · exact Or.inl (days_lt ht (Or.inr ⟨hyear, Or.inl hmonth⟩))
    · exact Or.inl (days_lt ht (Or.inr ⟨hyear, Or.inr ⟨hmonth, hday⟩⟩))
    · exact Or.inr ⟨by rw [days, days, hyear, hmonth, hday], htime⟩
  obtain ⟨-, -, -, hhour, hminute, hsecond, hmicrosecond⟩ := ht
  obtain ⟨-, -, -, hhour', hminute', hsecond', hmicrosecond'⟩ := hu
  unfold count
  rcases hdays with hday | ⟨hday, hhours | ⟨hhours, hminutes | ⟨hminutes, hseconds |
    ⟨hseconds, hmicroseconds⟩⟩⟩⟩ <;> omega

/-- Fields neither of which come before the others are the same. -/
theorem eq_of_not_precedes
    {t u : DateTime}
    (htu : precedes t.toList u.toList = false)
    (hut : precedes u.toList t.toList = false) :
    t = u := by
  rw [← Bool.not_eq_true, precedes_iff] at htu hut
  obtain ⟨y, mo, d, h, mi, s, us⟩ := t
  obtain ⟨y', mo', d', h', mi', s', us'⟩ := u
  simp only [mk.injEq] at *
  omega

theorem count_next
    {t : DateTime}
    (h : t.InRange) :
    t.next.count = t.count + 1 := by
  have hleft := days_add_left h
  obtain ⟨⟨hyear, -⟩, ⟨hmonth, htwelve⟩, ⟨hday, hlast⟩, hhour, hminute, hsecond,
    hmicrosecond⟩ := h
  unfold next
  split
  · simp only [count, days]
    omega
  split
  · simp only [count, days]
    omega
  split
  · simp only [count, days]
    omega
  split
  · simp only [count, days]
    omega
  split
  · simp only [count, days]
    omega
  -- The last day of a month: what follows is the first day of the next one.
  split
  · have hnext :
        days ⟨t.year, t.month + 1, 1, 0, 0, 0, 0⟩ =
          daysOfYears (t.year - 1) + daysOfMonths t.year t.month := rfl
    simp only [count, hnext]
    omega
  · have hnext : days ⟨t.year + 1, 1, 1, 0, 0, 0, 0⟩ = daysOfYears t.year := rfl
    have hall := daysOfMonths_twelve hyear
    have hdecember : t.month = 12 := by omega
    have hover : daysIn t.year t.month - t.day = 0 := by omega
    rw [hover, hdecember] at hleft
    simp only [count, hnext]
    omega

/-- The next fields are those of an instant, except after the last microsecond of year 9999. -/
theorem inRange_next
    {t : DateTime}
    (h : t.InRange)
    (hlast : t ≠ ⟨9999, 12, 31, 23, 59, 59, 999999⟩) :
    t.next.InRange := by
  obtain ⟨⟨hyear, hyears⟩, ⟨hmonth, htwelve⟩, ⟨hday, hdays⟩, hhour, hminute, hsecond,
    hmicrosecond⟩ := h
  have hfirst : ∀ year month, 1 ≤ daysIn year month := daysIn_pos
  have hzero : 0 < 1000000 := by decide
  have hsixty : 0 < 60 := by decide
  have hmidnight : 0 < 24 ∧ 0 < 60 ∧ 0 < 60 ∧ 0 < 1000000 := by decide
  unfold next
  split
  · next hroom =>
      exact ⟨⟨hyear, hyears⟩, ⟨hmonth, htwelve⟩, ⟨hday, hdays⟩, hhour, hminute, hsecond, hroom⟩
  split
  · next hroom =>
      exact ⟨⟨hyear, hyears⟩, ⟨hmonth, htwelve⟩, ⟨hday, hdays⟩, hhour, hminute, hroom, hzero⟩
  split
  · next hroom =>
      exact ⟨⟨hyear, hyears⟩, ⟨hmonth, htwelve⟩, ⟨hday, hdays⟩, hhour, hroom, hsixty, hzero⟩
  split
  · next hroom =>
      exact ⟨⟨hyear, hyears⟩, ⟨hmonth, htwelve⟩, ⟨hday, hdays⟩, hroom, hsixty, hsixty, hzero⟩
  split
  · next hroom =>
      exact ⟨⟨hyear, hyears⟩, ⟨hmonth, htwelve⟩, ⟨Nat.succ_pos _, hroom⟩, hmidnight⟩
  split
  · next hroom =>
      exact ⟨⟨hyear, hyears⟩, ⟨Nat.succ_pos _, hroom⟩, ⟨Nat.le_refl 1, hfirst _ _⟩, hmidnight⟩
  · -- Each field is at its end, so the year is not.
    have hyearEnd : t.year ≠ 9999 := by
      intro heq
      refine hlast ?_
      obtain ⟨y, mo, d, h, mi, s, us⟩ := t
      dsimp only at *
      obtain rfl : mo = 12 := by omega
      subst heq
      have hlength : daysIn 9999 12 = 31 := rfl
      rw [mk.injEq]
      omega
    have hjanuary : 1 ≤ 1 ∧ 1 ≤ 12 := by decide
    exact ⟨⟨Nat.succ_pos _, Nat.succ_le_of_lt (Nat.lt_of_le_of_ne hyears hyearEnd)⟩,
      hjanuary, ⟨Nat.le_refl 1, hfirst _ _⟩, hmidnight⟩

end DateTime

namespace Instant

/-- The microseconds before an instant, from the first one. -/
def count (i : Instant) : Nat :=
  i.fields.count

theorem inRange_final :
    (⟨9999, 12, 31, 23, 59, 59, 999999⟩ : DateTime).InRange := by
  decide

/-- The last microsecond of year 9999. -/
def final : Instant :=
  ⟨⟨9999, 12, 31, 23, 59, 59, 999999⟩, inRange_final⟩

/-- An instant comes before another just if its count is smaller. -/
theorem isBefore_iff (i j : Instant) :
    i.isBefore j = true ↔ i.count < j.count := by
  constructor
  · exact DateTime.count_lt i.inRange j.inRange
  · intro h
    by_contra hnot
    have hij : precedes i.fields.toList j.fields.toList = false := by
      simpa [isBefore] using hnot
    cases hji : precedes j.fields.toList i.fields.toList with
    | true =>
        have hgreater := DateTime.count_lt j.inRange i.inRange hji
        unfold count at h
        omega
    | false =>
        have heq := DateTime.eq_of_not_precedes hij hji
        simp [count, heq] at h

theorem eq_of_fields
    {i j : Instant}
    (h : i.fields = j.fields) :
    i = j := by
  cases i
  cases j
  cases h
  rfl

theorem count_inj {i j : Instant} :
    i.count = j.count ↔ i = j := by
  refine ⟨fun h => ?_, congrArg count⟩
  have hij : i.isBefore j = false := by
    rw [← Bool.not_eq_true, isBefore_iff]
    omega
  have hji : j.isBefore i = false := by
    rw [← Bool.not_eq_true, isBefore_iff]
    omega
  exact eq_of_fields (DateTime.eq_of_not_precedes hij hji)

/-- No instant comes after the last microsecond of year 9999. -/
theorem count_le_final (i : Instant) :
    i.count ≤ final.count := by
  by_contra hgreater
  rw [Nat.not_le, ← isBefore_iff, isBefore, DateTime.precedes_iff] at hgreater
  obtain ⟨⟨-, hyear⟩, ⟨-, hmonth⟩, ⟨-, hday⟩, hhour, hminute, hsecond, hmicrosecond⟩ := i.inRange
  have hdays := daysIn_le i.fields.year i.fields.month
  simp only [final] at hgreater
  omega

/-- Only the last instant has no next one. -/
theorem next?_eq_none_iff (i : Instant) :
    i.next? = none ↔ i = final := by
  constructor
  · intro h
    by_contra hne
    have hfields : i.fields ≠ final.fields := fun heq => hne (eq_of_fields heq)
    simp [next?, ofFields?, DateTime.inRange_next i.inRange hfields] at h
  · rintro rfl
    decide

/-- The next instant has the next count. -/
theorem next?_eq_some_iff (i j : Instant) :
    i.next? = some j ↔ j.count = i.count + 1 := by
  have hsound : ∀ found, i.next? = some found → found.count = i.count + 1 := by
    intro found h
    rw [count, fields_ofFields? _ _ h]
    exact DateTime.count_next i.inRange
  refine ⟨hsound j, fun h => ?_⟩
  cases hnext : i.next? with
  | none =>
      have hlast := count_le_final j
      rw [(next?_eq_none_iff i).1 hnext] at h
      omega
  | some found =>
      have hcount := hsound found hnext
      rw [← h, count_inj] at hcount
      rw [hcount]

/-- The next instant is the first of all that come later. -/
theorem next?_eq_some_iff_covers (i j : Instant) :
    i.next? = some j
      ↔
    i.isBefore j = true ∧
      ∀ k, i.isBefore k = true → k.isBefore j = false := by
  have hnot : ∀ k : Instant, k.isBefore j = false ↔ j.count ≤ k.count := by
    intro k
    rw [← Bool.not_eq_true, isBefore_iff, Nat.not_lt]
  simp only [isBefore_iff, hnot]
  constructor
  · intro h
    rw [next?_eq_some_iff] at h
    exact ⟨by omega, fun k hk => by omega⟩
  · rintro ⟨hlater, hfirst⟩
    cases hnext : i.next? with
    | none =>
        have hlast := count_le_final j
        rw [(next?_eq_none_iff i).1 hnext] at hlater
        omega
    | some k =>
        have hk := (next?_eq_some_iff i k).1 hnext
        have hj := hfirst k (by omega)
        rw [← hnext, next?_eq_some_iff]
        omega

end Instant
end ChangeFeed
