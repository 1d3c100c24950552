/-!
# Instants

A microsecond of the Gregorian calendar from year 1 to year 9999, given by its
fields. The next instant carries from the microseconds up to the years; after
the last microsecond of year 9999 there is none.

**Results.**

* `daysIn_pos`: every month has a day.
* `fields_ofFields?`: fields that make an instant are its fields.
-/

namespace ChangeFeed

/-- Whether a year has a 29th of February. -/
def isLeapYear (year : Nat) : Bool :=
  (year % 4 = 0 && year % 100 != 0) || year % 400 = 0

/-- The number of days of a month. -/
def daysIn (year month : Nat) : Nat :=
  match month with
  | 2 => if isLeapYear year then 29 else 28
  | 4 | 6 | 9 | 11 => 30
  | _ => 31

theorem daysIn_pos (year month : Nat) :
    0 < daysIn year month := by
  unfold daysIn
  split <;> (try split) <;> decide

/-- The fields of a date and time, in range or not. -/
structure DateTime where
  year : Nat
  month : Nat
  day : Nat
  hour : Nat
  minute : Nat
  second : Nat
  microsecond : Nat
deriving DecidableEq

namespace DateTime

/-- Whether the fields are those of an instant. -/
def InRange (t : DateTime) : Prop :=
  (1 ≤ t.year ∧ t.year ≤ 9999) ∧
    (1 ≤ t.month ∧ t.month ≤ 12) ∧
    (1 ≤ t.day ∧ t.day ≤ daysIn t.year t.month) ∧
    t.hour < 24 ∧
    t.minute < 60 ∧
    t.second < 60 ∧
    t.microsecond < 1000000

instance (t : DateTime) : Decidable t.InRange :=
  inferInstanceAs (Decidable (_ ∧ _ ∧ _ ∧ _ ∧ _ ∧ _ ∧ _))

/-- The fields one microsecond later; a field at its end starts again and the one above moves on. -/
def next (t : DateTime) : DateTime :=
  if t.microsecond + 1 < 1000000 then
    { t with microsecond := t.microsecond + 1 }
  else if t.second + 1 < 60 then
    { t with second := t.second + 1, microsecond := 0 }
  else if t.minute + 1 < 60 then
    { t with minute := t.minute + 1, second := 0, microsecond := 0 }
  else if t.hour + 1 < 24 then
    { t with hour := t.hour + 1, minute := 0, second := 0, microsecond := 0 }
  else if t.day + 1 ≤ daysIn t.year t.month then
    { t with day := t.day + 1, hour := 0, minute := 0, second := 0, microsecond := 0 }
  else if t.month + 1 ≤ 12 then
    ⟨t.year, t.month + 1, 1, 0, 0, 0, 0⟩
  else
    ⟨t.year + 1, 1, 1, 0, 0, 0, 0⟩

/-- The fields from the year down. -/
def toList (t : DateTime) : List Nat :=
  [t.year, t.month, t.day, t.hour, t.minute, t.second, t.microsecond]

end DateTime

/-- Whether the first of two lists comes first by their first difference. -/
def precedes : List Nat → List Nat → Bool
  | a :: as, b :: bs => a < b || (a = b && precedes as bs)
  | _, _ => false

/-- A microsecond of the calendar. -/
structure Instant where
  fields : DateTime
  inRange : fields.InRange
deriving DecidableEq

namespace Instant

/-- The instant with these fields, if there is one. -/
def ofFields? (t : DateTime) : Option Instant :=
  if h : t.InRange then some ⟨t, h⟩ else none

/-- The instant one microsecond later, none after the last. -/
def next? (i : Instant) : Option Instant :=
  ofFields? i.fields.next

/-- Whether an instant comes before another. -/
def isBefore (i j : Instant) : Bool :=
  precedes i.fields.toList j.fields.toList

theorem fields_ofFields?
    (t : DateTime)
    (i : Instant)
    (h : ofFields? t = some i) :
    i.fields = t := by
  unfold ofFields? at h
  split at h
  · cases h
    rfl
  · contradiction

/-- The digits of a number, with zeros in front up to a width. -/
def padded (width n : Nat) : List Char :=
  let digits := Nat.toDigits 10 n
  List.replicate (width - digits.length) '0' ++ digits

/--
The text of an instant: date, `T` or a space, and the time to the microsecond.
The year has no leading zeros.
-/
def render (iso : Bool) (i : Instant) : String :=
  let t := i.fields
  String.ofList
    (Nat.toDigits 10 t.year ++
      '-' :: padded 2 t.month ++
      '-' :: padded 2 t.day ++
      (if iso then 'T' else ' ') :: padded 2 t.hour ++
      ':' :: padded 2 t.minute ++
      ':' :: padded 2 t.second ++
      '.' :: padded 6 t.microsecond)

end Instant
end ChangeFeed
