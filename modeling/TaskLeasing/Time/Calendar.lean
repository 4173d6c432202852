import TaskLeasing.Time.Instant

namespace TaskLeasing

/-- A day of the Gregorian calendar, extended to all years; months and days count from one. -/
structure Date where
  year : Int
  month : Nat
  day : Nat
deriving DecidableEq

/-- Leap years: every fourth year, of the centuries only every fourth. -/
def isLeapYear (year : Int) : Bool :=
  year % 4 == 0 && (year % 100 != 0 || year % 400 == 0)

def monthLengths (leap : Bool) : List Nat :=
  [31, if leap then 29 else 28, 31, 30, 31, 30, 31, 31, 30, 31, 30, 31]

/-- Days from the first day of year 0 to the first day of a year: 365 for each year between, and
one more for each leap year. -/
def daysBeforeYear (year : Int) : Int :=
  365 * year + (year + 3) / 4 - (year + 99) / 100 + (year + 399) / 400

def Date.Valid (d : Date) : Prop :=
  1 ≤ d.month ∧ 1 ≤ d.day ∧
    ∃ length, (monthLengths (isLeapYear d.year))[d.month - 1]? = some length ∧ d.day ≤ length

instance (d : Date) : Decidable d.Valid :=
  match found : (monthLengths (isLeapYear d.year))[d.month - 1]? with
  | none => isFalse fun ⟨_, _, _, same, _⟩ => by simp [found] at same
  | some length =>
    if h : 1 ≤ d.month ∧ 1 ≤ d.day ∧ d.day ≤ length then
      isTrue ⟨h.1, h.2.1, length, found, h.2.2⟩
    else
      isFalse fun ⟨a, b, _, same, c⟩ => h ⟨a, b, by
        rw [found, Option.some.injEq] at same; exact same ▸ c⟩

/-- Days from the first day of year 0. -/
def Date.dayNumber (d : Date) : Int :=
  daysBeforeYear d.year + ((monthLengths (isLeapYear d.year)).take (d.month - 1)).foldl Nat.add 0 + d.day - 1

/-- The year a day falls into: the mean length of a year gives it up to one year either way. -/
def yearOfDay (number : Int) : Int :=
  let year := number * 400 / 146097
  if number < daysBeforeYear year then year - 1
  else if number < daysBeforeYear (year + 1) then year
  else year + 1

/-- The month, from the given one on, that holds a day, and the day's place in it. -/
def monthOfDay (month : Nat) : List Nat → Nat → Nat × Nat
  | [], day => (month, day + 1)
  | length :: rest, day =>
    if day < length then (month, day + 1) else monthOfDay (month + 1) rest (day - length)

def Date.ofDayNumber (number : Int) : Date :=
  let year := yearOfDay number
  let (month, day) := monthOfDay 1 (monthLengths (isLeapYear year)) (number - daysBeforeYear year).toNat
  ⟨year, month, day⟩

/-- The day number of 1 January 1970, where instants count from. -/
def epochDay : Int := 719528

/-- A time of day; second 60 is a leap second. -/
structure TimeOfDay where
  hour : Nat
  minute : Nat
  second : Nat
  nanos : Nat
deriving DecidableEq

def TimeOfDay.Valid (t : TimeOfDay) : Prop :=
  t.hour < 24 ∧ t.minute < 60 ∧ t.second ≤ 60 ∧ t.nanos < 1000000000

instance (t : TimeOfDay) : Decidable t.Valid :=
  inferInstanceAs (Decidable (_ ∧ _ ∧ _ ∧ _))

def nanosPerDay : Int := 86400 * 1000000000

def TimeOfDay.sinceMidnight (t : TimeOfDay) : Int :=
  ((t.hour * 60 + t.minute) * 60 + t.second) * 1000000000 + t.nanos

def TimeOfDay.ofSinceMidnight (nanos : Nat) : TimeOfDay :=
  let seconds := nanos / 1000000000
  ⟨seconds / 3600, seconds / 60 % 60, seconds % 60, nanos % 1000000000⟩

/-- The date and time of day an instant is written with. A leap second is written as the second after
the one it stands with. -/
def Instant.civil (t : Instant) : Date × TimeOfDay :=
  let time := TimeOfDay.ofSinceMidnight (t.nanos % nanosPerDay).toNat
  (Date.ofDayNumber (t.nanos / nanosPerDay + epochDay),
    if t.leap then { time with second := time.second + 1 } else time)

/-- The years of the calendar. -/
def Date.InCalendar (d : Date) : Prop := -262143 ≤ d.year ∧ d.year ≤ 262142

instance (d : Date) : Decidable d.InCalendar := inferInstanceAs (Decidable (_ ∧ _))

/-- The instant of a date and time of day at a place so many seconds ahead of universal time. The
calendar must hold the date at the place as well as the one that it is in universal time. -/
def Instant.ofCivil? (d : Date) (t : TimeOfDay) (offset : Int) : Option Instant :=
  if d.Valid ∧ d.InCalendar ∧ t.Valid then
    let leap := t.second == 60
    let time := if leap then { t with second := 59 } else t
    let nanos := (d.dayNumber - epochDay) * nanosPerDay + time.sinceMidnight - offset * 1000000000
    (Instant.ofNanos? nanos).map fun i => { i with leap := leap }
  else none

end TaskLeasing
