import Mathlib.Algebra.Order.Ring.Nat
import TaskLeasing.Time.Calendar

namespace TaskLeasing

theorem daysBeforeYear_succ (year : Int) :
    daysBeforeYear (year + 1) = daysBeforeYear year + (monthLengths (isLeapYear year)).sum := by
  have length : ((monthLengths (isLeapYear year)).sum : Int) = if isLeapYear year then 366 else 365 := by
    cases isLeapYear year <;> rfl
  rw [length]
  simp only [daysBeforeYear, isLeapYear, Bool.and_eq_true, Bool.or_eq_true, beq_iff_eq, bne_iff_ne]
  split <;> omega

/-- Every day falls into the year that it is given. -/
theorem yearOfDay_bounds (number : Int) :
    daysBeforeYear (yearOfDay number) ≤ number ∧ number < daysBeforeYear (yearOfDay number + 1) := by
  have below : daysBeforeYear (number * 400 / 146097 - 1) ≤ number := by
    unfold daysBeforeYear
    omega
  have above : number < daysBeforeYear (number * 400 / 146097 + 1 + 1) := by
    unfold daysBeforeYear
    omega
  unfold yearOfDay
  simp only
  split
  · next before => exact ⟨below, by rwa [Int.sub_add_cancel]⟩
  · next notBefore =>
    split
    · next inside => exact ⟨Int.not_lt.mp notBefore, inside⟩
    · next after => exact ⟨Int.not_lt.mp after, above⟩

/-- A day within some months is a day of one of them, behind all the days of those before it. -/
theorem monthOfDay_spec {lengths : List Nat} {day : Nat} (inside : day < lengths.sum) (first : Nat) :
    ∃ place length rest, lengths[place]? = some length ∧ rest < length ∧ (lengths.take place).sum + rest = day ∧
      monthOfDay first lengths day = (first + place, rest + 1) := by
  induction lengths generalizing first day with
  | nil => exact absurd inside (Nat.not_lt_zero _)
  | cons length further ih =>
    unfold monthOfDay
    split
    · next before => exact ⟨0, length, day, rfl, before, by simp, rfl⟩
    · next notBefore =>
      rw [List.sum_cons] at inside
      obtain ⟨place, own, rest, found, short, total, month⟩ := ih (show day - length < further.sum by omega) (first + 1)
      refine ⟨place + 1, own, rest, found, short, ?_, ?_⟩
      · rw [List.take_succ_cons, List.sum_cons]
        omega
      · rw [month, Nat.add_assoc, Nat.add_comm 1]

/-- The date of a day is one of the calendar, and it is the date of no other day. -/
theorem Date.ofDayNumber_spec (number : Int) :
    (Date.ofDayNumber number).Valid ∧ (Date.ofDayNumber number).dayNumber = number := by
  obtain ⟨low, high⟩ := yearOfDay_bounds number
  rw [daysBeforeYear_succ] at high
  have inside : (number - daysBeforeYear (yearOfDay number)).toNat < (monthLengths (isLeapYear (yearOfDay number))).sum := by
    omega
  obtain ⟨place, length, rest, found, short, total, month⟩ := monthOfDay_spec inside 1
  have date : Date.ofDayNumber number = ⟨yearOfDay number, 1 + place, rest + 1⟩ := by
    rw [Date.ofDayNumber, month]
  have before : 1 + place - 1 = place := by omega
  rw [date]
  refine ⟨⟨Nat.le_add_right .., Nat.le_add_left .., length, by rw [before]; exact found, short⟩, ?_⟩
  have days : ((monthLengths (isLeapYear (yearOfDay number))).take place).foldl Nat.add 0 + rest =
      (number - daysBeforeYear (yearOfDay number)).toNat := by
    rw [← total, List.sum_eq_foldl]
    rfl
  simp only [Date.dayNumber, before]
  omega

/-- Times of day before a leap second are told apart by what has passed since midnight. -/
theorem TimeOfDay.ofSinceMidnight_spec {nanos : Nat} (within : nanos < 86400 * 1000000000) :
    (TimeOfDay.ofSinceMidnight nanos).Valid ∧ (TimeOfDay.ofSinceMidnight nanos).second < 60 ∧
      (TimeOfDay.ofSinceMidnight nanos).sinceMidnight = nanos := by
  simp only [TimeOfDay.ofSinceMidnight, TimeOfDay.Valid, TimeOfDay.sinceMidnight]
  omega

/-- An instant that can be written without a sign before its year: it lies within the years 0 to 9999, and not in a leap
second. -/
structure Instant.Dated (t : Instant) : Prop where
  ordinary : t.leap = false
  year_nonneg : 0 ≤ t.civil.1.year
  year_le : t.civil.1.year ≤ 9999

namespace Instant.Dated

variable {t : Instant}

theorem time_eq (dated : t.Dated) : t.civil.2 = TimeOfDay.ofSinceMidnight (t.nanos % nanosPerDay).toNat := by
  rw [Instant.civil, dated.ordinary]
  rfl

theorem time_spec (dated : t.Dated) :
    t.civil.2.Valid ∧ t.civil.2.second < 60 ∧ t.civil.2.sinceMidnight = t.nanos % nanosPerDay := by
  rw [dated.time_eq]
  have within : (t.nanos % nanosPerDay).toNat < 86400 * 1000000000 := by
    unfold nanosPerDay
    omega
  obtain ⟨valid, second, since⟩ := TimeOfDay.ofSinceMidnight_spec within
  refine ⟨valid, second, since.trans ?_⟩
  unfold nanosPerDay
  omega

/-- The date and time of day of an instant are those of no other. -/
theorem ofCivil?_civil (dated : t.Dated) : Instant.ofCivil? t.civil.1 t.civil.2 0 = some t := by
  obtain ⟨valid, number⟩ := Date.ofDayNumber_spec (t.nanos / nanosPerDay + epochDay)
  obtain ⟨time, second, since⟩ := dated.time_spec
  have calendar : t.civil.1.InCalendar := by
    have := dated.year_nonneg
    have := dated.year_le
    unfold Date.InCalendar
    omega
  have plain : (t.civil.2.second == 60) = false := beq_eq_false_iff_ne.mpr (Nat.ne_of_lt second)
  have nanos : (t.civil.1.dayNumber - epochDay) * nanosPerDay + t.civil.2.sinceMidnight - 0 * 1000000000 = t.nanos := by
    have day : t.civil.1.dayNumber = t.nanos / nanosPerDay + epochDay := number
    rw [day, since]
    unfold nanosPerDay
    omega
  rw [Instant.ofCivil?, if_pos ⟨valid, calendar, time⟩]
  simp only [plain, Bool.false_eq_true, if_false, nanos]
  rw [Instant.ofNanos?_eq_some_iff.mpr ⟨rfl, dated.ordinary⟩, Option.map_some]
  exact congrArg some (Instant.ext_nanos rfl dated.ordinary.symm)

end Instant.Dated

end TaskLeasing
