import TaskLeasing.Time.Span

namespace TaskLeasing

/-- The first millisecond of the calendar, counted from the epoch. -/
def Calendar.firstMilli : Int := -8334601228800000

/-- The last millisecond of the calendar, counted from the epoch. -/
def Calendar.lastMilli : Int := 8210266876799999

/-- A point in time within the calendar, in nanoseconds from the epoch. A leap second has the nanoseconds of the second
that it prolongs, and a mark that sets it apart. -/
structure Instant where
  nanos : Int
  leap : Bool
  notBefore : Calendar.firstMilli * 1000000 ≤ nanos
  notAfter : nanos ≤ Calendar.lastMilli * 1000000 + 999999
deriving DecidableEq

theorem Instant.ext_nanos {a b : Instant} (same : a.nanos = b.nanos) (marks : a.leap = b.leap) :
    a = b := by
  cases a; cases b; simp_all

def Instant.ofNanos? (nanos : Int) : Option Instant :=
  if h : Calendar.firstMilli * 1000000 ≤ nanos ∧ nanos ≤ Calendar.lastMilli * 1000000 + 999999 then
    some ⟨nanos, false, h.1, h.2⟩
  else none

def Instant.ofMicros? (micros : Int) : Option Instant := Instant.ofNanos? (micros * 1000)

def Instant.ofMillis? (millis : Int) : Option Instant :=
  if h : Calendar.firstMilli ≤ millis ∧ millis ≤ Calendar.lastMilli then
    some ⟨millis * 1000000, false, by omega, by omega⟩
  else none

def Instant.epoch : Instant := ⟨0, false, by decide, by decide⟩

/-- The last instant of the calendar, but for a leap second that might prolong it. -/
def Instant.last : Instant := ⟨Calendar.lastMilli * 1000000 + 999999, false, by decide, by decide⟩

/-- Nanoseconds from the epoch as they are counted without leap seconds: one has the count of the second after it. -/
def Instant.count (t : Instant) : Int := if t.leap then t.nanos + 1000000000 else t.nanos

/-- Whole milliseconds counted from the epoch, rounded towards the past. -/
def Instant.millis (t : Instant) : Int := t.count / 1000000

/-- Whole microseconds counted from the epoch, rounded towards the past. -/
def Instant.micros (t : Instant) : Int := t.count / 1000

/-- The start of the millisecond that an instant is counted to. A leap second that the calendar ends with is left as
it is. -/
def Instant.truncate (t : Instant) : Instant := (Instant.ofMillis? t.millis).getD t

/-- What a clock shows that counts without leap seconds. -/
def Instant.shown (t : Instant) : Instant :=
  if t.leap then (Instant.ofNanos? t.count).getD .last else t

def Instant.second (t : Instant) : Int := t.nanos / 1000000000

/-- Instants come in the order of their seconds, and those of one second in the order of their counts: a leap second
comes after the second that it prolongs and before the next. -/
instance : LE Instant := ⟨fun a b => a.second < b.second ∨ a.second = b.second ∧ a.count ≤ b.count⟩

instance : LT Instant := ⟨fun a b => a.second < b.second ∨ a.second = b.second ∧ a.count < b.count⟩

instance (a b : Instant) : Decidable (a ≤ b) :=
  inferInstanceAs (Decidable (a.second < b.second ∨ a.second = b.second ∧ a.count ≤ b.count))

instance (a b : Instant) : Decidable (a < b) :=
  inferInstanceAs (Decidable (a.second < b.second ∨ a.second = b.second ∧ a.count < b.count))

/-- The instant a span later, unless the calendar ends before. Whoever begins in a leap second is in it still as long as
the second is the same. -/
def Instant.plus? (t : Instant) (d : Span) : Option Instant :=
  (Instant.ofNanos? (t.nanos + d.nanos)).map fun later =>
    { later with leap := t.leap && later.second == t.second }

/-- The span from one instant to a later one, zero if the other is not later. That a leap second is left out, or is
reached, is told by the times of day alone. -/
def Instant.until (t later : Instant) : Span :=
  let left := if t.leap ∧ t.second % 86400 < later.second % 86400 then 1000000000 else 0
  let reached := if later.leap ∧ later.second % 86400 < t.second % 86400 then 1000000000 else 0
  ⟨(later.count - t.count + left - reached).toNat, by
    have := later.notAfter
    have := t.notBefore
    have : left ≤ 1000000000 := by grind
    have : 0 ≤ reached := by grind
    have : later.count ≤ later.nanos + 1000000000 := by grind [Instant.count]
    have : t.nanos ≤ t.count := by grind [Instant.count]
    simp only [Calendar.firstMilli, Calendar.lastMilli] at *
    omega⟩

namespace Instant

variable {a b c t later : Instant} {nanos : Int} {d : Span}

theorem count_of_ordinary (ordinary : t.leap = false) : t.count = t.nanos := by
  simp [count, ordinary]

theorem count_of_leap (leap : t.leap = true) : t.count = t.nanos + 1000000000 := by
  simp [count, leap]

theorem count_bounds (t : Instant) : t.nanos ≤ t.count ∧ t.count ≤ t.nanos + 1000000000 := by
  unfold count
  split <;> omega

theorem le_iff : a ≤ b ↔ a.second < b.second ∨ a.second = b.second ∧ a.count ≤ b.count := Iff.rfl

theorem lt_iff : a < b ↔ a.second < b.second ∨ a.second = b.second ∧ a.count < b.count := Iff.rfl

theorem le_refl (t : Instant) : t ≤ t := .inr ⟨rfl, Int.le_refl _⟩

theorem le_trans (first : a ≤ b) (second : b ≤ c) : a ≤ c := by
  rw [le_iff] at first second ⊢
  omega

theorem le_of_lt (before : a < b) : a ≤ b := by
  rw [lt_iff] at before
  rw [le_iff]
  omega

theorem lt_of_le_of_lt (first : a ≤ b) (second : b < c) : a < c := by
  rw [le_iff] at first
  rw [lt_iff] at second ⊢
  omega

theorem not_le : ¬ a ≤ b ↔ b < a := by
  rw [le_iff, lt_iff]
  omega

theorem not_lt : ¬ a < b ↔ b ≤ a := by
  rw [le_iff, lt_iff]
  omega

/-- Outside leap seconds the nanoseconds tell the order. -/
theorem le_iff_nanos (ordinary : a.leap = false) (ordinary' : b.leap = false) : a ≤ b ↔ a.nanos ≤ b.nanos := by
  rw [le_iff, count_of_ordinary ordinary, count_of_ordinary ordinary', second, second]
  omega

theorem lt_iff_nanos (ordinary : a.leap = false) (ordinary' : b.leap = false) : a < b ↔ a.nanos < b.nanos := by
  rw [lt_iff, count_of_ordinary ordinary, count_of_ordinary ordinary', second, second]
  omega

theorem le_last (ordinary : t.leap = false) : t ≤ .last :=
  (le_iff_nanos ordinary rfl).mpr t.notAfter

/-- Nanoseconds are those of the one instant that has them, leap seconds apart. -/
theorem ofNanos?_eq_some_iff : ofNanos? nanos = some t ↔ t.nanos = nanos ∧ t.leap = false := by
  unfold ofNanos?
  constructor
  · intro read
    split at read
    · cases read
      exact ⟨rfl, rfl⟩
    · cases read
  · rintro ⟨rfl, leap⟩
    rw [dif_pos ⟨t.notBefore, t.notAfter⟩]
    exact congrArg some (ext_nanos rfl leap.symm)

theorem plus?_eq_some_iff : t.plus? d = some later ↔
    later.nanos = t.nanos + d.nanos ∧ later.leap = (t.leap && later.second == t.second) := by
  rw [plus?, Option.map_eq_some_iff]
  constructor
  · rintro ⟨ends, reached, rfl⟩
    exact ⟨(ofNanos?_eq_some_iff.mp reached).1, rfl⟩
  · rintro ⟨nanos, leap⟩
    exact ⟨⟨later.nanos, false, later.notBefore, later.notAfter⟩, ofNanos?_eq_some_iff.mpr ⟨nanos, rfl⟩,
      ext_nanos rfl leap.symm⟩

theorem shown_ordinary (t : Instant) : t.shown.leap = false := by
  unfold shown
  cases leap : t.leap with
  | false => exact leap
  | true =>
    cases reached : ofNanos? t.count with
    | none => rfl
    | some ends => exact (ofNanos?_eq_some_iff.mp reached).2

end Instant

/-- The longest span that can be laid onto the calendar: 2⁶³ - 1 milliseconds. -/
def Span.longest : Nat := 9223372036854775807 * 1000000

end TaskLeasing
