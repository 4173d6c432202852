namespace TaskLeasing

/-- A length of time, never negative, counted in nanoseconds and shorter than 2⁶⁴ seconds. -/
structure Span where
  nanos : Nat
  bounded : nanos < 18446744073709551616 * 1000000000
deriving DecidableEq

theorem Span.ext_nanos {a b : Span} (same : a.nanos = b.nanos) : a = b := by
  cases a; cases b; simp_all

def Span.zero : Span := ⟨0, by decide⟩

/-- Whole seconds and nanoseconds; nanoseconds from 10⁹ on carry into the seconds, and a sum that
needs 2⁶⁴ seconds or more is no span. -/
def Span.ofParts (seconds : UInt64) (nanos : UInt32) : Option Span :=
  let total := seconds.toNat * 1000000000 + nanos.toNat
  if fits : total < 18446744073709551616 * 1000000000 then some ⟨total, fits⟩ else none

def Span.ofMillis (millis : UInt64) : Span :=
  ⟨millis.toNat * 1000000, by have := millis.toNat_lt; omega⟩

def Span.ofMicros (micros : UInt64) : Span :=
  ⟨micros.toNat * 1000, by have := micros.toNat_lt; omega⟩

def Span.ofSeconds (seconds : UInt64) : Span :=
  ⟨seconds.toNat * 1000000000, by have := seconds.toNat_lt; omega⟩

/-- The whole seconds of a span. -/
def Span.seconds (d : Span) : Nat := d.nanos / 1000000000

/-- What is left of a span beside its whole seconds. -/
def Span.subsecond (d : Span) : Nat := d.nanos % 1000000000

/-- Whole milliseconds, rounded down. -/
def Span.millis (d : Span) : Nat := d.nanos / 1000000

/-- Whole milliseconds as a word, the longest spans saturating. -/
def Span.millisWord (d : Span) : UInt64 := UInt64.ofNat (min d.millis 18446744073709551615)

/-- Milliseconds rounded up: how long a timer of millisecond grain waits for the span to pass. -/
def Span.ticks (d : Span) : Nat := (d.nanos + 999999) / 1000000

theorem Span.seconds_lt (d : Span) : d.seconds < 18446744073709551616 := by
  have := d.bounded
  simp only [Span.seconds]
  omega

theorem Span.subsecond_lt (d : Span) : d.subsecond < 1000000000 := by
  simp only [Span.subsecond]
  omega

end TaskLeasing
