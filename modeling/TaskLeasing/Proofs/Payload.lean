import TaskLeasing.Proofs.Numeral
import TaskLeasing.Proofs.Watchdog
import TaskLeasing.System.Timeout

namespace TaskLeasing

namespace Watchdog

/-- A payload in its parts: a task, the last separator, and a literal of 64 bits that counts the
milliseconds of an instant. -/
structure IsPayload (payload task : String) (literal : IntegerLiteral) : Prop where
  text : payload.toList = task.toList ++ keySeparator :: literal.text
  last : keySeparator ∉ literal.text
  named : task ≠ ""
  fits : -9223372036854775808 ≤ literal.value ∧ literal.value ≤ 9223372036854775807
  within : Calendar.firstMilli ≤ literal.value ∧ literal.value ≤ Calendar.lastMilli

/-- Watchdogs are read from the payloads that fall into parts, and from no other text. -/
theorem ofPayload?_eq_some_iff {payload : String} {watchdog : Watchdog} :
    ofPayload? payload = some watchdog ↔ ∃ literal, IsPayload payload watchdog.task literal ∧
      watchdog.lockExpiry.nanos = literal.value * 1000000 ∧ watchdog.lockExpiry.leap = false := by
  constructor
  · intro read
    unfold ofPayload? at read
    obtain ⟨⟨task, number⟩, split, read⟩ := Option.bind_eq_some_iff.mp read
    obtain ⟨named, read⟩ := Option.ite_none_left_eq_some.mp read
    obtain ⟨millis, counted, read⟩ := Option.bind_eq_some_iff.mp read
    obtain ⟨expiry, dated, read⟩ := Option.bind_eq_some_iff.mp read
    cases read
    obtain ⟨text, last⟩ := splitAtLast_eq_some_iff.mp split
    obtain ⟨whole, fits⟩ := Numeral.int64?_eq_some_iff.mp counted
    obtain ⟨literal, rfl, rfl⟩ := Numeral.integer?_eq_some_iff.mp whole
    obtain ⟨within, nanos, leap⟩ := Instant.ofMillis?_eq_some_iff.mp dated
    refine ⟨literal, ⟨by rw [text, String.toList_ofList], last, fun empty => named ?_, fits, within⟩, nanos, leap⟩
    rw [List.isEmpty_iff, ← String.ofList_eq_empty_iff]
    exact empty
  · rintro ⟨literal, parts, nanos, leap⟩
    have split := splitAtLast_eq_some_iff.mpr ⟨parts.text, parts.last⟩
    have counted := Numeral.int64?_eq_some_iff.mpr
      ⟨Numeral.integer?_eq_some_iff.mpr ⟨literal, rfl, rfl⟩, parts.fits⟩
    have dated := Instant.ofMillis?_eq_some_iff.mpr ⟨parts.within, nanos, leap⟩
    unfold ofPayload?
    simp [split, parts.named, counted, dated]

theorem IsPayload.read {payload task : String} {literal : IntegerLiteral} (parts : IsPayload payload task literal) :
    ∃ watchdog, ofPayload? payload = some watchdog ∧ watchdog.task = task ∧
      watchdog.lockExpiry.nanos = literal.value * 1000000 ∧ watchdog.lockExpiry.leap = false := by
  have within := parts.within
  let expiry : Instant := ⟨literal.value * 1000000, false, by omega, by omega⟩
  exact ⟨⟨task, expiry⟩, ofPayload?_eq_some_iff.mpr ⟨literal, parts, rfl, rfl⟩, rfl, rfl, rfl⟩

end Watchdog

end TaskLeasing
