import TaskLeasing.Engine.Error
import TaskLeasing.Proofs.Instant

namespace TaskLeasing

variable {now later bound expiry after ends : Instant} {span longer : Span}

/-- An accepted deadline is the start of the millisecond that the span leads into. -/
theorem deadline_ok (accepted : deadline now span = .ok expiry) :
    ∃ ends, now.plus? span = some ends ∧ expiry = ends.truncate := by
  unfold deadline at accepted
  split at accepted
  · cases accepted
  · split at accepted
    · next ends reached => exact ⟨ends, reached, (Except.ok.inj accepted).symm⟩
    · cases accepted

/-- It is accepted wherever the calendar goes on for as long. -/
theorem deadline_of_plus? (reached : now.plus? span = some ends) : deadline now span = .ok ends.truncate := by
  unfold deadline
  rw [if_neg (Nat.not_lt.mpr (Instant.plus?_short reached)), reached]

theorem deadline_whole (accepted : deadline now span = .ok expiry) : expiry.Whole := by
  obtain ⟨ends, _, rfl⟩ := deadline_ok accepted
  exact ends.truncate_whole

/-- What has begun with a millisecond that is over ends no later than any deadline set from now on. -/
theorem le_deadline (whole : bound.Whole) (past : bound ≤ now) (accepted : deadline now span = .ok expiry) :
    bound ≤ expiry := by
  obtain ⟨ends, reached, rfl⟩ := deadline_ok accepted
  exact whole.le_truncate (Instant.le_trans past (Instant.le_plus? reached))

/-- No wait at all ends within the calendar. -/
theorem deadline_zero (now : Instant) : ∃ expiry, deadline now .zero = .ok expiry :=
  ⟨now.truncate, deadline_of_plus? now.plus?_zero⟩

/-- A deadline is the start of the millisecond that the end of its span is counted to. -/
theorem deadline_counted (reached : now.plus? span = some ends) (within : ends ≤ .last)
    (accepted : deadline now span = .ok expiry) :
    expiry.leap = false ∧ (∃ millis : Int, expiry.nanos = millis * 1000000) ∧
      ends.count - 1000000 < expiry.nanos ∧ expiry.nanos ≤ ends.count := by
  obtain ⟨ends', reached', rfl⟩ := deadline_ok accepted
  cases reached.symm.trans reached'
  obtain ⟨early, late⟩ := Instant.truncate_bounds within
  exact ⟨Instant.truncate_ordinary within, ⟨ends.millis, Instant.truncate_nanos within⟩, by omega, early⟩

/-- Outside leap seconds the end of a span is counted as the sum. -/
theorem deadline_bounds (ordinary : now.leap = false) (accepted : deadline now span = .ok expiry) :
    expiry.leap = false ∧ (∃ millis : Int, expiry.nanos = millis * 1000000) ∧
      now.nanos + span.nanos - 1000000 < expiry.nanos ∧ expiry.nanos ≤ now.nanos + span.nanos := by
  obtain ⟨ends, reached, _⟩ := deadline_ok accepted
  have ordinary' := Instant.plus?_ordinary ordinary reached
  rw [← (Instant.plus?_eq_some_iff.mp reached).1, ← Instant.count_of_ordinary ordinary']
  exact deadline_counted reached (Instant.le_last ordinary') accepted

theorem deadline_ordinary (ordinary : now.leap = false) (accepted : deadline now span = .ok expiry) :
    expiry.leap = false :=
  (deadline_bounds ordinary accepted).1

/-- Counted from outside a leap second, a deadline does not come after the span is over. -/
theorem deadline_le (ordinary : now.leap = false) (accepted : deadline now span = .ok expiry) :
    ∃ ends, now.plus? span = some ends ∧ expiry ≤ ends := by
  obtain ⟨ends, reached, rfl⟩ := deadline_ok accepted
  exact ⟨ends, reached, Instant.truncate_le (Instant.plus?_ordinary ordinary reached)⟩

end TaskLeasing
