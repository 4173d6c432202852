import TaskLeasing.Proofs.Instant
import TaskLeasing.Watchdog

namespace TaskLeasing

theorem splitAtLast_eq_none_iff {separator : Char} {cs : List Char} :
    splitAtLast separator cs = none ↔ separator ∉ cs := by
  induction cs with
  | nil => exact iff_of_true rfl List.not_mem_nil
  | cons c rest ih =>
    rw [List.mem_cons, not_or, ← ih]
    cases later : splitAtLast separator rest with
    | some parts => simp [splitAtLast, later]
    | none => simp [splitAtLast, later, eq_comm]

/-- A text is split where the separator stands, if none comes later. -/
theorem splitAtLast_append {separator : Char} {back : List Char} (free : separator ∉ back) (front : List Char) :
    splitAtLast separator (front ++ separator :: back) = some (front, back) := by
  induction front with
  | nil => simp only [List.nil_append, splitAtLast, splitAtLast_eq_none_iff.mpr free, if_true]
  | cons c rest ih => simp only [List.cons_append, splitAtLast, ih]

/-- There is no other way to split a text. -/
theorem splitAtLast_eq_some_iff {separator : Char} {cs front back : List Char} :
    splitAtLast separator cs = some (front, back) ↔ cs = front ++ separator :: back ∧ separator ∉ back := by
  refine ⟨fun split => ?_, fun ⟨text, free⟩ => text ▸ splitAtLast_append free front⟩
  induction cs generalizing front with
  | nil => cases split
  | cons c rest ih =>
    unfold splitAtLast at split
    cases later : splitAtLast separator rest with
    | some parts =>
      rw [later] at split
      cases split
      obtain ⟨text, free⟩ := ih later
      exact ⟨by rw [text, List.cons_append], free⟩
    | none =>
      simp only [later, Option.ite_none_right_eq_some, Option.some.injEq, Prod.mk.injEq] at split
      obtain ⟨rfl, rfl, rfl⟩ := split
      exact ⟨rfl, splitAtLast_eq_none_iff.mp later⟩

/-- The separator is no part of an integer. -/
theorem Numeral.keySeparator_notMem_signed (n : Int) : keySeparator ∉ Numeral.signed n := by
  have free (m : Nat) : keySeparator ∉ Numeral.digits m := fun inside => by
    have digit := Nat.isDigit_of_mem_toDigits (by decide) (by decide) inside
    exact absurd digit (by decide)
  unfold Numeral.signed
  split
  · rw [List.mem_cons, not_or]
    exact ⟨by decide, free _⟩
  · exact free _

theorem Instant.fitsInt64_millis (t : Instant) : fitsInt64 t.millis = true := by
  have early := t.notBefore
  have late := t.notAfter
  have bounds := t.count_bounds
  simp only [Calendar.firstMilli, Calendar.lastMilli] at early late
  have within : -9223372036854775808 ≤ t.millis ∧ t.millis < 9223372036854775808 := by
    unfold Instant.millis
    omega
  exact decide_eq_true within

/-- A payload reads back as the watchdog it was made for, its lock cut to the millisecond, if the calendar has one to
cut it to. -/
theorem Watchdog.ofPayload?_payload (watchdog : Watchdog) : Watchdog.ofPayload? watchdog.payload =
    if watchdog.task = "" then none
    else (Instant.ofMillis? watchdog.lockExpiry.millis).map fun expiry => ⟨watchdog.task, expiry⟩ := by
  have text : watchdog.payload.toList =
      watchdog.task.toList ++ keySeparator :: Numeral.signed watchdog.lockExpiry.millis := by
    simp [Watchdog.payload]
  have number : Numeral.int64? (Numeral.signed watchdog.lockExpiry.millis) = some watchdog.lockExpiry.millis := by
    simp [Numeral.int64?, Numeral.integer?_signed, Instant.fitsInt64_millis]
  have split := splitAtLast_append (Numeral.keySeparator_notMem_signed watchdog.lockExpiry.millis)
    watchdog.task.toList
  unfold Watchdog.ofPayload?
  rw [text, split]
  by_cases unnamed : watchdog.task = ""
  · simp [unnamed]
  · have named : watchdog.task.toList ≠ [] := fun empty => unnamed (String.toList_eq_nil_iff.mp empty)
    cases dated : Instant.ofMillis? watchdog.lockExpiry.millis <;> simp [named, unnamed, number, dated]

theorem Watchdog.ofPayload?_payload_within {task : String} {expiry : Instant} (named : task ≠ "")
    (within : expiry ≤ .last) :
    Watchdog.ofPayload? (Watchdog.mk task expiry).payload = some ⟨task, expiry.truncate⟩ := by
  rw [ofPayload?_payload, if_neg named, Instant.ofMillis?_millis within, Option.map_some]

/-- Nothing else is read from a payload. -/
theorem Watchdog.eq_of_ofPayload?_payload {watchdog read : Watchdog}
    (parsed : Watchdog.ofPayload? watchdog.payload = some read) :
    read = ⟨watchdog.task, watchdog.lockExpiry.truncate⟩ := by
  rw [ofPayload?_payload] at parsed
  obtain ⟨_, parsed⟩ := Option.ite_none_left_eq_some.mp parsed
  obtain ⟨expiry, dated, rfl⟩ := Option.map_eq_some_iff.mp parsed
  rw [Instant.truncate, dated, Option.getD_some]

end TaskLeasing
