import TaskLeasing.Time.Instant

/-!
The theory of instants: what is cut to the millisecond, and what sums and the clock make of an instant. The order is
that of time, in which a leap second comes between the second that it prolongs and the next, though the latter has the
same counts.
-/

namespace TaskLeasing.Instant

variable {t bound late later after : Instant} {millis : Int} {d : Span}

/-- What does not come after the calendar's last instant is counted within the calendar. -/
theorem le_last_iff : t ≤ .last ↔ t.count ≤ Instant.last.nanos := by
  have lastSecond : Instant.last.second = 8210266876799 := rfl
  have lastCount : Instant.last.count = 8210266876799999999999 := rfl
  have lastNanos : Instant.last.nanos = 8210266876799999999999 := rfl
  have early := t.notAfter
  unfold Calendar.lastMilli at early
  rw [le_iff, lastSecond, lastCount, lastNanos, second, count]
  split <;> omega

/-- The milliseconds of the calendar are read as the instants they begin with. -/
theorem ofMillis?_eq_some_iff : ofMillis? millis = some t ↔
    (Calendar.firstMilli ≤ millis ∧ millis ≤ Calendar.lastMilli) ∧ t.nanos = millis * 1000000 ∧ t.leap = false := by
  unfold ofMillis?
  constructor
  · intro read
    split at read
    · next inside =>
      cases read
      exact ⟨inside, rfl, rfl⟩
    · cases read
  · rintro ⟨inside, nanos, leap⟩
    rw [dif_pos inside]
    exact congrArg some (ext_nanos nanos.symm leap.symm)

/-- The milliseconds that an instant is counted to are read as the instant cut to them. -/
theorem ofMillis?_millis (within : t ≤ .last) : ofMillis? t.millis = some t.truncate := by
  have early := t.notBefore
  have bounds := t.count_bounds
  have last : t.count ≤ Calendar.lastMilli * 1000000 + 999999 := le_last_iff.mp within
  have inside : Calendar.firstMilli ≤ t.millis ∧ t.millis ≤ Calendar.lastMilli := by
    unfold millis
    omega
  let cut : Instant := ⟨t.millis * 1000000, false, by omega, by omega⟩
  have read : ofMillis? t.millis = some cut := ofMillis?_eq_some_iff.mpr ⟨inside, rfl, rfl⟩
  rw [truncate, read, Option.getD_some]

theorem truncate_ordinary (within : t ≤ .last) : t.truncate.leap = false :=
  (ofMillis?_eq_some_iff.mp (ofMillis?_millis within)).2.2

theorem truncate_nanos (within : t ≤ .last) : t.truncate.nanos = t.millis * 1000000 :=
  (ofMillis?_eq_some_iff.mp (ofMillis?_millis within)).2.1

/-- A cut instant is counted less than a millisecond before the instant, and no later. -/
theorem truncate_bounds (within : t ≤ .last) :
    t.truncate.nanos ≤ t.count ∧ t.count < t.truncate.nanos + 1000000 := by
  rw [truncate_nanos within, millis]
  omega

theorem truncate_millis (within : t ≤ .last) : t.truncate.millis = t.millis := by
  rw [millis, count_of_ordinary (truncate_ordinary within), truncate_nanos within]
  omega

/-- A leap second that the calendar ends with is not counted within the calendar, and is not cut. -/
theorem truncate_beyond (beyond : .last < t) : t.truncate = t := by
  have past : ¬ t.count ≤ Instant.last.nanos := fun within => not_le.mpr beyond (le_last_iff.mpr within)
  have none' : ofMillis? t.millis = none := Option.eq_none_iff_forall_ne_some.mpr fun ends read => by
    obtain ⟨⟨_, inside⟩, _⟩ := ofMillis?_eq_some_iff.mp read
    have last : Instant.last.nanos = Calendar.lastMilli * 1000000 + 999999 := rfl
    unfold millis at inside
    omega
  rw [truncate, none', Option.getD_none]

/-- Outside leap seconds what is cut off lies behind. -/
theorem truncate_le (ordinary : t.leap = false) : t.truncate ≤ t := by
  have within := le_last ordinary
  rw [le_iff_nanos (truncate_ordinary within) ordinary, ← count_of_ordinary ordinary]
  exact (truncate_bounds within).1

/-- An instant that is not cut, as the end of every lock is. -/
def Whole (t : Instant) : Prop := t.truncate = t

theorem truncate_whole (t : Instant) : t.truncate.Whole := by
  by_cases within : t ≤ .last
  · have again := truncate_ordinary within
    refine ext_nanos ?_ ((truncate_ordinary (le_last again)).trans again.symm)
    rw [truncate_nanos (le_last again), truncate_millis within, truncate_nanos within]
  · have still := truncate_beyond (not_le.mp within)
    rw [Whole, still, still]

/-- Outside leap seconds, instants that are not cut are told apart by their milliseconds. -/
theorem Whole.eq_of_millis (whole : t.Whole) (whole' : bound.Whole) (ordinary : t.leap = false)
    (ordinary' : bound.leap = false) (same : t.millis = bound.millis) : t = bound := by
  rw [← whole, ← whole']
  have within := le_last ordinary
  have within' := le_last ordinary'
  refine ext_nanos ?_ ((truncate_ordinary within).trans (truncate_ordinary within').symm)
  rw [truncate_nanos within, truncate_nanos within', same]

/-- What is not cut and has begun by some instant has begun by the start of the instant's millisecond. -/
theorem Whole.le_truncate (whole : bound.Whole) (past : bound ≤ t) : bound ≤ t.truncate := by
  by_cases within : t ≤ .last
  · have within' := le_trans past within
    have ordinary : bound.leap = false := whole ▸ truncate_ordinary within'
    have aligned : bound.nanos = bound.millis * 1000000 := by
      rw [← truncate_nanos within', whole]
    rw [le_iff_nanos ordinary (truncate_ordinary within), truncate_nanos within, millis]
    rw [le_iff, count_of_ordinary ordinary, second, second] at past
    have bounds := t.count_bounds
    omega
  · rw [truncate_beyond (not_le.mp within)]
    exact past

theorem plus?_zero (t : Instant) : t.plus? .zero = some t := by
  refine plus?_eq_some_iff.mpr ⟨(Int.add_zero _).symm, ?_⟩
  rw [beq_self_eq_true, Bool.and_true]

/-- A sum is refused just when it is longer than the calendar. -/
theorem plus?_eq_none_iff : t.plus? d = none ↔ last.nanos < t.nanos + d.nanos := by
  have early := t.notBefore
  rw [Option.eq_none_iff_forall_ne_some, ← Int.not_le]
  constructor
  · intro beyond within
    have inside : Calendar.firstMilli * 1000000 ≤ t.nanos + d.nanos ∧
        t.nanos + d.nanos ≤ Calendar.lastMilli * 1000000 + 999999 := ⟨by omega, within⟩
    let ends : Instant := ⟨t.nanos + d.nanos, false, inside.1, inside.2⟩
    exact beyond { ends with leap := t.leap && ends.second == t.second } (plus?_eq_some_iff.mpr ⟨rfl, rfl⟩)
  · intro beyond later reached
    exact beyond ((plus?_eq_some_iff.mp reached).1 ▸ later.notAfter)

/-- What fits between two instants is no longer than the longest span. -/
theorem plus?_short (reached : t.plus? d = some later) : d.nanos ≤ Span.longest := by
  have early := t.notBefore
  have late := later.notAfter
  have nanos := (plus?_eq_some_iff.mp reached).1
  simp only [Calendar.firstMilli, Calendar.lastMilli, Span.longest] at *
  omega

theorem plus?_ordinary (ordinary : t.leap = false) (reached : t.plus? d = some later) : later.leap = false := by
  rw [(plus?_eq_some_iff.mp reached).2, ordinary, Bool.false_and]

/-- What is begun in a leap second ends within it or in a later second. -/
theorem plus?_leap (leap : t.leap = true) (reached : t.plus? d = some later) :
    later.second = t.second ∧ later.leap = true ∨ t.second < later.second ∧ later.leap = false := by
  obtain ⟨nanos, marked⟩ := plus?_eq_some_iff.mp reached
  rw [leap, Bool.true_and] at marked
  by_cases same : later.second = t.second
  · exact .inl ⟨same, marked.trans (beq_iff_eq.mpr same)⟩
  · refine .inr ⟨?_, marked.trans (beq_eq_false_iff_ne.mpr same)⟩
    unfold second at same ⊢
    omega

/-- A span leads to a later time. -/
theorem lt_plus? (reached : t.plus? d = some later) (positive : 0 < d.nanos) : t < later := by
  have nanos := (plus?_eq_some_iff.mp reached).1
  cases leap : t.leap with
  | false =>
    rw [lt_iff_nanos leap (plus?_ordinary leap reached)]
    omega
  | true =>
    rcases plus?_leap leap reached with ⟨same, within⟩ | ⟨beyond, _⟩
    · refine .inr ⟨same.symm, ?_⟩
      rw [count_of_leap leap, count_of_leap within]
      omega
    · exact .inl beyond

theorem le_plus? (reached : t.plus? d = some later) : t ≤ later := by
  rcases Nat.eq_zero_or_pos d.nanos with none' | positive
  · obtain rfl : d = .zero := Span.ext_nanos none'
    cases t.plus?_zero.symm.trans reached
    exact le_refl t
  · exact le_of_lt (lt_plus? reached positive)

/-- Outside leap seconds a span that is begun earlier is over earlier. -/
theorem plus?_mono (ordinary : t.leap = false) (ordinary' : late.leap = false) (past : t ≤ late)
    (reached : late.plus? d = some after) : ∃ before, t.plus? d = some before ∧ before ≤ after := by
  have nanos := (plus?_eq_some_iff.mp reached).1
  have upper := after.notAfter
  rw [le_iff_nanos ordinary ordinary'] at past
  cases begun : t.plus? d with
  | none =>
    have beyond := plus?_eq_none_iff.mp begun
    have last : Instant.last.nanos = Calendar.lastMilli * 1000000 + 999999 := rfl
    omega
  | some before =>
    refine ⟨before, rfl, ?_⟩
    rw [le_iff_nanos (plus?_ordinary ordinary begun) (plus?_ordinary ordinary' reached), nanos,
      (plus?_eq_some_iff.mp begun).1]
    omega

/-- What the clock has come to is not after what it shows next. -/
theorem le_shown (ordinary : bound.leap = false) (past : bound ≤ t) : bound ≤ t.shown := by
  unfold shown
  cases leap : t.leap with
  | false => exact past
  | true =>
    cases reached : ofNanos? t.count with
    | none => exact le_last ordinary
    | some ends =>
      have counted := (ofNanos?_eq_some_iff.mp reached).1
      rw [count_of_leap leap] at counted
      rw [le_iff] at past
      refine .inl ?_
      rw [if_pos rfl, Option.getD_some]
      unfold second at past ⊢
      omega

end TaskLeasing.Instant
