import TaskLeasing.Engine.Error
import TaskLeasing.Proofs.Retry

namespace TaskLeasing

/-- What happens in the attempts at a task: its processor is called with the retries that are left, or has failed
in a way worth so many attempts, and it is decided what follows. -/
inductive AttemptEvent
  | called (time : Instant) (retries : Option UInt32)
  | failed (time : Instant) (budget : UInt32) (decision : RetryDecision)

/-- The retries that processors were called with, in order. -/
def callsOf (events : List AttemptEvent) : List (Option UInt32) := events.filterMap fun
  | .called _ retries => some retries
  | .failed .. => none

/-- The numbers of attempts that failures were worth, in order. -/
def budgetsOf (events : List AttemptEvent) : List UInt32 := events.filterMap fun
  | .called .. => none
  | .failed _ budget _ => some budget

/-- The wait that a failure asked for is over. -/
def AttemptEvent.OverAt (time : Instant) : AttemptEvent → Prop
  | .called .. => True
  | .failed at' _ decision => ∃ expiry, deadline at' decision.delay = .ok expiry ∧ expiry ≤ time

/-- Attempts one after the other, with the retries that the last of them left, and whether an attempt is underway.
None is called without retries or before the waits are over, and none before the one before it has ended: it may
fail, or stop for good. -/
inductive Course : List AttemptEvent → Option UInt32 → Bool → Prop
  | start : Course [] none false
  | call {events left time} (course : Course events left false) (remains : left ≠ some 0)
      (waited : ∀ event ∈ events, event.OverAt time) : Course (events ++ [.called time left]) left true
  | fail {events left time budget backoff} (course : Course events left true) :
      Course (events ++ [.failed time budget (nextRetry budget left backoff)])
        (some (nextRetry budget left backoff).retriesLeft) false
  | stop {events left} (course : Course events left true) : Course events (some 0) false

theorem callsOf_called (events : List AttemptEvent) (time : Instant) (retries : Option UInt32) :
    callsOf (events ++ [.called time retries]) = callsOf events ++ [retries] := by
  simp [callsOf]

theorem callsOf_failed (events : List AttemptEvent) (time : Instant) (budget : UInt32) (decision : RetryDecision) :
    callsOf (events ++ [.failed time budget decision]) = callsOf events := by
  simp [callsOf]

theorem budgetsOf_called (events : List AttemptEvent) (time : Instant) (retries : Option UInt32) :
    budgetsOf (events ++ [.called time retries]) = budgetsOf events := by
  simp [budgetsOf]

theorem budgetsOf_failed (events : List AttemptEvent) (time : Instant) (budget : UInt32) (decision : RetryDecision) :
    budgetsOf (events ++ [.failed time budget decision]) = budgetsOf events ++ [budget] := by
  simp [budgetsOf]

namespace Course

variable {events : List AttemptEvent} {left : Option UInt32} {underway : Bool}

/-- After the first call the retries go down, and the last of them are what the attempt underway has, or more
than the last failure left. -/
theorem shape (course : Course events left underway) :
    (callsOf events = [] ∧ left = none ∧ underway = false) ∨
      ∃ later : List UInt32, callsOf events = none :: later.map some ∧ later.Pairwise (· > ·) ∧
        (∀ retries ∈ later, 1 ≤ retries) ∧ match underway with
          | true => left = later.getLast?
          | false => ∃ rest, left = some rest ∧ ∀ retries ∈ later, rest < retries := by
  induction course with
  | start => exact .inl ⟨rfl, rfl, rfl⟩
  | @call events left time course remains waited ih =>
    rw [callsOf_called]
    rcases ih with ⟨none', rfl, _⟩ | ⟨later, calls, decreasing, positive, rest, rfl, less⟩
    · exact .inr ⟨[], by simp [none'], .nil, by simp, rfl⟩
    · refine .inr ⟨later ++ [rest], by simp [calls], ?_, ?_, by simp⟩
      · rw [List.pairwise_append]
        exact ⟨decreasing, List.pairwise_singleton _ _, fun retries member last atLast =>
          List.mem_singleton.mp atLast ▸ less retries member⟩
      · intro retries member
        rcases List.mem_append.mp member with earlier | last
        · exact positive retries earlier
        · rw [List.mem_singleton.mp last, UInt32.le_iff_toNat_le]
          exact Nat.pos_of_ne_zero fun zero => remains (congrArg some (UInt32.toNat_inj.mp zero))
  | @fail events left time budget backoff course ih =>
    rw [callsOf_failed]
    rcases ih with ⟨_, _, none'⟩ | ⟨later, calls, decreasing, positive, current⟩
    · cases none'
    · refine .inr ⟨later, calls, decreasing, positive, _, rfl, fun retries member => ?_⟩
      -- all retries of before are as many as the last ones at least
      obtain ⟨front, last, rfl⟩ := (List.eq_nil_or_concat later).resolve_left (List.ne_nil_of_mem member)
      rw [List.concat_eq_append] at member positive decreasing current
      obtain rfl : left = some last := by simpa using current
      have less := nextRetry_later (positive last (by simp)) budget backoff
      rcases List.mem_append.mp member with earlier | atLast
      · exact UInt32.lt_trans less ((List.pairwise_append.mp decreasing).2.2 retries earlier last (by simp))
      · rw [List.mem_singleton.mp atLast]
        exact less
  | stop course ih =>
    rcases ih with ⟨_, _, none'⟩ | ⟨later, calls, decreasing, positive, _⟩
    · cases none'
    · exact .inr ⟨later, calls, decreasing, positive, 0, rfl, positive⟩

/-- There are no more calls than the first failure is worth, however many those after it are. -/
theorem count (course : Course events left underway) :
    match (budgetsOf events).head? with
    | none => (left = none ∧ (callsOf events).length = underway.toNat) ∨
        (left = some 0 ∧ underway = false ∧ (callsOf events).length = 1)
    | some budget => ∃ rest, left = some rest ∧ (underway = true → 1 ≤ rest) ∧
        (callsOf events).length + rest.toNat ≤ max 1 budget.toNat + underway.toNat := by
  induction course with
  | start => exact .inl ⟨rfl, rfl⟩
  | @call events left time course remains waited ih =>
    rw [callsOf_called, budgetsOf_called, List.length_append, List.length_singleton]
    cases first : (budgetsOf events).head? with
    | none =>
      rw [first] at ih
      obtain ⟨untried, none'⟩ := ih.resolve_right fun stopped => remains stopped.1
      exact .inl ⟨untried, by rw [none']; rfl⟩
    | some budget =>
      rw [first] at ih
      obtain ⟨rest, rfl, _, few⟩ := ih
      refine ⟨rest, rfl, fun _ => ?_, ?_⟩
      · rw [UInt32.le_iff_toNat_le]
        exact Nat.pos_of_ne_zero fun zero => remains (congrArg some (UInt32.toNat_inj.mp zero))
      · simp only [Bool.toNat_false, Bool.toNat_true] at few ⊢
        omega
  | @fail events left time budget backoff course ih =>
    rw [callsOf_failed, budgetsOf_failed, List.head?_append]
    cases first : (budgetsOf events).head? with
    | none =>
      rw [first] at ih
      obtain ⟨rfl, once⟩ := ih.resolve_right fun stopped => nomatch stopped.2.1
      refine ⟨_, rfl, by simp, ?_⟩
      rw [nextRetry_first, once]
      simp only [Bool.toNat_true, Bool.toNat_false]
      omega
    | some earlier =>
      rw [first] at ih
      obtain ⟨rest, rfl, positive, few⟩ := ih
      refine ⟨_, rfl, by simp, ?_⟩
      have less := UInt32.lt_iff_toNat_lt.mp (nextRetry_later (positive rfl) budget backoff)
      simp only [Bool.toNat_true, Bool.toNat_false] at few ⊢
      omega
  | @stop events left course ih =>
    cases first : (budgetsOf events).head? with
    | none =>
      rw [first] at ih
      exact .inr ⟨rfl, rfl, (ih.resolve_right fun stopped => nomatch stopped.2.1).2⟩
    | some budget =>
      rw [first] at ih
      obtain ⟨rest, rfl, positive, few⟩ := ih
      have positive : 1 ≤ rest.toNat := UInt32.le_iff_toNat_le.mp (positive rfl)
      refine ⟨0, rfl, nofun, ?_⟩
      simp only [Bool.toNat_true, Bool.toNat_false, UInt32.toNat_zero] at few ⊢
      omega

/-- The calls are no more than the first failure is worth, or just one. -/
theorem count_le (course : Course events left underway) :
    (callsOf events).length ≤ max 1 ((budgetsOf events).head?.elim 1 UInt32.toNat) := by
  have count := course.count
  cases first : (budgetsOf events).head? with
  | none =>
    rw [first] at count
    rcases count with ⟨_, once⟩ | ⟨_, _, once⟩
    · rw [once]
      exact Nat.le_trans (Bool.toNat_le underway) (Nat.le_max_left ..)
    · rw [once]
      exact Nat.le_max_left ..
  | some budget =>
    rw [first] at count
    obtain ⟨rest, _, positive, few⟩ := count
    rw [Option.elim_some]
    cases underway with
    | false =>
      rw [Bool.toNat_false] at few
      omega
    | true =>
      have positive : 1 ≤ rest.toNat := UInt32.le_iff_toNat_le.mp (positive rfl)
      rw [Bool.toNat_true] at few
      omega

/-- Before a call all waits are over. -/
theorem waits_over (course : Course events left underway) {earlier rest : List AttemptEvent} {time : Instant}
    {retries : Option UInt32} (parts : events = earlier ++ .called time retries :: rest) :
    ∀ event ∈ earlier, event.OverAt time := by
  have split {events : List AttemptEvent} {last : AttemptEvent} {rest : List AttemptEvent}
      (parts : events ++ [last] = earlier ++ .called time retries :: rest) :
      (events = earlier ∧ last = .called time retries) ∨
        ∃ front, events = earlier ++ .called time retries :: front := by
    rcases List.eq_nil_or_concat rest with rfl | ⟨front, final, rfl⟩
    · obtain ⟨same, atLast⟩ := List.append_inj' parts rfl
      exact .inl ⟨same, (List.cons.inj atLast).1⟩
    · rw [List.concat_eq_append, ← List.cons_append, ← List.append_assoc] at parts
      exact .inr ⟨front, (List.append_inj' parts rfl).1⟩
  induction course generalizing rest with
  | start => simp at parts
  | call course remains waited ih =>
    rcases split parts with ⟨rfl, same⟩ | ⟨front, before⟩
    · cases same
      exact waited
    · exact ih before
  | fail course ih =>
    rcases split parts with ⟨_, same⟩ | ⟨front, before⟩
    · cases same
    · exact ih before
  | stop course ih => exact ih parts

end Course

end TaskLeasing
