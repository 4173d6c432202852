import TaskLeasing.Proofs.System.Counting
import TaskLeasing.Proofs.System.Watching
import Mathlib.Algebra.Group.Nat.Defs

namespace TaskLeasing

/-- What a request is closed by: the response to its task, or the watchdog of its lock. -/
inductive Closing
  | response (task : String)
  | timeout (watchdog : Watchdog)

def Closing.closes : Closing → LeasedTask → Bool
  | .response task, lease => lease.id = task
  | .timeout watchdog, lease => lease.id = watchdog.task ∧ watchdog.guards lease.lockExpiry

def Closing.responses : Closing → Nat
  | .response _ => 1
  | .timeout _ => 0

def Closing.timeouts : Closing → Nat
  | .response _ => 0
  | .timeout _ => 1

/-- What a move comes to that closes requests: a response that its sender is given no error for, or a watchdog that
fires. -/
def System.closing? (s : System) : Move → Option Closing
  | .answer number .respond attempt =>
    match s.calls.find? (fun call => call.number = number), (s.endCall number .respond attempt).1 with
    | some call, .responded (.ok _) => some (.response call.task)
    | _, _ => none
  | move => (s.watched? move).bind fun payload =>
    if hasFired (s.fireWatchdog payload).1 then (Watchdog.ofPayload? payload).map .timeout else none

/-- The requests that wait for a response, how often there was a response or a timeout that no request waited for, and
how many requests were closed beside another one. -/
structure InFlight where
  waiting : List LeasedTask
  late : Nat
  beside : Nat

/-- The requests in flight after a move. -/
def InFlight.after (f : InFlight) (s : System) (move : Move) : InFlight :=
  match s.closing? move with
  | some closing =>
    { waiting := f.waiting.filter (fun lease => ¬ closing.closes lease) ++ s.sends move
      late := f.late + (1 - f.waiting.countP closing.closes)
      beside := f.beside + (f.waiting.countP closing.closes - 1) }
  | none => { f with waiting := f.waiting ++ s.sends move }

/-- The requests in flight after moves one after the other. -/
def System.inFlight (s : System) (f : InFlight) : List Move → InFlight
  | [] => f
  | move :: rest => (s.step move).2.inFlight (f.after s move) rest

namespace System

variable {s : System}

/-- What a move counts of requests: those it finds sent, and what closes them. -/
def Counts (s : System) (move : Move) : Prop :=
  (s.step move).2.counters.traffic = s.counters.traffic.plus (s.sends move).length
    ((s.closing? move).elim 0 Closing.responses) ((s.closing? move).elim 0 Closing.timeouts)

theorem counts_silent {move : Move} (same : (s.step move).2.counters.traffic = s.counters.traffic)
    (unsent : s.sends move = []) (unclosed : s.closing? move = none) : s.Counts move := by
  unfold Counts
  rw [unsent, unclosed, same]
  exact (Traffic.plus_zero _).symm

theorem counts_watched {move : Move} {payload : String} (watched : s.watched? move = some payload)
    (same : (s.step move).2.counters = (s.fireWatchdog payload).2.counters) : s.Counts move := by
  have counted := s.traffic_fireWatchdog payload
  have looks : s.closing? move = if hasFired (s.fireWatchdog payload).1 then
      (Watchdog.ofPayload? payload).map .timeout else none := by
    cases move with
    | answer number kind attempt => cases watched
    | _ => simp only [closing?, watched, Option.bind_some]
  have unsent : s.sends move = [] := by
    cases move with
    | answer number kind attempt => cases watched
    | _ => rfl
  unfold Counts
  rw [unsent, looks, same, counted]
  cases fired : hasFired (s.fireWatchdog payload).1 with
  | false => rfl
  | true =>
    have read : ∃ watchdog, Watchdog.ofPayload? payload = some watchdog := by
      cases read : Watchdog.ofPayload? payload with
      | some watchdog => exact ⟨watchdog, rfl⟩
      | none =>
        simp only [System.fireWatchdog, read] at fired
        cases fired
    obtain ⟨watchdog, read⟩ := read
    rw [read]
    rfl

/-- An answer that a call does not ask for. -/
theorem counts_unasked {number : Nat} {kind : CallKind} {attempt : Attempt kind.Value}
    (ended : s.endCall number kind attempt = (.nothing, s)) (unsent : s.sends (.answer number kind attempt) = []) :
    s.Counts (.answer number kind attempt) := by
  refine counts_silent (congrArg (fun t => t.2.counters.traffic) ended) unsent ?_
  cases kind with
  | respond =>
    simp only [closing?, ended]
    split
    · next same => cases same
    · rfl
  | _ => rfl

theorem counts_answer (s : System) (number : Nat) (kind : CallKind) (attempt : Attempt kind.Value) :
    s.Counts (.answer number kind attempt) := by
  cases pending : s.calls.find? fun call => call.number = number with
  | none =>
    refine counts_unasked (by simp only [System.endCall, pending]) ?_
    cases kind <;> simp only [sends, pending]
  | some call =>
    cases subject : call.subject with
    | process task =>
      cases kind with
      | process =>
        refine counts_silent ?_ rfl rfl
        change (s.endCall number .process attempt).2.counters.traffic = _
        rw [endCall_process pending subject attempt, counters_finishCall, traffic_endProcess]
        rfl
      | request =>
        exact counts_unasked (by simp only [System.endCall, pending, subject]) (by simp only [sends, pending, subject])
      | respond => exact counts_unasked (by simp only [System.endCall, pending, subject]) rfl
    | request task =>
      cases kind with
      | request =>
        have sent : s.sends (.answer number .request attempt) = sentBy task attempt := by
          simp only [sends, pending, subject]
        have count : (sentBy task attempt).length = attempt.result.isOk.toNat := by cases attempt <;> rfl
        have ended := (s.dropCall number).traffic_endRequest call task attempt
        unfold Counts
        rw [sent, count]
        change (s.endCall number .request attempt).2.counters.traffic = _
        rw [endCall_request pending subject attempt, counters_finishCall]
        exact ended
      | process => exact counts_unasked (by simp only [System.endCall, pending, subject]) rfl
      | respond => exact counts_unasked (by simp only [System.endCall, pending, subject]) rfl
    | respond task input =>
      cases kind with
      | respond =>
        have ended := (s.dropCall number).traffic_endRespond call task attempt
        have told := endCall_respond pending subject attempt
        unfold Counts
        change (s.endCall number .respond attempt).2.counters.traffic = _
        rw [told, counters_finishCall, ended]
        simp only [closing?, pending, told]
        cases ((s.dropCall number).endRespond call task attempt).1 <;> rfl
      | process => exact counts_unasked (by simp only [System.endCall, pending, subject]) rfl
      | request =>
        exact counts_unasked (by simp only [System.endCall, pending, subject]) (by simp only [sends, pending, subject])

/-- A job that runs no watchdog of the dispatcher is not counted. -/
theorem counters_runJob {job : String} (unwatched : s.watched? (.runJob job) = none) :
    (s.runJob job).counters = s.counters := by
  unfold System.runJob
  simp only [watched?, Option.map_eq_none_iff] at unwatched
  cases found : s.engine.jobs.find? fun job' => job'.id = job ∧ ¬ job'.executed ∧ job'.due ≤ s.now with
  | none => rfl
  | some due =>
    simp only [found, Option.filter_eq_none_iff, Option.some.injEq, forall_eq', decide_eq_true_eq,
      not_and] at unwatched
    simp only
    split
    · next handled =>
      rw [if_neg (unwatched handled)]
    · rfl
    · rfl

theorem counts_step (s : System) (move : Move) : s.Counts move := by
  cases move with
  | operate kind operation =>
    exact counts_silent (congrArg Counters.traffic (s.counters_operate operation)) rfl rfl
  | register definitionKey topic lockTimeout vars contract =>
    exact counts_silent (congrArg Counters.traffic (s.counters_register definitionKey topic lockTimeout vars contract))
      rfl rfl
  | sweep => exact counts_silent (congrArg Counters.traffic s.acts_sweep.counters) rfl rfl
  | dispatch key => exact counts_silent (s.traffic_dispatch key) rfl rfl
  | process task => exact counts_silent (by rw [step_process, traffic_process]) rfl rfl
  | respond task input => exact counts_silent (by rw [step_respond, counters_respond]) rfl rfl
  | fireWatchdog payload => exact counts_watched rfl rfl
  | setLockTimeout timeout =>
    refine counts_silent ?_ rfl rfl
    simp only [System.step]
    split <;> rfl
  | answer number kind attempt => exact s.counts_answer number kind attempt
  | start action =>
    refine counts_silent ?_ rfl rfl
    simp only [System.step]
    split
    · exact traffic_runAction { s with host := s.host.start action } action
    · rfl
  | resume action =>
    refine counts_silent ?_ rfl rfl
    simp only [System.step]
    split
    · exact traffic_runAction { s with host := s.host.resume action } action
    · rfl
  | wake action =>
    refine counts_silent ?_ rfl rfl
    simp only [System.step]
    split <;> rfl
  | commit => exact counts_silent (congrArg Counters.traffic s.counters_commit) rfl rfl
  | runJob job =>
    cases watched : s.watched? (.runJob job) with
    | some payload =>
      have ran := watched
      simp only [watched?, Option.map_eq_some_iff, Option.filter_eq_some_iff, decide_eq_true_eq] at ran
      obtain ⟨due, ⟨found, handled, alive⟩, rfl⟩ := ran
      refine counts_watched watched ?_
      simp only [System.step, System.runJob, found, handled, alive, if_true]
    | none =>
      have unclosed : s.closing? (.runJob job) = none := by simp only [closing?, watched, Option.bind_none]
      exact counts_silent (congrArg Counters.traffic (counters_runJob watched)) rfl unclosed
  | _ => exact counts_silent rfl rfl rfl

/-- The counters and the requests in flight balance: what was sent waits, or was closed. -/
def Balanced (c : Counters) (f : InFlight) (moves : Nat) : Prop :=
  ∃ sent handled fired, c.traffic = Counters.zero.traffic.plus sent handled fired ∧
    sent + f.late = f.waiting.length + (handled + fired) + f.beside ∧
      sent ≤ moves ∧ handled + fired ≤ moves

theorem sends_length_le (s : System) (move : Move) : (s.sends move).length ≤ 1 := by
  cases move with
  | answer number kind attempt =>
    cases kind with
    | request =>
      simp only [sends]
      split
      · split
        · cases attempt <;> simp [sentBy]
        · simp
      · simp
    | _ => simp [sends]
  | _ => simp [sends]

theorem Balanced.after {f : InFlight} {moves : Nat} (balanced : Balanced s.counters f moves) (move : Move) :
    Balanced (s.step move).2.counters (f.after s move) (moves + 1) := by
  obtain ⟨sent, handled, fired, traffic, balance, few, fewer⟩ := balanced
  have counted := s.counts_step move
  unfold Counts at counted
  rw [traffic, Traffic.plus_plus] at counted
  have one := s.sends_length_le move
  refine ⟨_, _, _, counted, ?_, by omega, ?_⟩
  · unfold InFlight.after
    cases s.closing? move with
    | none =>
      simp only [Option.elim_none, List.length_append]
      omega
    | some closing =>
      have closed : f.waiting.length = _ := List.length_eq_countP_add_countP closing.closes
      have left : (f.waiting.filter fun lease => ¬ closing.closes lease).length =
          f.waiting.countP fun lease => ¬ closing.closes lease := by
        rw [List.countP_eq_length_filter]
      have tally : closing.responses + closing.timeouts = 1 := by cases closing <;> rfl
      simp only [Option.elim_some, List.length_append]
      omega
  · cases s.closing? move with
    | none => simp only [Option.elim_none]; omega
    | some closing =>
      have tally : closing.responses + closing.timeouts = 1 := by cases closing <;> rfl
      simp only [Option.elim_some]
      omega

theorem Balanced.run {f : InFlight} {before : Nat} (balanced : Balanced s.counters f before) (moves : List Move) :
    Balanced (s.run moves).counters (s.inFlight f moves) (before + moves.length) := by
  induction moves generalizing s f before with
  | nil => exact balanced
  | cons move rest ih =>
    have later := ih (balanced.after move)
    rw [List.length_cons, Nat.add_comm rest.length, ← Nat.add_assoc]
    exact later

theorem monus_toNat (a b : UInt64) : (monus a b).toNat = a.toNat - b.toNat := by
  unfold monus
  split
  · next below =>
    have := UInt64.le_iff_toNat_le.mp below
    have none' : (0 : UInt64).toNat = 0 := rfl
    omega
  · next above => rw [UInt64.toNat_sub_of_le _ _ (UInt64.le_of_lt (UInt64.not_le.mp above))]

/-- The statistic of requests in flight counts those that wait, and one for each that was closed beside another, less
one for each response or timeout that came late. So it is exact as long as each request is closed once, alone. -/
theorem run_inFlight (names : Naming) (now : Instant) (settings : Settings) (gated : Bool) (moves : List Move)
    (few : moves.length < 2 ^ 64) :
    let s := System.create names now settings gated
    let f := s.inFlight ⟨[], 0, 0⟩ moves
    (s.run moves).counters.asyncInFlight.toNat = f.waiting.length + f.beside - f.late ∧
      ((s.run moves).counters.asyncInFlight.toNat = f.waiting.length ↔
        f.late = f.beside ∨ f.waiting = [] ∧ f.beside ≤ f.late) := by
  intro s f
  have empty : Balanced s.counters ⟨[], 0, 0⟩ 0 :=
    ⟨0, 0, 0, (Traffic.plus_zero _).symm, rfl, Nat.le_refl 0, Nat.le_refl 0⟩
  obtain ⟨sent, handled, fired, traffic, balance, fewSent, fewClosed⟩ := empty.run moves
  have account : sent + f.late = f.waiting.length + (handled + fired) + f.beside := balance
  rw [Nat.zero_add] at fewSent fewClosed
  have word (n : Nat) (le : n ≤ moves.length) : (0 + UInt64.ofNat n).toNat = n := by
    rw [UInt64.zero_add, UInt64.toNat_ofNat_of_lt' (Nat.lt_of_le_of_lt le few)]
  have counts : (s.run moves).counters.asyncInFlight.toNat = sent - handled - fired := by
    have split : (s.run moves).counters.asyncInFlight =
        monus (monus (s.run moves).counters.traffic.sent (s.run moves).counters.traffic.handled)
          (s.run moves).counters.traffic.fired := rfl
    rw [split, traffic, monus_toNat, monus_toNat]
    simp only [Traffic.plus, Counters.traffic, Counters.zero]
    rw [word sent fewSent, word handled (by omega), word fired (by omega)]
  rw [counts, ← List.length_eq_zero_iff]
  omega

/-- A dispatcher that sends the requests of two tasks; the response to the first one is missing. -/
def missingResponse : List Move :=
  [.register "order" "money" none .all (.async none none),
    .operate .done (.deploy ⟨"order", [⟨"pay", .serviceTask, some "money", none⟩]⟩),
    .operate .name (.start "order" none .empty), .operate .name (.start "order" none .empty),
    .dispatch ⟨"order", "money"⟩, .start 0, .start 1, .start 2, .answer 1 .request (.returned none),
    .answer 2 .request (.returned none), .fireWatchdog "t#60000"]

/-- The late response to a request that was given up, with the end of its processor. -/
def lateResponse : List Move := [.respond "t" .null, .answer 3 .respond (.returned (.null, .empty))]

/-- As long as the response is missing the statistic is exact: the other request is in flight. -/
theorem run_inFlight_missing :
    let s := System.create unaryNames .epoch (Settings.defaults "w") false
    (s.inFlight ⟨[], 0, 0⟩ missingResponse).waiting.map LeasedTask.id = ["tt"] ∧
      (s.run missingResponse).counters.asyncInFlight.toNat = 1 :=
  ⟨rfl, (run_inFlight unaryNames .epoch (Settings.defaults "w") false missingResponse (by decide)).1.trans rfl⟩

/-- A request that is timed out and then answered after all is taken off twice: the second request still waits, but is
not counted any more. -/
theorem inFlight_misses_waiting :
    let s := System.create unaryNames .epoch (Settings.defaults "w") false
    let moves := missingResponse ++ lateResponse
    (s.sent moves).map LeasedTask.id = ["t", "tt"] ∧
      (s.inFlight ⟨[], 0, 0⟩ moves).waiting.map LeasedTask.id = ["tt"] ∧
        (s.run moves).counters.asyncInFlight = 0 := ⟨rfl, rfl, rfl⟩

end System

end TaskLeasing
