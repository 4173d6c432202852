import TaskLeasing.Proofs.System.Compensation
import TaskLeasing.Proofs.System.Tallying

namespace TaskLeasing.System

variable {s : System}

/-- What an answer counts. One that a call asks for concludes a leased task, or answers a response, which counts for an
incident if the engine refuses its completion. -/
theorem answer_cases (s : System) (number : Nat) (kind : CallKind) (attempt : Attempt kind.Value) :
    let move : Move := .answer number kind attempt
    (s.answered? move = none ∧ (s.step move).2 = s ∧ s.concludedIn move = [] ∧ s.rejectedIn move = []) ∨
    (∃ call lease outcome, s.answered? move = some call ∧ call.subject.attempt? = some lease ∧
      s.concludedIn move = [(lease, outcome)] ∧ s.rejectedIn move = [] ∧
        (s.step move).2.counters.tally = s.counters.tally.plus 0 [outcome]) ∨
    ∃ call, s.answered? move = some call ∧ call.subject.attempt? = none ∧ s.concludedIn move = [] ∧
      (s.step move).2.counters.tally =
        s.counters.tally.plus 0 ((s.rejectedIn move).map fun _ => Outcome.incident) := by
  intro move
  cases answered : s.answered? move with
  | none =>
    refine .inl ⟨rfl, endCall_unanswered answered, by simp only [move, concludedIn, answered, Option.bind_none], ?_⟩
    cases kind with
    | respond =>
      simp only [move, rejectedIn]
      split
      · next call pending =>
        split
        · next task input subject =>
          have asked : s.answered? move = some call := by
            simp only [move, answered?, pending, Option.filter_some, subject]
            rfl
          rw [answered] at asked
          cases asked
        · rfl
      · rfl
    | _ => rfl
  | some call =>
    obtain ⟨pending, same⟩ := Option.filter_eq_some_iff.mp answered
    have asked : kind = call.subject.kind := (of_decide_eq_true same).symm
    right
    cases subject : call.subject with
    | process task =>
      obtain rfl : kind = .process := by rw [asked, subject]; rfl
      have ended := endCall_process pending subject attempt
      refine .inl ⟨call, task, ((s.dropCall number).endProcess call task attempt).1, rfl, by rw [subject]; rfl, ?_, rfl,
        ?_⟩
      · simp only [move, concludedIn, ended]
        rw [show s.answered? (.answer number .process attempt) = some call from answered]
        simp only [Option.bind_some, subject, CallSubject.attempt?]
      · change (s.endCall number .process attempt).2.counters.tally = _
        rw [ended, counters_finishCall, tally_endProcess]
        rfl
    | request task =>
      obtain rfl : kind = .request := by rw [asked, subject]; rfl
      have ended := endCall_request pending subject attempt
      refine .inl ⟨call, task, ((s.dropCall number).endRequest call task attempt).1, rfl, by rw [subject]; rfl, ?_, rfl,
        ?_⟩
      · simp only [move, concludedIn, ended]
        rw [show s.answered? (.answer number .request attempt) = some call from answered]
        simp only [Option.bind_some, subject, CallSubject.attempt?]
      · change (s.endCall number .request attempt).2.counters.tally = _
        rw [ended, counters_finishCall, tally_endRequest]
        rfl
    | respond task input =>
      obtain rfl : kind = .respond := by rw [asked, subject]; rfl
      have ended := endCall_respond pending subject attempt
      refine .inr ⟨call, rfl, by rw [subject]; rfl, ?_, ?_⟩
      · simp only [move, concludedIn, ended]
        rw [show s.answered? (.answer number .respond attempt) = some call from answered]
        simp only [Option.bind_some, subject, CallSubject.attempt?]
      · change (s.endCall number .respond attempt).2.counters.tally = _
        rw [ended, counters_finishCall, tally_endRespond]
        simp only [move, rejectedIn, pending, subject]
        have told : (s.dropCall number).refusesResponse call task attempt = s.refusesResponse call task attempt := by
          cases attempt <;> rfl
        rw [told]
        split <;> rfl

/-- A move that brings no task along counts the tasks that it leases, and an outcome for each one that it concludes and
for each response that it finds refused. -/
theorem tally_step (s : System) {move : Move} (own : ∀ task, move ≠ .process task) :
    (s.step move).2.counters.tally = s.counters.tally.plus (s.leasedIn move).length (s.outcomesIn move) := by
  have silent (same : (s.step move).2.counters.tally = s.counters.tally) (unleased : s.leasesFor? move = none)
      (uncounted : s.outcomesIn move = []) :
      (s.step move).2.counters.tally = s.counters.tally.plus (s.leasedIn move).length (s.outcomesIn move) := by
    rw [leasedIn, unleased, uncounted, same]
    exact (Tally.plus_nil _).symm
  have takes {action : Nat} (up : move = .start action ∨ move = .resume action) :
      (s.step move).2.counters.tally = s.counters.tally.plus (s.leasedIn move).length (s.outcomesIn move) := by
    have outcomes : s.outcomesIn move =
        ((s.taken? move).toList.flatMap fun work => work.unmet (s.step move).1).map fun _ => .incident := by
      rcases up with rfl | rfl <;>
        simp only [outcomesIn, concludedIn, rejectedIn, List.map_map, List.map_nil, List.append_nil] <;> rfl
    rcases s.takeUp_cases up with ⟨host, a, taken, runs, leases, _, stepped⟩ | ⟨untaken, unleased, host, _, stepped⟩
    · have ran := runs_runAction { s with host := host } runs
      rw [← stepped] at ran
      rw [outcomes, taken, leasedIn, leases, Option.toList_some, List.flatMap_singleton]
      exact ran.tally
    · refine silent ?_ unleased ?_
      · rw [stepped]
      · rw [outcomes, untaken]
        rfl
  cases move with
  | operate kind operation => exact silent (congrArg Counters.tally (s.counters_operate operation)) rfl rfl
  | register definitionKey topic lockTimeout vars contract =>
    exact silent (congrArg Counters.tally (s.counters_register definitionKey topic lockTimeout vars contract)) rfl rfl
  | sweep => exact silent (congrArg Counters.tally s.acts_sweep.counters) rfl rfl
  | dispatch key => exact s.tally_dispatch key
  | process task => exact absurd rfl (own task)
  | respond task input =>
    refine silent ?_ rfl rfl
    rw [step_respond, counters_respond]
  | fireWatchdog payload => exact silent (s.tally_fireWatchdog payload) rfl rfl
  | setLockTimeout timeout =>
    refine silent ?_ rfl rfl
    simp only [System.step]
    split <;> rfl
  | answer number kind attempt =>
    rcases s.answer_cases number kind attempt with ⟨_, same, unconcluded, unrejected⟩ |
      ⟨_, lease, outcome, _, _, concluded, unrejected, tally⟩ | ⟨_, _, _, unconcluded, tally⟩
    · refine silent (congrArg (fun t : System => t.counters.tally) same) rfl ?_
      rw [outcomesIn, unconcluded, unrejected]
      rfl
    · rw [outcomesIn, concluded, unrejected]
      exact tally
    · rw [outcomesIn, unconcluded]
      exact tally
  | start action => exact takes (.inl rfl)
  | resume action => exact takes (.inr rfl)
  | wake action =>
    refine silent ?_ rfl rfl
    simp only [System.step]
    split <;> rfl
  | commit => exact silent (congrArg Counters.tally s.counters_commit) rfl rfl
  | runJob job => exact silent (s.tally_runJob job) rfl rfl
  | _ => exact silent rfl rfl rfl

/-- Where no task is brought along, a leased task whose processing begins is at its processor or concluded; and
those whose processors have answered are concluded. -/
theorem begun_step (s : System) {move : Move} (own : ∀ task, move ≠ .process task) :
    (s.taken? move).toList.flatMap Work.begun ++
        ((s.answered? move).bind fun call => call.subject.attempt?).toList =
      ((s.step move).1.call?.bind fun call => call.subject.attempt?).toList ++ (s.concludedIn move).map Prod.fst := by
  have untried {call : ProcessorCall} (untaken : s.taken? move = none)
      (calling : (s.step move).1.call? = some call) : call.subject.attempt? = none := by
    cases attempt : call.subject.attempt? with
    | none => rfl
    | some lease =>
      rcases call?_taken calling attempt with brought | taken
      · exact absurd brought (own lease)
      · rw [untaken] at taken
        cases taken
  have silent (untaken : s.taken? move = none) :
      ((s.step move).1.call?.bind fun call => call.subject.attempt?) = none := by
    cases calling : (s.step move).1.call? with
    | none => rfl
    | some call => exact untried untaken calling
  have plain (untaken : s.taken? move = none) (unanswered : s.answered? move = none)
      (unconcluded : s.concludedIn move = []) : (s.taken? move).toList.flatMap Work.begun ++
        ((s.answered? move).bind fun call => call.subject.attempt?).toList =
      ((s.step move).1.call?.bind fun call => call.subject.attempt?).toList ++ (s.concludedIn move).map Prod.fst := by
    rw [silent untaken, untaken, unanswered, unconcluded]
    rfl
  have takes {action : Nat} (up : move = .start action ∨ move = .resume action) :
      (s.taken? move).toList.flatMap Work.begun ++
        ((s.answered? move).bind fun call => call.subject.attempt?).toList =
      ((s.step move).1.call?.bind fun call => call.subject.attempt?).toList ++ (s.concludedIn move).map Prod.fst := by
    have unanswered : s.answered? move = none := by rcases up with rfl | rfl <;> rfl
    have concluded : (s.concludedIn move).map Prod.fst =
        (s.taken? move).toList.flatMap fun work => work.unmet (s.step move).1 := by
      rcases up with rfl | rfl <;> simp [concludedIn, Function.comp_def]
    rcases s.takeUp_cases up with ⟨host, a, taken, runs, _, _, stepped⟩ | ⟨untaken, _, _, _⟩
    · have ran := runs_runAction { s with host := host } runs
      rw [← stepped] at ran
      rw [concluded, taken, unanswered, Option.toList_some, List.flatMap_singleton, List.flatMap_singleton, ran.begun]
      exact List.append_nil _
    · rw [concluded, silent untaken, untaken, unanswered]
      rfl
  cases move with
  | answer number kind attempt =>
    have untaken : s.taken? (.answer number kind attempt) = none := rfl
    rw [silent untaken, untaken]
    rcases s.answer_cases number kind attempt with ⟨unanswered, _, unconcluded, _⟩ |
      ⟨_, lease, outcome, answered, attempt, concluded, _, _⟩ | ⟨_, answered, attempt, unconcluded, _⟩
    · rw [unanswered, unconcluded]
      rfl
    · rw [answered, concluded, Option.bind_some, attempt]
      rfl
    · rw [answered, unconcluded, Option.bind_some, attempt]
      rfl
  | start action => exact takes (.inl rfl)
  | resume action => exact takes (.inr rfl)
  | process task => exact absurd rfl (own task)
  | _ => exact plain rfl rfl rfl

/-- The leased tasks whose processing has not ended: those that are still to be handed out or begun, and those that
processors are at. -/
def unfinished (s : System) : List LeasedTask := s.handed ++ s.attempted

theorem unfinished_step (numbered : s.host.Numbered) (issued : s.Issued) {move : Move}
    (own : ∀ task, move ≠ .process task) :
    ((s.step move).2.unfinished ++ (s.concludedIn move).map Prod.fst).Perm (s.unfinished ++ s.leasedIn move) := by
  have handed := Multiset.coe_eq_coe.mpr (handed_step numbered move)
  have attempted := Multiset.coe_eq_coe.mpr (attempted_step numbered issued.apart move)
  have begun := congrArg (fun tasks : List LeasedTask => (tasks : Multiset LeasedTask)) (s.begun_step own)
  refine Multiset.coe_eq_coe.mp ?_
  simp only [unfinished, ← Multiset.coe_add] at handed attempted begun ⊢
  generalize (((s.step move).1.call?.bind fun call => call.subject.attempt?).toList : Multiset LeasedTask) = called
    at attempted begun
  generalize (((s.taken? move).toList.flatMap Work.begun : List LeasedTask) : Multiset LeasedTask) = taken
    at handed begun
  generalize (((s.answered? move).bind fun call => call.subject.attempt?).toList : Multiset LeasedTask) = answered
    at attempted begun
  -- what a processor is called for was at hand before, so that it leaves the sum as it is
  refine add_right_cancel (b := called) ?_
  calc
    _ = ((s.step move).2.handed + (s.step move).2.attempted : Multiset LeasedTask) +
        (called + ((s.concludedIn move).map Prod.fst : List LeasedTask)) := by abel
    _ = ((s.step move).2.handed + taken : Multiset LeasedTask) + ((s.step move).2.attempted + answered) := by
      rw [← begun]
      abel
    _ = (s.handed + s.leasedIn move : Multiset LeasedTask) + (s.attempted + called) := by rw [handed, attempted]
    _ = _ := by abel

/-- Leased tasks are neither lost nor doubled: each one is still in the works or was concluded, once. -/
theorem unfinished_run (numbered : s.host.Numbered) (issued : s.Issued) {moves : List Move}
    (own : ∀ task, .process task ∉ moves) :
    ((s.run moves).unfinished ++ (s.gather concludedIn moves).map Prod.fst).Perm
      (s.unfinished ++ s.gather leasedIn moves) := by
  have tasks := gather_comp concludedIn (List.map Prod.fst) rfl (fun _ _ => List.map_append) s moves
  rw [tasks]
  refine balance_run (fun s => s.host.Numbered ∧ s.Issued) unfinished ⟨numbered, issued⟩ ?_
  rintro s ⟨numbered, issued⟩ move among
  obtain ⟨_, passes⟩ := passes_step numbered move
  exact ⟨⟨passes.numbered, issued.step move⟩,
    unfinished_step numbered issued fun task brings => own task (brings ▸ among)⟩

theorem tally_run (s : System) {moves : List Move} (own : ∀ task, .process task ∉ moves) :
    (s.run moves).counters.tally =
      s.counters.tally.plus (s.gather leasedIn moves).length (s.gather outcomesIn moves) := by
  induction moves generalizing s with
  | nil => exact (Tally.plus_nil _).symm
  | cons move rest ih =>
    have first := s.tally_step fun task is => own task (List.mem_cons.mpr (.inl is.symm))
    have later := ih (s.step move).2 fun task among => own task (List.mem_cons_of_mem move among)
    rw [first, Tally.plus_plus] at later
    simp only [gather, List.length_append]
    exact later

/-- An outcome is counted for each task that is concluded and for each response that is refused, and no other. -/
theorem outcomes_length (s : System) (moves : List Move) : (s.gather outcomesIn moves).length =
    (s.gather concludedIn moves).length + (s.gather rejectedIn moves).length := by
  induction moves generalizing s with
  | nil => rfl
  | cons move rest ih =>
    simp only [gather, outcomesIn, List.length_append, List.length_map, ih]
    omega

theorem sum_count (outcomes : List Outcome) :
    outcomes.count .completed + outcomes.count .businessError + outcomes.count .retryScheduled +
      outcomes.count .incident + outcomes.count .awaitingResponse = outcomes.length := by
  induction outcomes with
  | nil => rfl
  | cons outcome rest ih =>
    rw [List.length_cons, ← ih]
    cases outcome <;> simp <;> omega

/-- Attempts are conserved in the statistics. In a run where the dispatcher's own actions alone process tasks, whatever
processors answer, panics among it, and whatever the engine refuses, each leased task is still in the works or was
concluded once; and, as long as the counters do not overflow, the outcomes that are counted are as many as the tasks
that were leased, without those that are still in the works, and with the responses whose completions the engine
refused. -/
theorem run_conserves (names : Naming) (now : Instant) (settings : Settings) (gated : Bool) (moves : List Move)
    (own : ∀ task, .process task ∉ moves) :
    let s := create names now settings gated
    let t := s.run moves
    let c := t.counters
    (t.unfinished ++ (s.gather concludedIn moves).map Prod.fst).Perm (s.gather leasedIn moves) ∧
      ((s.gather leasedIn moves).length < 2 ^ 64 → (∀ outcome, (s.gather outcomesIn moves).count outcome < 2 ^ 64) →
        c.tasksLeased.toNat = (s.gather leasedIn moves).length ∧
          (∀ outcome, (c.of outcome).toNat = (s.gather outcomesIn moves).count outcome) ∧
          t.unfinished.length ≤ c.tasksLeased.toNat ∧
          c.tasksCompleted.toNat + c.businessErrors.toNat + c.retriesScheduled.toNat + c.incidentsRaised.toNat +
            c.asyncRequestsSent.toNat =
              c.tasksLeased.toNat - t.unfinished.length + (s.gather rejectedIn moves).length) := by
  intro s t c
  have idle : s.unfinished = [] := by
    cases gated <;> rfl
  have account : (t.unfinished ++ (s.gather concludedIn moves).map Prod.fst).Perm (s.gather leasedIn moves) := by
    have account := unfinished_run (Host.numbered_idle _ : s.host.Numbered) (issued_create names now settings gated) own
    rwa [idle, List.nil_append] at account
  refine ⟨account, fun few fewOutcomes => ?_⟩
  have tally := s.tally_run own
  have leased : c.tasksLeased.toNat = (s.gather leasedIn moves).length := by
    have counted : c.tasksLeased = 0 + UInt64.ofNat (s.gather leasedIn moves).length := congrArg Tally.leased tally
    rw [counted, UInt64.zero_add, UInt64.toNat_ofNat_of_lt' few]
  have outcomes (outcome : Outcome) : (c.of outcome).toNat = (s.gather outcomesIn moves).count outcome := by
    have counted : c.of outcome = 0 + UInt64.ofNat ((s.gather outcomesIn moves).count outcome) := by
      rw [show c.of outcome = _ from congrFun (congrArg Tally.outcomes tally) outcome]
      cases outcome <;> rfl
    rw [counted, UInt64.zero_add, UInt64.toNat_ofNat_of_lt' (fewOutcomes outcome)]
  have lengths := account.length_eq
  rw [List.length_append, List.length_map] at lengths
  refine ⟨leased, outcomes, by omega, ?_⟩
  calc
    _ = (s.gather outcomesIn moves).length := by
      rw [← sum_count, ← outcomes .completed, ← outcomes .businessError, ← outcomes .retryScheduled,
        ← outcomes .incident, ← outcomes .awaitingResponse]
      rfl
    _ = (s.gather concludedIn moves).length + (s.gather rejectedIn moves).length := s.outcomes_length moves
    _ = _ := by omega

/-- The engine refuses the completion after a response. Of two more tasks that are leased, one is waiting to be
processed, and the processor of the other panics while the engine is not available. -/
def troubledRequests : List Move :=
  refusedResponse ++ [.answer 2 .respond (.returned (.null, .empty)), .operate .name (.start "order" none .empty),
    .operate .name (.start "order" none .empty), .start 5, .start 6, .start 7, .start 8,
    .operate .done (.setAvailable false), .start 9, .start 10, .answer 3 .request (.panicked "out of order")]

theorem run_conserves_troubled :
    let s := create unaryNames .epoch (Settings.defaults "w") false
    let c := (s.run troubledRequests).counters
    (s.gather leasedIn troubledRequests).map LeasedTask.id = ["t", "tt", "ttt"] ∧
      (s.run troubledRequests).unfinished.map LeasedTask.id = ["ttt"] ∧
      (s.gather rejectedIn troubledRequests).map ExternalTask.id = ["t"] ∧
      c.incidentsRaised = 2 ∧ c.asyncRequestsSent = 1 ∧
      c.tasksCompleted.toNat + c.businessErrors.toNat + c.retriesScheduled.toNat + c.incidentsRaised.toNat +
        c.asyncRequestsSent.toNat = 3 - 1 + 1 := by
  have leased : ((create unaryNames .epoch (Settings.defaults "w") false).gather leasedIn troubledRequests).map
      LeasedTask.id = ["t", "tt", "ttt"] := rfl
  have few : ((create unaryNames .epoch (Settings.defaults "w") false).gather leasedIn troubledRequests).length =
      3 := rfl
  have counted : (create unaryNames .epoch (Settings.defaults "w") false).gather outcomesIn troubledRequests =
      [.awaitingResponse, .incident, .incident] := rfl
  obtain ⟨_, conserved⟩ := run_conserves unaryNames .epoch (Settings.defaults "w") false troubledRequests
    (by simp [troubledRequests, refusedResponse, oneRequest])
  obtain ⟨_, _, _, sum⟩ := conserved (by rw [few]; decide) fun outcome => by
    rw [counted]
    cases outcome <;> decide
  exact ⟨leased, rfl, rfl, rfl, rfl, sum.trans rfl⟩

end TaskLeasing.System
