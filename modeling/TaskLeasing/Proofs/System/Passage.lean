import TaskLeasing.Proofs.System.Adding
import TaskLeasing.Proofs.System.Scoping

namespace TaskLeasing.System

/-- What a move does with the works there are and the calls that go on: a work may be taken up and a call be
answered; what follows the work, other works and a call may come in addition. Leased tasks come with a lease
alone, and compensations while a response is at its processor. -/
structure Passes (s : System) (move : Move) (works : List Work) : Prop where
  numbered : (s.step move).2.host.Numbered
  toDo : ((s.step move).2.toDo ++ (s.taken? move).toList).Perm
    (s.toDo ++ ((s.taken? move).toList.flatMap Work.follow ++ works))
  calls : (s.step move).2.calls =
    ((s.answered? move).elim s fun call => s.dropCall call.number).calls ++ (s.step move).1.call?.toList
  leases : works.flatMap Work.leases = s.leasedIn move
  compensates : ∀ work ∈ works, work.Compensates →
    ∃ call ∈ s.calls, ∃ task input, call.subject = .respond task input

variable {s : System} {works : List Work}

/-- A move in which the host takes nothing up and no call ends passes on what it adds. -/
theorem Adds.passes {move : Move} (adds : s.Adds (s.step move).2 works (s.step move).1.call?.toList)
    (numbered : s.host.Numbered) (untaken : s.taken? move = none) (unanswered : s.answered? move = none)
    (sorted : Sorted works (s.leasedIn move) (∃ call ∈ s.calls, ∃ task input, call.subject = .respond task input)) :
    s.Passes move works where
  numbered := adds.numbered numbered
  toDo := by
    rw [untaken, Option.toList_none, List.append_nil]
    exact adds.toDo numbered
  calls := by
    rw [unanswered]
    exact adds.calls
  leases := sorted.1
  compensates := sorted.2

/-- An action that is taken up adds what follows its work. -/
theorem passes_takeUp {move : Move} {host : Host Work} {a : HostAction Work} (numbered : host.Numbered)
    (runs : host.running? a.number = some a) (taken : s.taken? move = some a.work)
    (leases : s.leasesFor? move = a.work.leasesFor?) (unanswered : s.answered? move = none)
    (toDo : s.toDo.Perm (a.work :: System.toDo { s with host := host }))
    (stepped : s.step move = System.runAction { s with host := host } a.number) : ∃ works, s.Passes move works := by
  obtain ⟨works, adds, sorted⟩ := adds_runAction { s with host := host } runs
    (∃ call ∈ s.calls, ∃ task input, call.subject = .respond task input)
  rw [← stepped] at adds
  refine ⟨works, ⟨adds.numbered numbered, ?_, ?_, ?_, sorted.2⟩⟩
  · have left := (adds.toDo numbered).append_right [a.work]
    rw [taken, Option.toList_some, List.flatMap_singleton]
    refine left.trans (.trans ?_ (toDo.symm.append_right _))
    rw [List.cons_append]
    exact List.perm_append_singleton _ _
  · rw [unanswered]
    exact adds.calls
  · rw [leasedIn, leases]
    exact sorted.1

/-- What takes nothing up, answers nothing, leases nothing and comes to no call may change hands alone. -/
theorem passes_quiet {move : Move} (numbered : s.host.Numbered) (untaken : s.taken? move = none)
    (unanswered : s.answered? move = none) (unleased : s.leasesFor? move = none)
    (silent : (s.step move).1.call? = none) (adds : s.Adds (s.step move).2 [] []) : ∃ works, s.Passes move works := by
  refine ⟨[], Adds.passes (by rwa [silent]) numbered untaken unanswered ?_⟩
  rw [leasedIn, unleased]
  exact sorted_nil _

theorem passes_start (numbered : s.host.Numbered) (action : Nat) : ∃ works, s.Passes (.start action) works := by
  by_cases found : (s.host.queued.any fun a => a.number = action) = true
  · obtain ⟨a, member, number⟩ := List.any_eq_true.mp found
    obtain rfl : a.number = action := by simpa using number
    have stepped : s.step (.start a.number) =
        System.runAction { s with host := s.host.start a.number } a.number := by
      simp only [System.step, found, if_true]
    have started := (numbered.start member).1
    rcases toDo_start numbered member with ⟨runs, toDo⟩ | ⟨waits, toDo⟩
    · refine passes_takeUp started runs ?_ ?_ rfl toDo stepped
      · simp only [taken?, found, if_true, runs, Option.map_some]
      · simp only [leasesFor?, found, if_true, runs, Option.bind_some]
    · have idle : s.step (.start a.number) = (.nothing, { s with host := s.host.start a.number }) := by
        rw [stepped]
        simp only [System.runAction, waits]
      have put : s.Adds { s with host := s.host.start a.number } [] [] :=
        ⟨fun _ => started, fun _ => by
          rw [List.append_nil]
          exact toDo.symm, (List.append_nil _).symm⟩
      refine passes_quiet numbered ?_ rfl ?_ (by rw [idle]; rfl) (by rw [idle]; exact put)
      · simp only [taken?, found, if_true, waits, Option.map_none]
      · simp only [leasesFor?, found, if_true, waits, Option.bind_none]
  · have stepped : s.step (.start action) = (.nothing, s) := by simp only [System.step, if_neg found]
    refine passes_quiet numbered ?_ rfl ?_ (by rw [stepped]; rfl) (by rw [stepped]; exact .refl s)
    · simp only [taken?, if_neg found]
    · simp only [leasesFor?, if_neg found]

theorem passes_resume (numbered : s.host.Numbered) (action : Nat) : ∃ works, s.Passes (.resume action) works := by
  by_cases found : (s.host.granted.any fun a => a.number = action) = true
  · obtain ⟨a, member, number⟩ := List.any_eq_true.mp found
    obtain rfl : a.number = action := by simpa using number
    have stepped : s.step (.resume a.number) =
        System.runAction { s with host := s.host.resume a.number } a.number := by
      simp only [System.step, found, if_true]
    obtain ⟨runs, toDo⟩ := toDo_resume numbered member
    refine passes_takeUp (numbered.resume member).1 runs ?_ ?_ rfl toDo stepped
    · simp only [taken?, found, if_true, runs, Option.map_some]
    · simp only [leasesFor?, found, if_true, runs, Option.bind_some]
  · have stepped : s.step (.resume action) = (.nothing, s) := by simp only [System.step, if_neg found]
    refine passes_quiet numbered ?_ rfl ?_ (by rw [stepped]; rfl) (by rw [stepped]; exact .refl s)
    · simp only [taken?, if_neg found]
    · simp only [leasesFor?, if_neg found]

theorem passes_answer (numbered : s.host.Numbered) (number : Nat) (kind : CallKind) (attempt : Attempt kind.Value) :
    ∃ works, s.Passes (.answer number kind attempt) works := by
  obtain ⟨works, adds, sorted⟩ := s.adds_endCall number kind attempt
  have silent : (s.step (.answer number kind attempt)).1.call? = none := s.call?_endCall number attempt
  -- a call that is dropped leaves the host as it is
  have dropped : ((s.answered? (.answer number kind attempt)).elim s fun call => s.dropCall call.number).host = s.host ∧
      ((s.answered? (.answer number kind attempt)).elim s fun call => s.dropCall call.number).toDo = s.toDo := by
    cases s.answered? (.answer number kind attempt) <;> exact ⟨rfl, rfl⟩
  rw [← dropped.1] at numbered
  refine ⟨works, adds.numbered numbered, ?_, ?_, sorted.1, sorted.2⟩
  · have toDo := adds.toDo numbered
    rw [dropped.2] at toDo
    simp only [taken?, Option.toList_none, List.append_nil, List.flatMap_nil, List.nil_append]
    exact toDo
  · rw [silent]
    exact adds.calls

/-- Every move passes works on. -/
theorem passes_step (numbered : s.host.Numbered) (move : Move) : ∃ works, s.Passes move works := by
  have same {t : System} (host : t.host = s.host) (gate : t.gate = s.gate) (calls : t.calls = s.calls) :
      s.Adds t [] [] := adds_of_eq host gate calls
  cases move with
  | operate kind operation =>
    obtain ⟨leases, adds⟩ := s.adds_operate operation
    exact ⟨_, Adds.passes adds numbered rfl rfl (sorted_deferLease leases _)⟩
  | setHandler type fails => exact passes_quiet numbered rfl rfl rfl rfl (same rfl rfl rfl)
  | attach => exact passes_quiet numbered rfl rfl rfl rfl (same rfl rfl rfl)
  | register definitionKey topic lockTimeout vars contract =>
    exact passes_quiet numbered rfl rfl rfl rfl (s.adds_register definitionKey topic lockTimeout vars contract)
  | sweep => exact ⟨_, Adds.passes s.adds_sweep numbered rfl rfl (sorted_deferLease _ _)⟩
  | dispatch key =>
    obtain ⟨works, adds, sorted⟩ := s.adds_dispatch key
    exact ⟨works, Adds.passes adds numbered rfl rfl sorted⟩
  | process task =>
    obtain ⟨works, adds, sorted⟩ := s.adds_process none task _
    rw [← step_process, ← call?_process] at adds
    exact ⟨works, Adds.passes adds numbered rfl rfl sorted⟩
  | respond task input =>
    obtain ⟨works, adds, sorted⟩ := s.adds_respond task input
    rw [← step_respond, ← call?_respond] at adds
    exact ⟨works, Adds.passes adds numbered rfl rfl sorted⟩
  | fireWatchdog payload =>
    obtain ⟨works, adds, sorted⟩ := s.adds_fireWatchdog payload
    exact ⟨works, Adds.passes adds numbered rfl rfl sorted⟩
  | setWorkerId worker => exact passes_quiet numbered rfl rfl rfl rfl (same rfl rfl rfl)
  | setLockTimeout timeout =>
    refine passes_quiet numbered rfl rfl rfl ?_ ?_ <;> simp only [System.step] <;> split
    · rfl
    · rfl
    · exact same rfl rfl rfl
    · exact same rfl rfl rfl
  | release => exact passes_quiet numbered rfl rfl rfl rfl (same rfl rfl rfl)
  | holdSweeper => exact passes_quiet numbered rfl rfl rfl rfl (same rfl rfl rfl)
  | dropSweeper => exact passes_quiet numbered rfl rfl rfl rfl (same rfl rfl rfl)
  | answer number kind attempt => exact passes_answer numbered number kind attempt
  | start action => exact passes_start numbered action
  | resume action => exact passes_resume numbered action
  | wake action =>
    have woken : s.Adds { s with host := s.host.wake s.now action } [] [] :=
      ⟨fun numbered => numbered.woken s.now action, fun numbered => by
        rw [List.append_nil]
        exact toDo_wake numbered action, (List.append_nil _).symm⟩
    refine passes_quiet numbered rfl rfl rfl ?_ ?_ <;> simp only [System.step] <;> split
    · rfl
    · rfl
    · exact .refl s
    · exact woken.then (adds_note _ _)
  | commit => exact passes_quiet numbered rfl rfl rfl rfl s.adds_commit
  | runJob job =>
    obtain ⟨works, adds, sorted⟩ := s.adds_runJob job
    exact ⟨works, Adds.passes adds numbered rfl rfl sorted⟩
  | passTo time => exact passes_quiet numbered rfl rfl rfl rfl (same rfl rfl rfl)

theorem numbered_run (numbered : s.host.Numbered) (moves : List Move) : (s.run moves).host.Numbered := by
  induction moves generalizing s with
  | nil => exact numbered
  | cons move rest ih =>
    obtain ⟨_, passes⟩ := passes_step numbered move
    exact ih passes.numbered

/-- Work stays to be done until the host takes it up. -/
theorem toDo_stays (numbered : s.host.Numbered) {move : Move} {work : Work} (member : work ∈ s.toDo) :
    work ∈ (s.step move).2.toDo ∨ s.taken? move = some work := by
  obtain ⟨works, passes⟩ := passes_step numbered move
  rcases List.mem_append.mp (passes.toDo.mem_iff.mpr (List.mem_append_left _ member)) with stays | taken
  · exact .inl stays
  · exact .inr (Option.mem_toList.mp taken)

/-- In the course of moves work stays to be done, or one of them takes it up. -/
theorem toDo_run (numbered : s.host.Numbered) {work : Work} (member : work ∈ s.toDo) (moves : List Move) :
    work ∈ (s.run moves).toDo ∨ ∃ early taking late, moves = early ++ taking :: late ∧
      (s.run early).taken? taking = some work := by
  induction moves generalizing s with
  | nil => exact .inl member
  | cons move rest ih =>
    obtain ⟨_, passes⟩ := passes_step numbered move
    rcases toDo_stays numbered member with stays | taken
    · rcases ih passes.numbered stays with last | ⟨early, taking, late, rfl, taken⟩
      · exact .inl last
      · exact .inr ⟨move :: early, taking, late, rfl, taken⟩
    · exact .inr ⟨[], move, rest, rfl, taken⟩

/-- A lease that is taken up is made. -/
theorem leasesFor?_taken {move : Move} {work : Work} (taken : s.taken? move = some work) :
    s.leasesFor? move = work.leasesFor? := by
  cases move with
  | start action =>
    simp only [taken?, leasesFor?] at taken ⊢
    split at taken
    · next found =>
      obtain ⟨a, runs, rfl⟩ := Option.map_eq_some_iff.mp taken
      rw [if_pos found, runs, Option.bind_some]
    · cases taken
  | resume action =>
    simp only [taken?, leasesFor?] at taken ⊢
    split at taken
    · next found =>
      obtain ⟨a, runs, rfl⟩ := Option.map_eq_some_iff.mp taken
      rw [if_pos found, runs, Option.bind_some]
    · cases taken
  | _ => cases taken

/-- When the host is to take an action up, it runs its work, or there is nothing to run yet. -/
theorem takeUp_cases (s : System) {move : Move} {action : Nat} (takes : move = .start action ∨ move = .resume action) :
    (∃ (host : Host Work) (a : HostAction Work), s.taken? move = some a.work ∧ host.running? action = some a ∧
      s.leasesFor? move = a.work.leasesFor? ∧ (host.delayed = s.host.delayed ∧ host.issued = s.host.issued) ∧
        s.step move = System.runAction { s with host := host } action) ∨
      s.taken? move = none ∧ s.leasesFor? move = none ∧ ∃ host : Host Work,
        (host.delayed = s.host.delayed ∧ host.issued = s.host.issued) ∧
          s.step move = (.nothing, { s with host := host }) := by
  rcases takes with rfl | rfl
  · by_cases found : (s.host.queued.any fun a => a.number = action) = true
    · have stepped : s.step (.start action) = System.runAction { s with host := s.host.start action } action := by
        simp only [System.step, found, if_true]
      simp only [taken?, leasesFor?, found, if_true]
      cases runs : (s.host.start action).running? action with
      | some a => exact .inl ⟨_, a, rfl, runs, rfl, s.host.start_delayed action, stepped⟩
      | none =>
        refine .inr ⟨rfl, rfl, s.host.start action, s.host.start_delayed action, ?_⟩
        rw [stepped]
        simp only [System.runAction, runs]
    · have idle : s.step (.start action) = (.nothing, s) := by simp only [System.step, if_neg found]
      exact .inr ⟨if_neg found, if_neg found, s.host, ⟨rfl, rfl⟩, idle⟩
  · by_cases found : (s.host.granted.any fun a => a.number = action) = true
    · have stepped : s.step (.resume action) = System.runAction { s with host := s.host.resume action } action := by
        simp only [System.step, found, if_true]
      simp only [taken?, leasesFor?, found, if_true]
      cases runs : (s.host.resume action).running? action with
      | some a => exact .inl ⟨_, a, rfl, runs, rfl, s.host.resume_delayed action, stepped⟩
      | none =>
        refine .inr ⟨rfl, rfl, s.host.resume action, s.host.resume_delayed action, ?_⟩
        rw [stepped]
        simp only [System.runAction, runs]
    · have idle : s.step (.resume action) = (.nothing, s) := by simp only [System.step, if_neg found]
      exact .inr ⟨if_neg found, if_neg found, s.host, ⟨rfl, rfl⟩, idle⟩

/-- The leased tasks of work that is taken up are at hand, or go on their way. -/
theorem leases_follow (work : Work) : work.leases = work.begun ++ work.follow.flatMap Work.leases := by
  cases work with
  | handOut tasks => simp [Work.leases, Work.begun, Work.follow, List.flatMap_map]
  | _ => rfl

/-- On their way are the leased tasks that were before, and those that are leased, but for the one whose processing
begins. -/
theorem handed_step (numbered : s.host.Numbered) (move : Move) :
    ((s.step move).2.handed ++ (s.taken? move).toList.flatMap Work.begun).Perm (s.handed ++ s.leasedIn move) := by
  obtain ⟨works, passes⟩ := passes_step numbered move
  have leases := Multiset.coe_eq_coe.mpr (passes.toDo.flatMap_right Work.leases)
  simp only [List.flatMap_append, passes.leases, ← handed_eq, ← Multiset.coe_add] at leases
  refine Multiset.coe_eq_coe.mp ?_
  rw [← Multiset.coe_add, ← Multiset.coe_add]
  cases taken : s.taken? move with
  | none => simpa [taken] using leases
  | some work =>
    rw [taken] at leases
    simp only [Option.toList_some, List.flatMap_singleton, leases_follow work, ← Multiset.coe_add] at leases ⊢
    refine add_right_cancel (b := (work.follow.flatMap Work.leases : Multiset LeasedTask)) ?_
    rw [add_assoc, leases]
    abel

theorem filterMap_attempt? (call? : Option ProcessorCall) :
    (call?.toList.filterMap fun call => call.subject.attempt?) =
      (call?.bind fun call => call.subject.attempt?).toList := by
  cases call? with
  | none => rfl
  | some call => cases attempt : call.subject.attempt? <;> simp [attempt]

/-- Processors are at the leased tasks they were at before, and at the one they are called for, but for the one whose
processor has answered. -/
theorem attempted_step (numbered : s.host.Numbered) (distinct : (s.calls.map ProcessorCall.number).Nodup)
    (move : Move) : ((s.step move).2.attempted ++
      ((s.answered? move).bind fun call => call.subject.attempt?).toList).Perm
        (s.attempted ++ ((s.step move).1.call?.bind fun call => call.subject.attempt?).toList) := by
  obtain ⟨works, passes⟩ := passes_step numbered move
  have calls : (s.step move).2.attempted = ((s.answered? move).elim s fun call => s.dropCall call.number).attempted ++
      ((s.step move).1.call?.bind fun call => call.subject.attempt?).toList := by
    rw [attempted, passes.calls, List.filterMap_append, filterMap_attempt?]
    rfl
  rw [calls]
  cases answered : s.answered? move with
  | none => simp
  | some call =>
    have pending : s.calls.find? (fun other => other.number = call.number) = some call := by
      cases move with
      | answer number kind attempt =>
        obtain ⟨found, _⟩ := Option.filter_eq_some_iff.mp answered
        have number : call.number = number := by simpa using List.find?_some found
        rwa [number]
      | _ => cases answered
    have dropped := attempted_dropped distinct pending
    rw [Option.elim_some, Option.bind_some]
    refine .trans ?_ (dropped.symm.append_right _)
    rw [List.append_assoc call.subject.attempt?.toList]
    exact List.perm_append_comm

/-- The calls that go on went on before, but for the one that a move comes to. -/
theorem mem_calls_step (numbered : s.host.Numbered) {move : Move} {call : ProcessorCall}
    (member : call ∈ (s.step move).2.calls) : call ∈ s.calls ∨ (s.step move).1.call? = some call := by
  obtain ⟨_, passes⟩ := passes_step numbered move
  rw [passes.calls] at member
  rcases List.mem_append.mp member with old | new
  · left
    cases answered : s.answered? move with
    | none => rwa [answered] at old
    | some other =>
      rw [answered] at old
      exact List.mem_of_mem_filter old
  · exact .inr (Option.mem_toList.mp new)

theorem mem_attempted_step (numbered : s.host.Numbered) {move : Move} {lease : LeasedTask}
    (member : lease ∈ (s.step move).2.attempted) : lease ∈ s.attempted ∨
      ∃ call, (s.step move).1.call? = some call ∧ call.subject.attempt? = some lease := by
  obtain ⟨call, among, attempt⟩ := List.mem_filterMap.mp member
  rcases mem_calls_step numbered among with old | new
  · exact .inl (List.mem_filterMap.mpr ⟨call, old, attempt⟩)
  · exact .inr ⟨call, new, attempt⟩

theorem call?_taken {move : Move} {call : ProcessorCall} {lease : LeasedTask}
    (calling : (s.step move).1.call? = some call) (attempt : call.subject.attempt? = some lease) :
    move = .process lease ∨ s.taken? move = some (.process lease) := by
  rcases call?_cases calling with ⟨other, same, _, origin⟩ | ⟨_, _, _, _, subject, _⟩
  · obtain rfl := Option.some.inj (same.symm.trans attempt)
    exact origin
  · rw [subject] at attempt
    cases attempt

/-- The calls of processors that moves come to, in order. -/
def callsOf : System → List Move → List ProcessorCall
  | _, [] => []
  | s, move :: rest => (s.step move).1.call?.toList ++ (s.step move).2.callsOf rest

/-- What the moves of a run tell, one after the other. -/
def gather {α : Type} (tell : System → Move → List α) : System → List Move → List α
  | _, [] => []
  | s, move :: rest => tell s move ++ (s.step move).2.gather tell rest

theorem mem_gather {α : Type} {tell : System → Move → List α} {moves : List Move} {told : α} :
    told ∈ s.gather tell moves ↔
      ∃ first move last, moves = first ++ move :: last ∧ told ∈ tell (s.run first) move := by
  induction moves generalizing s with
  | nil => simp [gather]
  | cons move rest ih =>
    rw [gather, List.mem_append, ih]
    constructor
    · rintro (now | ⟨first, other, last, rfl, later⟩)
      · exact ⟨[], move, rest, rfl, now⟩
      · exact ⟨move :: first, other, last, rfl, later⟩
    · rintro ⟨first, other, last, split, among⟩
      cases first with
      | nil =>
        obtain ⟨rfl, rfl⟩ := List.cons.inj split
        exact .inl among
      | cons head first =>
        obtain ⟨rfl, rfl⟩ := List.cons.inj split
        exact .inr ⟨first, other, last, rfl, among⟩

theorem gather_append {α : Type} (tell : System → Move → List α) (s : System) (before after : List Move) :
    s.gather tell (before ++ after) = s.gather tell before ++ (s.run before).gather tell after := by
  induction before generalizing s with
  | nil => rfl
  | cons move rest ih =>
    rw [List.cons_append, gather, ih, gather, List.append_assoc]
    rfl

/-- What is made of all that is told is made of it part by part. -/
theorem gather_comp {α β : Type} (tell : System → Move → List α) (make : List α → List β) (none' : make [] = [])
    (append : ∀ first second, make (first ++ second) = make first ++ make second) (s : System) (moves : List Move) :
    make (s.gather tell moves) = s.gather (fun s move => make (tell s move)) moves := by
  induction moves generalizing s with
  | nil => exact none'
  | cons move rest ih => rw [gather, append, ih, gather]

/-- An account that each move keeps is kept in a run: what there was and what came is there still, or is gone. -/
theorem balance_run {α : Type} (P : System → Prop) (held : System → List α) {gone come : System → Move → List α}
    {moves : List Move} (keeps : P s) (each : ∀ s, P s → ∀ move ∈ moves, P (s.step move).2 ∧
      (held (s.step move).2 ++ gone s move).Perm (held s ++ come s move)) :
    (held (s.run moves) ++ s.gather gone moves).Perm (held s ++ s.gather come moves) := by
  induction moves generalizing s with
  | nil => exact .refl _
  | cons move rest ih =>
    obtain ⟨kept, step⟩ := each s keeps move (List.mem_cons_self ..)
    have first := Multiset.coe_eq_coe.mpr step
    have later := Multiset.coe_eq_coe.mpr (ih kept fun s keeps other among =>
      each s keeps other (List.mem_cons_of_mem move among))
    refine Multiset.coe_eq_coe.mp ?_
    simp only [gather, ← Multiset.coe_add] at first later ⊢
    change (held ((s.step move).2.run rest) + (_ + _) : Multiset α) = _
    rw [add_left_comm, later, ← add_assoc, add_comm (gone s move : Multiset α), first, add_assoc]

end TaskLeasing.System
