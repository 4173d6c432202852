import TaskLeasing.Proofs.System.Carrying
import TaskLeasing.Proofs.System.Custody
import TaskLeasing.Proofs.System.Sources

namespace TaskLeasing.System

variable {s : System} {given : LeasedTask → Prop} {action : Nat}

/-- A host that is told something has no work but what was there and what comes of registrations. -/
theorem grows_host (given : LeasedTask → Prop) (s : System) {host : Host Work}
    (numbered : s.host.Numbered → host.Numbered)
    (works : s.host.Numbered → ∀ work ∈ ({ s with host := host } : System).toDo,
      work ∈ s.toDo ∨ work.StemsFrom s.registry given) : s.Grows given { s with host := host } :=
  { (Grows.refl s : s.Grows given s) with numbered := numbered, works := works }

/-- A part of a move that calls no processor and registers nothing may bring up works of such a kind. -/
theorem Does.grows {after : System} {asks : List Asked} {leases : List LeasedTask} (does : s.Does after asks leases)
    (works : ∀ work ∈ after.toDo, work ∈ s.toDo ∨ work.StemsFrom s.registry given) : s.Grows given after where
  perDefinition := congrArg Settings.leasePerDefinition does.settings
  entries := does.registry ▸ fun _ entry => entry
  distinct := does.registry ▸ id
  numbered := does.numbered
  calls := fun _ member => .inl (does.calls ▸ member)
  works := fun _ work member => does.registry ▸ works work member

/-- Where one work comes up in addition, it is of such a kind if this one is. -/
theorem stems_append {after : System} {work : Work} (toDo : after.toDo.Perm (s.toDo ++ [work]))
    (stems : work.StemsFrom s.registry given) :
    ∀ other ∈ after.toDo, other ∈ s.toDo ∨ other.StemsFrom s.registry given := by
  intro other member
  rcases List.mem_append.mp (toDo.mem_iff.mp member) with old | new
  · exact .inl old
  · exact .inr (List.mem_singleton.mp new ▸ stems)

theorem grows_submit (s : System) (label : String) (bounded : Bool) (work : Work)
    (stems : work.StemsFrom s.registry given) : s.Grows given (s.submit label bounded work) :=
  (s.does_submit label bounded work).grows (stems_append (s.toDo_submit label bounded work) stems)

theorem grows_runAsync (s : System) (label : String) (work : Work) (stems : work.StemsFrom s.registry given) :
    s.Grows given (s.runAsync label work) :=
  (s.grows_note given (.runAsync label)).trans (grows_submit _ label true work stems)

theorem grows_runAsyncs (s : System) (label : String) (tasks : List LeasedTask)
    (handed : ∀ task ∈ tasks, given task) :
    s.Grows given (tasks.foldl (fun s task => s.runAsync label (.process task)) s) := by
  induction tasks generalizing s with
  | nil => exact .refl s
  | cons first rest ih =>
    have one : s.Grows given (s.runAsync label (.process first)) :=
      s.grows_runAsync label (.process first) (handed first (List.mem_cons_self ..))
    exact one.trans (ih _ fun task member => handed task (List.mem_cons_of_mem _ member))

theorem grows_runAfter (s : System) (label : String) (delay : Span) (work : Work)
    (stems : work.StemsFrom s.registry given) : s.Grows given (s.runAfter label delay work) :=
  (s.does_runAfter label delay work).grows
    (stems_append ((s.note (.runAfter label delay)).toDo_defer label _ work) stems)

/-- A commit gives the works that were held back to the host. -/
theorem grows_commit (s : System) : s.Grows given s.commit.2 :=
  s.does_commit.grows fun _ member => .inl (s.toDo_commit.mem_iff.mp member)

/-- The end of an action brings no work up. -/
theorem grows_finishAction (s : System) (action : Nat) : s.Grows given (s.finishAction action) := by
  have finished : s.Grows given { s with host := s.host.finish action } :=
    s.grows_host given (fun numbered => (numbered.finish action).1) fun numbered _ member =>
      .inl ((toDo_finish numbered action).mem_iff.mp member)
  rcases s.finishAction_cases action with same | ⟨next, same⟩ <;> rw [same]
  · exact finished
  · exact finished.trans (grows_note given _ _)

theorem grows_finishCall (s : System) (call : ProcessorCall) : s.Grows given (s.finishCall call) := by
  unfold finishCall
  cases call.action with
  | none => exact .refl s
  | some action => exact s.grows_finishAction action

/-- What was delayed is there to be taken up when its time has come. -/
theorem grows_wake (s : System) (action : Nat) : s.Grows given { s with host := s.host.wake s.now action } :=
  s.grows_host given (fun numbered => numbered.woken s.now action) fun numbered _ member =>
    .inl ((toDo_wake numbered action).mem_iff.mp member)

namespace Sourced

variable (sourced : s.Sourced given)
include sourced

/-- An action that starts is one that was to be done. -/
theorem start (found : (s.host.queued.any fun a => a.number = action) = true) :
    s.Grows given { s with host := s.host.start action } ∧ ∀ a, (s.host.start action).running? action = some a →
      a.work.StemsFrom s.registry given := by
  obtain ⟨a, member, number⟩ := List.any_eq_true.mp found
  obtain rfl : a.number = action := by simpa using number
  have numbered := (sourced.numbered.start member).1
  rcases toDo_start sourced.numbered member with ⟨runs, toDo⟩ | ⟨waits, toDo⟩
  · refine ⟨s.grows_host given (fun _ => numbered) fun _ work atHost => .inl ?_, fun other running => ?_⟩
    · exact toDo.mem_iff.mpr (List.mem_cons_of_mem _ atHost)
    · obtain rfl := Option.some.inj (runs.symm.trans running)
      exact sourced.works _ (toDo.mem_iff.mpr (List.mem_cons_self ..))
  · refine ⟨s.grows_host given (fun _ => numbered) fun _ work atHost => .inl (toDo.mem_iff.mpr atHost),
      fun other running => ?_⟩
    rw [waits] at running
    cases running

/-- An action that goes on with its permit is one that was to be done. -/
theorem resume (found : (s.host.granted.any fun a => a.number = action) = true) :
    s.Grows given { s with host := s.host.resume action } ∧ ∀ a, (s.host.resume action).running? action = some a →
      a.work.StemsFrom s.registry given := by
  obtain ⟨a, member, number⟩ := List.any_eq_true.mp found
  obtain rfl : a.number = action := by simpa using number
  obtain ⟨runs, toDo⟩ := toDo_resume sourced.numbered member
  refine ⟨s.grows_host given (fun _ => (sourced.numbered.resume member).1) fun _ work atHost => .inl ?_,
    fun other running => ?_⟩
  · exact toDo.mem_iff.mpr (List.mem_cons_of_mem _ atHost)
  · obtain rfl := Option.some.inj (runs.symm.trans running)
    exact sourced.works _ (toDo.mem_iff.mpr (List.mem_cons_self ..))

/-- However a processor ends, what follows is for its call's registration. -/
theorem endCall (number : Nat) (kind : CallKind) (attempt : Attempt kind.Value) :
    s.Grows given (s.endCall number kind attempt).2 := by
  have dropped : s.Grows given (s.dropCall number) :=
    { (Grows.refl s : s.Grows given s) with calls := fun call member => .inl (List.mem_of_mem_filter member) }
  unfold System.endCall
  split
  · exact .refl s
  · next call pending =>
    have registered := sourced.calls call (List.mem_of_find?_eq_some pending)
    simp only
    split
    · next task ended _ =>
      exact (dropped.trans (grows_endProcess given _ call task ended registered)).trans (grows_finishCall _ call)
    · next task ended _ =>
      exact (dropped.trans (grows_endRequest given _ call task ended registered)).trans (grows_finishCall _ call)
    · next task _ ended _ =>
      exact (dropped.trans (grows_endRespond given _ call task ended)).trans (grows_finishCall _ call)
    · exact .refl s

end Sourced

/-- An action brings up what its work stands for. -/
theorem grows_runAction (s : System) (action : Nat)
    (stems : ∀ a, s.host.running? action = some a → a.work.StemsFrom s.registry given)
    (leased : ∀ a registration, s.host.running? action = some a → a.work = .lease registration →
      ∀ lease ∈ (s.leaseAsk registration).leased, given lease) : s.Grows given (s.runAction action).2 := by
  unfold System.runAction
  split
  · exact .refl s
  · next a running =>
    have own := stems a running
    split
    · next registration work =>
      rw [work] at own
      exact (s.grows_runAsync "fetch_and_lock" (.lease registration) own).trans (grows_finishAction _ action)
    · next registration work =>
      exact (s.grows_leaseLogged registration (leased a registration running work)).trans (grows_finishAction _ action)
    · next registration delay work =>
      rw [work] at own
      exact (s.grows_runAfter "retry" delay (.lease registration) own).trans (grows_finishAction _ action)
    · next tasks work =>
      rw [work] at own
      exact (s.grows_runAsyncs "process" tasks own).trans (grows_finishAction _ action)
    · next task _ =>
      have processed := s.grows_process given (some action) task
      split
      · next outcome t result =>
        rw [result] at processed
        exact processed.trans (grows_finishAction t action)
      · next call t result =>
        rw [result] at processed
        exact processed
    · next task worker vars error _ =>
      exact ((s.acts_compensate task worker vars error).grows given).trans (grows_finishAction _ action)

/-- A move brings up what comes of registrations and leases, if its own leases are counted in. -/
theorem Sourced.step (sourced : s.Sourced given) (move : Move)
    (leased : ∀ registration, s.leasesFor? move = some registration →
      ∀ lease ∈ (s.leaseAsk registration).leased, given lease) : s.Grows given (s.step move).2 := by
  cases move with
  | operate kind operation => exact s.grows_operate given operation
  | setHandler type fails => exact { (Grows.refl s : s.Grows given s) with }
  | attach => exact { (Grows.refl s : s.Grows given s) with }
  | register definitionKey topic lockTimeout vars contract => exact s.grows_register given _ _ _ _ _
  | sweep => exact s.grows_sweep given
  | dispatch key => exact s.grows_dispatch key leased
  | process task =>
    rw [step_process]
    exact s.grows_process given none task
  | respond task input =>
    rw [step_respond]
    exact s.grows_respond given task input
  | fireWatchdog payload => exact s.grows_fireWatchdog given payload
  | setWorkerId worker => exact { (Grows.refl s : s.Grows given s) with }
  | setLockTimeout timeout =>
    simp only [System.step]
    split
    · next settings changed =>
      refine { (Grows.refl s : s.Grows given s) with perDefinition := ?_ }
      unfold Settings.setLockTimeout at changed
      split at changed <;> cases changed
      rfl
    · exact .refl s
  | release => exact { (Grows.refl s : s.Grows given s) with }
  | holdSweeper => exact { (Grows.refl s : s.Grows given s) with }
  | dropSweeper => exact { (Grows.refl s : s.Grows given s) with }
  | answer number kind attempt => exact sourced.endCall number kind attempt
  | start action =>
    simp only [System.step]
    split
    · next found =>
      obtain ⟨grows, stems⟩ := sourced.start found
      refine grows.trans (grows_runAction _ action stems fun a registration runs work => leased registration ?_)
      simp only [leasesFor?, found, if_true, runs, Option.bind_some, work, Work.leasesFor?]
    · exact .refl s
  | resume action =>
    simp only [System.step]
    split
    · next found =>
      obtain ⟨grows, stems⟩ := sourced.resume found
      refine grows.trans (grows_runAction _ action stems fun a registration runs work => leased registration ?_)
      simp only [leasesFor?, found, if_true, runs, Option.bind_some, work, Work.leasesFor?]
    · exact .refl s
  | wake action =>
    simp only [System.step]
    split
    · exact .refl s
    · exact (s.grows_wake action).trans (grows_note given _ _)
  | commit => exact s.grows_commit
  | runJob job => exact s.grows_runJob given job
  | passTo time => exact { (Grows.refl s : s.Grows given s) with }

end TaskLeasing.System
