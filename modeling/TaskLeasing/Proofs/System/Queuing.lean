import TaskLeasing.Proofs.System.Hosting
import TaskLeasing.Proofs.System.Passage

namespace TaskLeasing

/-- Work that the host runs asynchronously or after a delay. All other work it runs after commit. -/
def Work.isAsync : Work → Bool
  | .lease _ => true
  | .process _ => true
  | _ => false

theorem Work.isAsync_follow {work next : Work} (member : next ∈ work.follow) : next.isAsync = true := by
  cases work with
  | deferLease registration | deferRetry registration delay => rw [List.mem_singleton.mp member]; rfl
  | handOut tasks =>
    obtain ⟨task, _, rfl⟩ := List.mem_map.mp member
    rfl
  | _ => cases member

namespace System

/-- What a move leaves to be run after commit: leases for registrations, the retry of an attempt that fails in it, the
handing out of what its lease is given, and what makes up for a completion that is refused in it. -/
inductive Queues (s : System) (move : Move) : Work → Prop
  | lease {registration : Registration} (registered : registration ∈ s.registry.entries) :
      Queues s move (.deferLease registration)
  | retry {call : ProcessorCall} {task : LeasedTask} {error : ProcessorError} {work : Work}
      (answered : s.answered? move = some call) (attempt : call.subject.attempt? = some task)
      (failed : ∃ number kind, ∃ attempt : Attempt kind.Value, move = .answer number kind attempt ∧
        attempt.result = .error error)
      (retries : s.RetriesAfter task call.registration error work) : Queues s move work
  | handOut {registration : Registration} (leases : s.leasesFor? move = some registration) :
      Queues s move (.handOut (s.leaseAsk registration).leased)
  | compensation {call : ProcessorCall} {task : ExternalTask} {input : Json} {work : Work}
      (answered : s.answered? move = some call) (subject : call.subject = .respond task input)
      (makesUp : s.MakesUp call task work) : Queues s move work

/-- A part of a move that adds works of a kind to those that are to be done, and none that is delayed. -/
structure Enqueues (s after : System) (kind : Work → Prop) : Prop where
  numbered : s.host.Numbered → after.host.Numbered
  delayed : after.host.delayed = s.host.delayed
  toDo : s.host.Numbered → ∃ works, after.toDo.Perm (s.toDo ++ works) ∧ ∀ work ∈ works, kind work

variable {s middle after : System} {works : List Work} {kind : Work → Prop} {move : Move}

theorem Queues.notAsync {work : Work} (queues : s.Queues move work) : work.isAsync = false := by
  cases queues with
  | lease | handOut => rfl
  | retry _ _ _ retries =>
    obtain ⟨_, _, rfl⟩ := retries
    rfl
  | compensation _ _ makesUp =>
    obtain ⟨_, _, _, rfl⟩ := makesUp
    rfl

theorem enqueues_of_eq (host : after.host = s.host) (gate : after.gate = s.gate) : s.Enqueues after kind where
  numbered numbered := host ▸ numbered
  delayed := congrArg Host.delayed host
  toDo _ := by
    refine ⟨[], ?_, by simp⟩
    simp only [System.toDo, deferred, awaiting, host, gate, List.append_nil]
    exact .refl _

theorem Enqueues.trans (first : s.Enqueues middle kind) (second : middle.Enqueues after kind) :
    s.Enqueues after kind where
  numbered numbered := second.numbered (first.numbered numbered)
  delayed := second.delayed.trans first.delayed
  toDo numbered := by
    obtain ⟨works, early, kinds⟩ := first.toDo numbered
    obtain ⟨others, late, kinds'⟩ := second.toDo (first.numbered numbered)
    refine ⟨works ++ others, ?_, List.forall_mem_append.mpr ⟨kinds, kinds'⟩⟩
    rw [← List.append_assoc]
    exact late.trans (early.append_right others)

theorem Defers.enqueues (defers : s.Defers after works) (kinds : ∀ work ∈ works, kind work) : s.Enqueues after kind :=
  ⟨defers.numbered, defers.delayed, fun numbered => ⟨works, defers.adds.toDo numbered, kinds⟩⟩

theorem enqueues_note (s : System) (note : Note) : s.Enqueues (s.note note) kind := enqueues_of_eq rfl rfl

theorem enqueues_finishAction (s : System) (action : Nat) : s.Enqueues (s.finishAction action) kind := by
  have finished : s.Enqueues { s with host := s.host.finish action } kind :=
    ⟨fun numbered => (numbered.finish action).1, Host.finish_delayed _ _,
      fun numbered => ⟨[], by rw [List.append_nil]; exact toDo_finish numbered action, by simp⟩⟩
  rcases s.finishAction_cases action with same | ⟨next, same⟩ <;> rw [same]
  · exact finished
  · exact finished.trans (enqueues_note _ _)

theorem enqueues_finishCall (s : System) (call : ProcessorCall) : s.Enqueues (s.finishCall call) kind := by
  unfold finishCall
  cases call.action with
  | none => exact enqueues_of_eq rfl rfl
  | some action => exact s.enqueues_finishAction action

/-- No act changes what is registered. -/
theorem Acts.registry {asks : (kind : AnswerKind) → Operation kind → Prop} {allowed : Work → Prop} {counts : Prop}
    (acts : s.Acts asks allowed counts after) : after.registry = s.registry := by
  induction acts with
  | done => rfl
  | note _ _ ih => exact ih
  | count _ _ _ ih => exact ih
  | @ask t _ _ operation _ ih => exact (t.does_ask operation).registry.trans ih
  | @defer t _ label work _ ih => exact (t.does_afterCommit label work).registry.trans ih

section Told

variable (told : ∀ registration ∈ s.registry.entries, kind (.deferLease registration))
include told

/-- Whatever the engine is called for, its subscribers leave leases to be made. -/
theorem enqueues_call {kind' : AnswerKind} (operation : Operation kind') : s.Enqueues (s.call operation).2 kind := by
  obtain ⟨leases, answers⟩ := s.answers_call operation
  have advanced : s.Enqueues (s.advanced operation) kind := enqueues_of_eq rfl rfl
  refine advanced.trans (answers.defers.enqueues fun work member => ?_)
  obtain ⟨registration, among, rfl⟩ := List.mem_map.mp member
  exact told registration (answers.registered registration among)

/-- What acts leave to be done they leave after commit, beside what subscribers leave. -/
theorem Acts.enqueues {asks : (kind : AnswerKind) → Operation kind → Prop} {allowed : Work → Prop} {counts : Prop}
    (acts : s.Acts asks allowed counts after) (kinds : ∀ work, allowed work → kind work) : s.Enqueues after kind := by
  induction acts with
  | done => exact enqueues_of_eq rfl rfl
  | note _ _ ih => exact ih.trans (enqueues_note _ _)
  | count _ _ _ ih => exact ih.trans (enqueues_of_eq rfl rfl)
  | @ask t acts _ operation _ ih =>
    have told' : ∀ registration ∈ t.registry.entries, kind (.deferLease registration) := acts.registry ▸ told
    exact (ih.trans (enqueues_call told' operation)).trans (enqueues_note _ _)
  | defer _ label work permitted ih =>
    refine ih.trans ((defers_afterCommit _ label work).enqueues fun other member => ?_)
    rw [List.mem_singleton.mp member]
    exact kinds work permitted

theorem enqueues_process (action : Option Nat) (task : LeasedTask) : s.Enqueues (s.process action task).2 kind := by
  unfold System.process
  simp only
  split
  · have raised (message details : String) :
        s.Enqueues (s.raiseIncident task.id s.settings.workerId message details) kind :=
      Acts.enqueues told (s.acts_raiseIncident _ _ _ _) fun _ => False.elim
    have concluded (t : System) (outcome : Outcome) : t.Enqueues (t.conclude task outcome).2 kind :=
      enqueues_of_eq rfl rfl
    exact (raised _ _).trans (concluded _ _)
  · exact enqueues_of_eq rfl rfl

theorem enqueues_respond (task : String) (input : Json) : s.Enqueues (s.respond task input).2 kind := by
  have asked : s.Enqueues (s.ask (.findTask task)).2 kind := (enqueues_call told _).trans (enqueues_note _ _)
  unfold System.respond
  simp only
  split
  · next reason t result =>
    rw [result] at asked
    exact asked
  · next found t result =>
    rw [result] at asked
    split
    · exact asked
    · split
      · exact asked
      · split
        · exact asked
        · exact asked.trans (enqueues_of_eq rfl rfl)

theorem enqueues_runJob (job : String) : s.Enqueues (s.runJob job) kind := by
  have marked (t : System) (enqueues : s.Enqueues t kind) :
      s.Enqueues { t with engine := t.engine.markExecuted job } kind := enqueues.trans (enqueues_of_eq rfl rfl)
  have still : s.Enqueues s kind := enqueues_of_eq rfl rfl
  unfold System.runJob
  split
  · exact still
  · refine marked _ ?_
    split
    · split
      · exact Acts.enqueues told (s.acts_fireWatchdog _) fun _ => False.elim
      · exact still
    · exact s.enqueues_note _
    · exact still

theorem enqueues_operate {kind' : AnswerKind} (operation : Operation kind') :
    s.Enqueues (s.operate operation).2 kind := by
  cases operation with
  | scheduleJob due payload =>
    have asked : s.Enqueues (s.ask (.scheduleJob due payload)).2 kind :=
      (enqueues_call told _).trans (enqueues_note _ _)
    unfold System.operate
    simp only
    split
    · next job t result =>
      rw [result] at asked
      exact asked.trans (enqueues_note _ _)
    · next reason t result =>
      rw [result] at asked
      exact asked
  | _ => exact enqueues_call told _

/-- An action that runs adds what follows its work, and beside it what the work itself leaves to be done. -/
theorem enqueues_runAction {action : Nat} {a : HostAction Work} (numbered : s.host.Numbered)
    (runs : s.host.running? action = some a)
    (given : ∀ registration, a.work.leasesFor? = some registration →
      kind (.handOut (s.leaseAsk registration).leased)) :
    ∃ works, (s.runAction action).2.toDo.Perm (s.toDo ++ (a.work.follow ++ works)) ∧ ∀ work ∈ works, kind work := by
  have follows {t : System} {begun : List Work} (adds : s.Adds t begun []) :
      ∃ works, (t.finishAction action).toDo.Perm (s.toDo ++ (begun ++ works)) ∧ ∀ work ∈ works, kind work := by
    refine ⟨[], ?_, by simp⟩
    rw [List.append_nil]
    exact (adds.then (t.adds_finishAction action)).toDo numbered
  have adds {t : System} (enqueues : s.Enqueues t kind) :
      ∃ works, t.toDo.Perm (s.toDo ++ ([] ++ works)) ∧ ∀ work ∈ works, kind work := enqueues.toDo numbered
  unfold System.runAction
  simp only [runs]
  cases work : a.work with
  | deferLease registration => exact follows (s.adds_runAsync _ _)
  | lease registration =>
    have handOut := given registration (by rw [work]; rfl)
    have leased := Acts.enqueues told (s.acts_leaseLogged registration) fun _ same => same ▸ handOut
    exact adds (leased.trans (enqueues_finishAction _ action))
  | deferRetry registration delay => exact follows (s.adds_runAfter _ _ _)
  | handOut tasks => exact follows (s.adds_runAsyncs _ tasks)
  | process task =>
    have processed := enqueues_process told (some action) task
    simp only
    split
    · next outcome t result =>
      rw [result] at processed
      exact adds (processed.trans (t.enqueues_finishAction action))
    · next call t result =>
      rw [result] at processed
      exact adds processed
  | compensate task worker vars error =>
    have made := Acts.enqueues told (s.acts_compensate task worker vars error) fun _ => False.elim
    exact adds (made.trans (enqueues_finishAction _ action))

end Told

/-- An answer leaves the retry or the compensation to be made that it calls for. -/
theorem enqueues_endCall (s : System) (number : Nat) (kind : CallKind) (attempt : Attempt kind.Value) :
    s.Enqueues (s.endCall number kind attempt).2 (s.Queues (.answer number kind attempt)) := by
  cases answered : s.answered? (.answer number kind attempt) with
  | none =>
    rw [endCall_unanswered answered]
    exact enqueues_of_eq rfl rfl
  | some call =>
    obtain ⟨pending, same⟩ := Option.filter_eq_some_iff.mp answered
    have asked : kind = call.subject.kind := (of_decide_eq_true same).symm
    have dropped {queues : Work → Prop} : s.Enqueues (s.dropCall number) queues := enqueues_of_eq rfl rfl
    have told {move : Move} : ∀ registration ∈ (s.dropCall number).registry.entries,
        s.Queues move (.deferLease registration) := fun _ registered => .lease registered
    cases subject : call.subject with
    | process task =>
      obtain rfl : kind = .process := by rw [asked, subject]; rfl
      rw [endCall_process pending subject attempt]
      refine dropped.trans ((Acts.enqueues told ((s.dropCall number).acts_endProcess call task attempt) ?_).trans
        (enqueues_finishCall _ call))
      rintro work ⟨error, result, retries⟩
      exact .retry answered (by rw [subject]; rfl) ⟨number, .process, attempt, rfl, result⟩ retries
    | request task =>
      obtain rfl : kind = .request := by rw [asked, subject]; rfl
      rw [endCall_request pending subject attempt]
      refine dropped.trans ((Acts.enqueues told ((s.dropCall number).acts_endRequest call task attempt) ?_).trans
        (enqueues_finishCall _ call))
      rintro work ⟨error, result, retries⟩
      exact .retry answered (by rw [subject]; rfl) ⟨number, .request, attempt, rfl, result⟩ retries
    | respond task input =>
      obtain rfl : kind = .respond := by rw [asked, subject]; rfl
      rw [endCall_respond pending subject attempt]
      exact dropped.trans ((Acts.enqueues told ((s.dropCall number).acts_endRespond_refused call task attempt)
        fun _ makesUp => .compensation answered subject makesUp).trans (enqueues_finishCall _ call))

/-- An action that cannot be taken up leaves what is to be done to be done. -/
theorem toDo_untaken (numbered : s.host.Numbered) {action : Nat} (up : move = .start action ∨ move = .resume action)
    (untaken : s.taken? move = none) : (s.step move).2.toDo.Perm s.toDo := by
  rcases up with rfl | rfl
  · by_cases found : (s.host.queued.any fun a => a.number = action) = true
    · obtain ⟨a, member, number⟩ := List.any_eq_true.mp found
      obtain rfl : a.number = action := by simpa using number
      rcases toDo_start numbered member with ⟨runs, _⟩ | ⟨waits, toDo⟩
      · simp only [taken?, found, if_true, runs, Option.map_some] at untaken
        cases untaken
      · simp only [System.step, found, if_true, System.runAction, waits]
        exact toDo.symm
    · simp only [System.step, if_neg found]
      exact .refl _
  · by_cases found : (s.host.granted.any fun a => a.number = action) = true
    · obtain ⟨a, member, number⟩ := List.any_eq_true.mp found
      obtain rfl : a.number = action := by simpa using number
      obtain ⟨runs, _⟩ := toDo_resume numbered member
      simp only [taken?, found, if_true, runs, Option.map_some] at untaken
      cases untaken
    · simp only [System.step, if_neg found]
      exact .refl _

theorem enqueues_commit (s : System) : s.Enqueues s.commit.2 kind where
  numbered := s.does_commit.numbered
  delayed := by
    have submitted (held : List (String × Work)) (t : System) :
        (held.foldl (fun s (entry : String × Work) => s.submit entry.1 false entry.2) t).host.delayed =
          t.host.delayed := by
      induction held generalizing t with
      | nil => rfl
      | cons first rest ih => exact ih (t.submit first.1 false first.2)
    unfold commit
    split
    · rfl
    · next held _ => exact submitted held { s with gate := some [] }
  toDo _ := ⟨[], by rw [List.append_nil]; exact s.toDo_commit, by simp⟩

/-- A move in which the host has no turn leaves works to be done after commit. -/
theorem enqueues_step (s : System) {move : Move}
    (apart : ∀ action, move ≠ .start action ∧ move ≠ .resume action ∧ move ≠ .wake action) :
    s.Enqueues (s.step move).2 (s.Queues move) := by
  have told {move : Move} : ∀ registration ∈ s.registry.entries, s.Queues move (.deferLease registration) :=
    fun _ registered => .lease registered
  cases move with
  | operate kind operation => exact enqueues_operate told operation
  | register definitionKey topic lockTimeout vars contract =>
    change s.Enqueues (s.register definitionKey topic lockTimeout vars contract).2 _
    unfold System.register
    split <;> exact enqueues_of_eq rfl rfl
  | sweep => exact Acts.enqueues told s.acts_sweep fun _ ⟨_, registered, lease⟩ => lease ▸ .lease registered
  | dispatch key =>
    change s.Enqueues (s.dispatch key).2 _
    unfold System.dispatch
    split
    · exact enqueues_of_eq rfl rfl
    · next registration found =>
      exact Acts.enqueues told (s.acts_leaseNow registration) fun _ handOut => handOut ▸ .handOut found
  | process task =>
    rw [step_process]
    exact enqueues_process told none task
  | respond task input =>
    rw [step_respond]
    exact enqueues_respond told task input
  | fireWatchdog payload => exact Acts.enqueues told (s.acts_fireWatchdog payload) fun _ => False.elim
  | setLockTimeout timeout =>
    simp only [System.step]
    split <;> exact enqueues_of_eq rfl rfl
  | answer number kind attempt => exact s.enqueues_endCall number kind attempt
  | start action => exact absurd rfl (apart action).1
  | resume action => exact absurd rfl (apart action).2.1
  | wake action => exact absurd rfl (apart action).2.2
  | commit => exact s.enqueues_commit
  | runJob job => exact enqueues_runJob told job
  | _ => exact enqueues_of_eq rfl rfl

/-- Works that a move adds to those that are to be done follow the work that it takes up, or are queued for after
commit. -/
theorem queues_step (numbered : s.host.Numbered) (move : Move) : ∃ works,
    ((s.step move).2.toDo ++ (s.taken? move).toList).Perm
      (s.toDo ++ ((s.taken? move).toList.flatMap Work.follow ++ works)) ∧ ∀ work ∈ works, s.Queues move work := by
  have apart (untaken : s.taken? move = none)
      (toDo : ∃ works, (s.step move).2.toDo.Perm (s.toDo ++ works) ∧ ∀ work ∈ works, s.Queues move work) : ∃ works,
      ((s.step move).2.toDo ++ (s.taken? move).toList).Perm
        (s.toDo ++ ((s.taken? move).toList.flatMap Work.follow ++ works)) ∧ ∀ work ∈ works, s.Queues move work := by
    obtain ⟨works, toDo, kinds⟩ := toDo
    rw [untaken]
    exact ⟨works, by simpa using toDo, kinds⟩
  have still (untaken : s.taken? move = none) (toDo : (s.step move).2.toDo.Perm s.toDo) :=
    apart untaken ⟨[], by rwa [List.append_nil], by simp⟩
  have takes {action : Nat} (up : move = .start action ∨ move = .resume action) : ∃ works,
      ((s.step move).2.toDo ++ (s.taken? move).toList).Perm
        (s.toDo ++ ((s.taken? move).toList.flatMap Work.follow ++ works)) ∧ ∀ work ∈ works, s.Queues move work := by
    cases taken : s.taken? move with
    | none =>
      have waits := still taken (toDo_untaken numbered up taken)
      rwa [taken] at waits
    | some work =>
      obtain ⟨host, a, rfl, numbered, runs, toDo, stepped⟩ := taken?_step numbered taken
      have told : ∀ registration ∈ s.registry.entries, s.Queues move (.deferLease registration) :=
        fun _ registered => .lease registered
      have given : ∀ registration, a.work.leasesFor? = some registration →
          s.Queues move (.handOut (s.leaseAsk registration).leased) :=
        fun _ own => .handOut ((leasesFor?_taken taken).trans own)
      obtain ⟨works, ran, kinds⟩ := enqueues_runAction (s := { s with host := host }) told numbered runs given
      refine ⟨works, ?_, kinds⟩
      rw [stepped, Option.toList_some, List.flatMap_singleton]
      refine (ran.append_right [a.work]).trans (.trans ?_ (toDo.symm.append_right _))
      exact List.perm_append_singleton _ _
  cases move with
  | start action => exact takes (.inl rfl)
  | resume action => exact takes (.inr rfl)
  | wake action =>
    refine still rfl ?_
    simp only [System.step]
    split
    · exact .refl _
    · exact toDo_wake numbered action
  | _ => exact apart rfl ((s.enqueues_step (by simp)).toDo numbered)

end System

end TaskLeasing
