import TaskLeasing.Proofs.System.Sourcing
import TaskLeasing.Proofs.System.Trying

namespace TaskLeasing

/-- What comes at once of work that the host takes up, apart from what it asks the engine. -/
def Work.follow : Work → List Work
  | .deferLease registration => [.lease registration]
  | .deferRetry registration _ => [.lease registration]
  | .handOut tasks => tasks.map .process
  | _ => []

/-- The leased task whose processing work begins. -/
def Work.begun : Work → List LeasedTask
  | .process task => [task]
  | _ => []

namespace System

/-- The work that a move has the host take up. An action that has to wait for a permit is not taken up yet. -/
def taken? (s : System) : Move → Option Work
  | .start action =>
    if s.host.queued.any fun a => a.number = action then
      ((s.host.start action).running? action).map HostAction.work
    else none
  | .resume action =>
    if s.host.granted.any fun a => a.number = action then
      ((s.host.resume action).running? action).map HostAction.work
    else none
  | _ => none

/-- The call that a move answers, if it is an answer that the call asks for. -/
def answered? (s : System) : Move → Option ProcessorCall
  | .answer number kind _ =>
    (s.calls.find? fun call => call.number = number).filter fun call => call.subject.kind = kind
  | _ => none

/-- The tasks that the dispatcher is given by a move's lease. -/
def leasedIn (s : System) (move : Move) : List LeasedTask :=
  (s.leasesFor? move).elim [] fun registration => (s.leaseAsk registration).leased

/-- A part of a move that adds works to those that are to be done, and calls to those that go on. -/
structure Adds (s after : System) (works : List Work) (begun : List ProcessorCall) : Prop where
  numbered : s.host.Numbered → after.host.Numbered
  toDo : s.host.Numbered → after.toDo.Perm (s.toDo ++ works)
  calls : after.calls = s.calls ++ begun

variable {s middle after : System} {works others : List Work} {begun more : List ProcessorCall}

/-- Work that is taken up is that of an action that was queued, or has been granted a permit. -/
theorem taken?_cases (numbered : s.host.Numbered) {move : Move} {work : Work} (taken : s.taken? move = some work) :
    ∃ a : HostAction Work, a.work = work ∧
      (move = .start a.number ∧ a ∈ s.host.queued ∧ (s.host.start a.number).running? a.number = some a ∨
        move = .resume a.number ∧ a ∈ s.host.granted) := by
  cases move with
  | start action =>
    simp only [taken?] at taken
    split at taken
    · next found =>
      obtain ⟨a, member, number⟩ := List.any_eq_true.mp found
      obtain rfl : a.number = action := by simpa using number
      obtain ⟨_, _, _, _, ⟨_, runs⟩ | ⟨_, waits⟩⟩ := numbered.start member
      · rw [runs, Option.map_some, Option.some.injEq] at taken
        exact ⟨a, taken, .inl ⟨rfl, member, runs⟩⟩
      · rw [waits] at taken
        cases taken
    · cases taken
  | resume action =>
    simp only [taken?] at taken
    split at taken
    · next found =>
      obtain ⟨a, member, number⟩ := List.any_eq_true.mp found
      obtain rfl : a.number = action := by simpa using number
      obtain ⟨_, _, _, _, _, runs⟩ := numbered.resume member
      rw [runs, Option.map_some, Option.some.injEq] at taken
      exact ⟨a, taken, .inr ⟨rfl, member⟩⟩
    · cases taken
  | _ => cases taken

/-- A move that takes work up runs an action that was to be done. -/
theorem taken?_step (numbered : s.host.Numbered) {move : Move} {work : Work} (taken : s.taken? move = some work) :
    ∃ (host : Host Work) (a : HostAction Work), a.work = work ∧ host.Numbered ∧ host.running? a.number = some a ∧
      s.toDo.Perm (work :: System.toDo { s with host := host }) ∧
        s.step move = System.runAction { s with host := host } a.number := by
  obtain ⟨a, rfl, ⟨rfl, member, runs⟩ | ⟨rfl, member⟩⟩ := taken?_cases numbered taken
  · have found : (s.host.queued.any fun other => other.number = a.number) = true :=
      List.any_eq_true.mpr ⟨a, member, by simp⟩
    rcases toDo_start numbered member with ⟨_, toDo⟩ | ⟨waits, _⟩
    · exact ⟨_, a, rfl, (numbered.start member).1, runs, toDo, by simp only [System.step, found, if_true]⟩
    · rw [waits] at runs
      cases runs
  · have found : (s.host.granted.any fun other => other.number = a.number) = true :=
      List.any_eq_true.mpr ⟨a, member, by simp⟩
    obtain ⟨runs, toDo⟩ := toDo_resume numbered member
    exact ⟨_, a, rfl, (numbered.resume member).1, runs, toDo, by simp only [System.step, found, if_true]⟩

/-- Work that is taken up was to be done. -/
theorem taken?_mem (numbered : s.host.Numbered) {move : Move} {work : Work} (taken : s.taken? move = some work) :
    work ∈ s.toDo := by
  obtain ⟨_, _, _, _, _, toDo, _⟩ := taken?_step numbered taken
  exact toDo.mem_iff.mpr (List.mem_cons_self ..)

theorem Adds.refl (s : System) : s.Adds s [] [] where
  numbered := id
  toDo _ := by rw [List.append_nil]
  calls := (List.append_nil _).symm

theorem Adds.trans (first : s.Adds middle works begun) (second : middle.Adds after others more) :
    s.Adds after (works ++ others) (begun ++ more) where
  numbered numbered := second.numbered (first.numbered numbered)
  toDo numbered := by
    rw [← List.append_assoc]
    exact (second.toDo (first.numbered numbered)).trans ((first.toDo numbered).append_right others)
  calls := by rw [second.calls, first.calls, List.append_assoc]

/-- What adds nothing may follow. -/
theorem Adds.then (first : s.Adds middle works begun) (second : middle.Adds after [] []) :
    s.Adds after works begun := by
  simpa only [List.append_nil] using first.trans second

/-- What adds nothing may go before. -/
theorem Adds.of_adds (first : s.Adds middle [] []) (second : middle.Adds after works begun) :
    s.Adds after works begun := first.trans second

theorem adds_of_eq (host : after.host = s.host) (gate : after.gate = s.gate) (calls : after.calls = s.calls) :
    s.Adds after [] [] where
  numbered numbered := host ▸ numbered
  toDo _ := by
    simp only [toDo, deferred, awaiting, host, gate, List.append_nil]
    exact .refl _
  calls := by rw [calls, List.append_nil]

theorem Defers.adds (defers : s.Defers after works) : s.Adds after works [] where
  numbered := defers.numbered
  toDo _ := by
    simp only [toDo, defers.deferred, defers.awaiting, defers.delayed, List.append_assoc]
    rw [← List.append_assoc s.awaiting]
    exact List.perm_append_comm.append_left _
  calls := by rw [defers.calls, List.append_nil]

theorem adds_note (s : System) (note : Note) : s.Adds (s.note note) [] [] := adds_of_eq rfl rfl rfl

theorem adds_log (s : System) (record : LogRecord) : s.Adds (s.log record) [] [] := s.adds_note _

theorem adds_count (s : System) (counters : Counters) : s.Adds { s with counters := counters } [] [] :=
  adds_of_eq rfl rfl rfl

theorem adds_afterCommit (s : System) (label : String) (work : Work) :
    s.Adds (s.afterCommit label work) [work] [] := (s.defers_afterCommit label work).adds

/-- Subscribers of the engine leave leases to be made. -/
theorem adds_call (s : System) {kind : AnswerKind} (operation : Operation kind) :
    ∃ leases : List Registration, s.Adds (s.call operation).2 (leases.map .deferLease) [] := by
  obtain ⟨leases, answers⟩ := s.answers_call operation
  have advanced : s.Adds (s.advanced operation) [] [] := adds_of_eq rfl rfl rfl
  exact ⟨leases, advanced.of_adds answers.defers.adds⟩

theorem adds_ask (s : System) {kind : AnswerKind} (operation : Operation kind) :
    ∃ leases : List Registration, s.Adds (s.ask operation).2 (leases.map .deferLease) [] := by
  obtain ⟨leases, called⟩ := s.adds_call operation
  exact ⟨leases, called.then (adds_note _ _)⟩

/-- Works of a part of a move that hand out tasks given by a lease, if any, and compensate only where that is
allowed. -/
def Sorted (works : List Work) (leases : List LeasedTask) (compensates : Prop) : Prop :=
  works.flatMap Work.leases = leases ∧ ∀ work ∈ works, work.Compensates → compensates

theorem sorted_nil (compensates : Prop) : Sorted [] [] compensates := ⟨rfl, by simp⟩

theorem Sorted.append {first second : List LeasedTask} {compensates : Prop} (left : Sorted works first compensates)
    (right : Sorted others second compensates) : Sorted (works ++ others) (first ++ second) compensates :=
  ⟨by rw [List.flatMap_append, left.1, right.1], fun work member =>
    (List.mem_append.mp member).elim (left.2 work) (right.2 work)⟩

theorem sorted_deferLease (leases : List Registration) (compensates : Prop) :
    Sorted (leases.map .deferLease) [] compensates := by
  refine ⟨by simp [List.flatMap_map, Work.leases], fun work member allowed => ?_⟩
  obtain ⟨registration, _, rfl⟩ := List.mem_map.mp member
  cases allowed

/-- Acts that are allowed to defer no work with leased tasks in it bring up none. -/
theorem Acts.adds {asks : (kind : AnswerKind) → Operation kind → Prop} {allowed : Work → Prop} {counts : Prop}
    (acts : s.Acts asks allowed counts after) {compensates : Prop}
    (plain : ∀ work, allowed work → Sorted [work] [] compensates) :
    ∃ works, s.Adds after works [] ∧ Sorted works [] compensates := by
  induction acts with
  | done => exact ⟨[], .refl s, sorted_nil _⟩
  | note _ _ ih =>
    obtain ⟨works, adds, sorted⟩ := ih
    exact ⟨works, adds.then (adds_note _ _), sorted⟩
  | count _ _ counters ih =>
    obtain ⟨works, adds, sorted⟩ := ih
    exact ⟨works, adds.then (adds_count _ counters), sorted⟩
  | @ask t _ _ operation _ ih =>
    obtain ⟨works, adds, sorted⟩ := ih
    obtain ⟨leases, asked⟩ := t.adds_ask operation
    exact ⟨_, adds.trans asked, sorted.append (sorted_deferLease leases _)⟩
  | defer _ label work permitted ih =>
    obtain ⟨works, adds, sorted⟩ := ih
    exact ⟨_, adds.trans (adds_afterCommit _ label work), sorted.append (plain work permitted)⟩

theorem ActsTamely.adds (acts : s.ActsTamely after) (compensates : Prop) :
    ∃ works, s.Adds after works [] ∧ Sorted works [] compensates := Acts.adds acts fun _ => False.elim

/-- Work that leases again hands out no task as yet. -/
theorem sorted_retry {registration : Registration} {work : Work} (retries : work.RetriesFor registration)
    (compensates : Prop) : Sorted [work] [] compensates := by
  cases work with
  | deferRetry other delay => exact ⟨rfl, fun _ member compensates => by
      rw [List.mem_singleton.mp member] at compensates
      cases compensates⟩
  | _ => cases retries

theorem adds_conclude (s : System) (task : LeasedTask) (outcome : Outcome) :
    s.Adds (s.conclude task outcome).2 [] [] := (s.adds_count _).then (adds_log _ _)

theorem adds_endProcess (s : System) (call : ProcessorCall) (task : LeasedTask) (attempt : Attempt Variables)
    {compensates : Prop} :
    ∃ works, s.Adds (s.endProcess call task attempt).2 works [] ∧ Sorted works [] compensates := by
  have ended {t : System} (told : ∃ works, s.Adds t works [] ∧ Sorted works [] compensates) (outcome : Outcome) :
      ∃ works, s.Adds (t.conclude task outcome).2 works [] ∧ Sorted works [] compensates := by
    obtain ⟨works, adds, sorted⟩ := told
    exact ⟨works, adds.then (adds_conclude _ _ _), sorted⟩
  unfold System.endProcess
  refine ended ?_ _
  split
  · next vars _ =>
    have asked : s.Acts (fun _ _ => True) (fun _ => False) False (s.ask (.complete task.id call.worker vars)).2 :=
      Acts.done.ask trivial
    split
    · next value t result =>
      rw [result] at asked
      exact asked.adds fun _ => False.elim
    · next refusal t result =>
      rw [result] at asked
      exact (asked.tamely (fun _ _ _ => trivial) (t.acts_raiseIncident _ _ _ _)).adds fun _ => False.elim
  · next error _ =>
    exact (s.acts_settleError task call.registration call.worker error).adds fun work retries =>
      sorted_retry retries _

theorem adds_endRequest (s : System) (call : ProcessorCall) (task : LeasedTask) (attempt : Attempt (Option Instant))
    {compensates : Prop} :
    ∃ works, s.Adds (s.endRequest call task attempt).2 works [] ∧ Sorted works [] compensates := by
  have ended {t : System} (told : ∃ works, s.Adds t works [] ∧ Sorted works [] compensates) (outcome : Outcome) :
      ∃ works, s.Adds (t.conclude task outcome).2 works [] ∧ Sorted works [] compensates := by
    obtain ⟨works, adds, sorted⟩ := told
    exact ⟨works, adds.then (adds_conclude _ _ _), sorted⟩
  unfold System.endRequest
  refine ended ?_ _
  split
  · exact (s.acts_armWatchdog task _ _).adds _
  · next error _ =>
    exact (s.acts_settleError task call.registration call.worker error).adds fun work retries =>
      sorted_retry retries _

theorem adds_endRespond (s : System) (call : ProcessorCall) (task : ExternalTask)
    (attempt : Attempt (Json × Variables)) {compensates : Prop} (allowed : compensates) :
    ∃ works, s.Adds (s.endRespond call task attempt).2 works [] ∧ Sorted works [] compensates :=
  (s.acts_endRespond call task attempt).adds fun work makes => by
    cases work with
    | compensate => exact ⟨rfl, fun _ _ _ => allowed⟩
    | _ => cases makes

theorem adds_logTasks (s : System) (operation status : String) (tasks : List LeasedTask) :
    s.Adds (tasks.foldl (fun s task => s.logTask operation task status) s) [] [] := by
  induction tasks generalizing s with
  | nil => exact .refl s
  | cons first rest ih => exact (s.adds_log _).then (ih (s.logTask operation first status))

/-- Leased tasks are left to be handed out, if there are any. -/
theorem adds_leaseNow (s : System) (registration : Registration) (compensates : Prop) :
    ∃ works, s.Adds (s.leaseNow registration).2 works [] ∧
      Sorted works (s.leaseAsk registration).leased compensates := by
  have asked : s.Adds (s.ask (.lease (s.leaseRequest registration))).2 [] [] := by
    rw [ask_lease]
    exact adds_of_eq rfl rfl rfl
  unfold System.leaseNow leaseAsk
  split
  · next reason t result =>
    rw [result] at asked ⊢
    exact ⟨[], asked, sorted_nil _⟩
  · next t result =>
    rw [result] at asked ⊢
    exact ⟨[], asked, sorted_nil _⟩
  · next tasks t _ result =>
    rw [result] at asked ⊢
    refine ⟨[.handOut tasks], ?_, List.append_nil _, fun work member compensates => ?_⟩
    · exact ((asked.then (t.adds_count _)).then (adds_logTasks _ _ _ tasks)).of_adds (adds_afterCommit _ _ _)
    · rw [List.mem_singleton.mp member] at compensates
      cases compensates

theorem adds_leaseLogged (s : System) (registration : Registration) (compensates : Prop) :
    ∃ works, s.Adds (s.leaseLogged registration) works [] ∧
      Sorted works (s.leaseAsk registration).leased compensates := by
  obtain ⟨works, adds, sorted⟩ := s.adds_leaseNow registration compensates
  refine ⟨works, ?_, sorted⟩
  unfold System.leaseLogged
  split
  · next number t result =>
    rw [result] at adds
    exact adds
  · next reason t result =>
    rw [result] at adds
    exact (adds.then (adds_count t _)).then (adds_log _ _)

theorem adds_dispatch (s : System) (key : RegistrationKey) {compensates : Prop} :
    ∃ works, s.Adds (s.dispatch key).2 works [] ∧ Sorted works (s.leasedIn (.dispatch key)) compensates := by
  unfold System.dispatch leasedIn
  simp only [leasesFor?]
  cases s.registry.lookup key with
  | none => exact ⟨[], .refl s, sorted_nil _⟩
  | some registration => exact s.adds_leaseNow registration _

theorem adds_fireWatchdog (s : System) (payload : String) {compensates : Prop} :
    ∃ works, s.Adds (s.fireWatchdog payload).2 works [] ∧ Sorted works [] compensates :=
  (s.acts_fireWatchdog payload).adds fun _ => False.elim

theorem adds_runJob (s : System) (job : String) {compensates : Prop} :
    ∃ works, s.Adds (s.runJob job) works [] ∧ Sorted works [] compensates := by
  have marked (t : System) (adds : ∃ works, s.Adds t works [] ∧ Sorted works [] compensates) :
      ∃ works, s.Adds { t with engine := t.engine.markExecuted job } works [] ∧ Sorted works [] compensates := by
    obtain ⟨works, adds, sorted⟩ := adds
    exact ⟨works, adds.then (adds_of_eq rfl rfl rfl), sorted⟩
  unfold System.runJob
  split
  · exact ⟨[], .refl s, sorted_nil _⟩
  · refine marked _ ?_
    split
    · split
      · exact s.adds_fireWatchdog _
      · exact ⟨[], .refl s, sorted_nil _⟩
    · exact ⟨[], s.adds_note _, sorted_nil _⟩
    · exact ⟨[], .refl s, sorted_nil _⟩

theorem adds_register (s : System) (definitionKey topic : String) (lockTimeout : Option Span)
    (vars : VariableScope) (contract : Contract) :
    s.Adds (s.register definitionKey topic lockTimeout vars contract).2 [] [] := by
  unfold System.register
  split <;> exact adds_of_eq rfl rfl rfl

theorem adds_operate (s : System) {kind : AnswerKind} (operation : Operation kind) :
    ∃ leases : List Registration, s.Adds (s.operate operation).2 (leases.map .deferLease) [] := by
  cases operation with
  | scheduleJob due payload =>
    obtain ⟨leases, asked⟩ := s.adds_ask (.scheduleJob due payload)
    refine ⟨leases, ?_⟩
    unfold System.operate
    simp only
    split
    · next job t result =>
      rw [result] at asked
      exact asked.then (t.adds_note _)
    · next reason t result =>
      rw [result] at asked
      exact asked
  | _ => exact s.adds_call _

theorem adds_callProcessor (s : System) (action : Option Nat) (registration : Registration) (worker : String)
    (subject : CallSubject) : s.Adds (s.callProcessor action registration worker subject).2 []
      [(s.callProcessor action registration worker subject).1] where
  numbered := id
  toDo _ := by
    rw [List.append_nil]
    exact .refl _
  calls := rfl

theorem adds_process (s : System) (action : Option Nat) (task : LeasedTask) (compensates : Prop) :
    ∃ works, s.Adds (s.process action task).2 works (s.process action task).1.call?.toList ∧
      Sorted works [] compensates := by
  unfold System.process
  simp only
  split
  · obtain ⟨works, adds, sorted⟩ := (s.acts_raiseIncident task.id s.settings.workerId _ _).adds compensates
    exact ⟨works, adds.then (adds_conclude _ _ _), sorted⟩
  · exact ⟨[], s.adds_callProcessor action _ _ _, sorted_nil _⟩

theorem adds_respond (s : System) (task : String) (input : Json) {compensates : Prop} :
    ∃ works, s.Adds (s.respond task input).2 works (s.respond task input).1.call?.toList ∧
      Sorted works [] compensates := by
  obtain ⟨leases, asked⟩ := s.adds_ask (.findTask task)
  have sorted := sorted_deferLease leases compensates
  unfold System.respond
  simp only
  split
  · next reason t result =>
    rw [result] at asked
    exact ⟨_, asked, sorted⟩
  · next found t result =>
    rw [result] at asked
    split
    · exact ⟨_, asked, sorted⟩
    · split
      · exact ⟨_, asked, sorted⟩
      · split
        · exact ⟨_, asked, sorted⟩
        · refine ⟨_, ?_, sorted⟩
          rw [← List.append_nil (leases.map _)]
          exact asked.trans (t.adds_callProcessor none _ t.settings.workerId _)

theorem adds_submit (s : System) (label : String) (bounded : Bool) (work : Work) :
    s.Adds (s.submit label bounded work) [work] [] where
  numbered numbered := numbered.submit label bounded work
  toDo _ := s.toDo_submit label bounded work
  calls := (List.append_nil _).symm

theorem adds_runAsync (s : System) (label : String) (work : Work) : s.Adds (s.runAsync label work) [work] [] :=
  (s.adds_note (.runAsync label)).of_adds (adds_submit _ label true work)

theorem adds_runAsyncs (s : System) (label : String) (tasks : List LeasedTask) :
    s.Adds (tasks.foldl (fun s task => s.runAsync label (.process task)) s) (tasks.map .process) [] := by
  induction tasks generalizing s with
  | nil => exact .refl s
  | cons first rest ih => exact (s.adds_runAsync label (.process first)).trans (ih _)

theorem adds_runAfter (s : System) (label : String) (delay : Span) (work : Work) :
    s.Adds (s.runAfter label delay work) [work] [] where
  numbered numbered := numbered.defer label _ work
  toDo _ := (s.note (.runAfter label delay)).toDo_defer label _ work
  calls := (List.append_nil _).symm

theorem adds_finishAction (s : System) (action : Nat) : s.Adds (s.finishAction action) [] [] := by
  have finished : s.Adds { s with host := s.host.finish action } [] [] :=
    ⟨fun numbered => (numbered.finish action).1, fun numbered => by
      rw [List.append_nil]
      exact toDo_finish numbered action, (List.append_nil _).symm⟩
  rcases s.finishAction_cases action with same | ⟨next, same⟩ <;> rw [same]
  · exact finished
  · exact finished.then (adds_note _ _)

theorem adds_finishCall (s : System) (call : ProcessorCall) : s.Adds (s.finishCall call) [] [] := by
  unfold finishCall
  cases call.action with
  | none => exact .refl s
  | some action => exact s.adds_finishAction action

theorem adds_commit (s : System) : s.Adds s.commit.2 [] [] where
  numbered := s.does_commit.numbered
  toDo _ := by
    rw [List.append_nil]
    exact s.toDo_commit
  calls := by rw [List.append_nil, s.does_commit.calls]

/-- What a sweep leaves to be done is a lease for each registration. -/
theorem adds_sweep (s : System) : s.Adds s.sweep.2 (s.registry.entries.map .deferLease) [] := by
  have deferred (entries : List Registration) (t : System) :
      t.Adds (entries.foldl (fun s registration => s.afterCommit "fetch_and_lock" (.deferLease registration)) t)
        (entries.map .deferLease) [] := by
    induction entries generalizing t with
    | nil => exact .refl t
    | cons first rest ih => exact (t.adds_afterCommit "fetch_and_lock" (.deferLease first)).trans (ih _)
  exact deferred s.registry.entries s

/-- An action that runs brings up what follows its work. -/
theorem adds_runAction (s : System) {action : Nat} {a : HostAction Work} (runs : s.host.running? action = some a)
    (compensates : Prop) :
    ∃ works, s.Adds (s.runAction action).2 (a.work.follow ++ works) (s.runAction action).1.call?.toList ∧
      Sorted works (a.work.leasesFor?.elim [] fun registration => (s.leaseAsk registration).leased) compensates := by
  have plain {t : System} {works : List Work} (adds : s.Adds t works []) :
      s.Adds (t.finishAction action) (works ++ []) [] := by
    rw [List.append_nil]
    exact adds.then (t.adds_finishAction action)
  unfold System.runAction
  simp only [runs]
  cases work : a.work with
  | deferLease registration => exact ⟨[], plain (s.adds_runAsync _ _), sorted_nil _⟩
  | lease registration =>
    obtain ⟨works, adds, sorted⟩ := s.adds_leaseLogged registration compensates
    exact ⟨works, adds.then (adds_finishAction _ action), sorted⟩
  | deferRetry registration delay => exact ⟨[], plain (s.adds_runAfter _ _ _), sorted_nil _⟩
  | handOut tasks => exact ⟨[], plain (s.adds_runAsyncs _ tasks), sorted_nil _⟩
  | process task =>
    obtain ⟨works, adds, sorted⟩ := s.adds_process (some action) task compensates
    refine ⟨works, ?_, sorted⟩
    simp only
    split
    · next outcome t result =>
      rw [result] at adds
      exact adds.then (t.adds_finishAction action)
    · next call t result =>
      rw [result] at adds
      exact adds
  | compensate task worker vars error =>
    obtain ⟨works, adds, sorted⟩ := (s.acts_compensate task worker vars error).adds compensates
    exact ⟨works, adds.then (adds_finishAction _ action), sorted⟩

/-- An answer that no call asks for changes nothing. -/
theorem endCall_unanswered {number : Nat} {kind : CallKind} {attempt : Attempt kind.Value}
    (unanswered : s.answered? (.answer number kind attempt) = none) : (s.endCall number kind attempt).2 = s := by
  unfold System.endCall
  cases pending : s.calls.find? fun call => call.number = number with
  | none => rfl
  | some call =>
    have other : call.subject.kind ≠ kind := by
      intro same
      rw [answered?, pending, Option.filter_some, if_pos (decide_eq_true same)] at unanswered
      cases unanswered
    simp only
    split
    · next subject => exact absurd (by rw [subject]; rfl) other
    · next subject => exact absurd (by rw [subject]; rfl) other
    · next subject => exact absurd (by rw [subject]; rfl) other
    · rfl

/-- An answer leaves to be done what the end of its call comes to. -/
theorem adds_endCall (s : System) (number : Nat) (kind : CallKind) (attempt : Attempt kind.Value) :
    ∃ works, ((s.answered? (.answer number kind attempt)).elim s fun call => s.dropCall call.number).Adds
      (s.endCall number kind attempt).2 works [] ∧
        Sorted works [] (∃ call ∈ s.calls, ∃ task input, call.subject = .respond task input) := by
  cases answered : s.answered? (.answer number kind attempt) with
  | none =>
    rw [endCall_unanswered answered]
    exact ⟨[], .refl s, sorted_nil _⟩
  | some call =>
    obtain ⟨pending, same⟩ := Option.filter_eq_some_iff.mp answered
    have asked : kind = call.subject.kind := (of_decide_eq_true same).symm
    have numbered : call.number = number := by simpa using List.find?_some pending
    rw [Option.elim_some, numbered]
    cases subject : call.subject with
    | process task =>
      obtain rfl : kind = .process := by rw [asked, subject]; rfl
      rw [endCall_process pending subject attempt]
      obtain ⟨works, adds, sorted⟩ := (s.dropCall number).adds_endProcess call task attempt
      exact ⟨works, adds.then (adds_finishCall _ call), sorted⟩
    | request task =>
      obtain rfl : kind = .request := by rw [asked, subject]; rfl
      rw [endCall_request pending subject attempt]
      obtain ⟨works, adds, sorted⟩ := (s.dropCall number).adds_endRequest call task attempt
      exact ⟨works, adds.then (adds_finishCall _ call), sorted⟩
    | respond task input =>
      obtain rfl : kind = .respond := by rw [asked, subject]; rfl
      rw [endCall_respond pending subject attempt]
      have responds : ∃ call ∈ s.calls, ∃ task input, call.subject = .respond task input :=
        ⟨call, List.mem_of_find?_eq_some pending, task, input, subject⟩
      obtain ⟨works, adds, sorted⟩ := (s.dropCall number).adds_endRespond call task attempt responds
      exact ⟨works, adds.then (adds_finishCall _ call), sorted⟩

end System

end TaskLeasing
