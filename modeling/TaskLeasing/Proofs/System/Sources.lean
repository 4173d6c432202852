import TaskLeasing.Proofs.Registry
import TaskLeasing.Proofs.System.Acts
import TaskLeasing.Proofs.System.Agenda
import TaskLeasing.Proofs.System.Conduct

namespace TaskLeasing

/-- Work that comes of registrations, or of tasks that were given to the dispatcher to be processed. -/
def Work.StemsFrom (registry : Registry) (given : LeasedTask → Prop) : Work → Prop
  | .deferLease registration => registration ∈ registry.entries
  | .lease registration => registration ∈ registry.entries
  | .deferRetry registration _ => registration ∈ registry.entries
  | .handOut tasks => ∀ task ∈ tasks, given task
  | .process task => given task
  | .compensate .. => True

/-- What comes up in a part of a move comes of registrations, which only grow in number, and of the tasks that
were given. -/
structure System.Grows (s : System) (given : LeasedTask → Prop) (after : System) : Prop where
  perDefinition : after.settings.leasePerDefinition = s.settings.leasePerDefinition
  entries : ∀ entry ∈ s.registry.entries, entry ∈ after.registry.entries
  distinct : s.registry.Distinct → after.registry.Distinct
  numbered : s.host.Numbered → after.host.Numbered
  calls : ∀ call ∈ after.calls, call ∈ s.calls ∨ call.registration ∈ after.registry.entries
  works : s.host.Numbered → ∀ work ∈ after.toDo, work ∈ s.toDo ∨ work.StemsFrom after.registry given

/-- A system in which all that is to be done and all that goes on comes of registrations and of the tasks that were
given. -/
structure System.Sourced (s : System) (given : LeasedTask → Prop) : Prop where
  numbered : s.host.Numbered
  distinct : s.registry.Distinct
  calls : ∀ call ∈ s.calls, call.registration ∈ s.registry.entries
  works : ∀ work ∈ s.toDo, work.StemsFrom s.registry given

theorem Work.StemsFrom.mono {registry more : Registry} {given others : LeasedTask → Prop} {work : Work}
    (stems : work.StemsFrom registry given) (entries : ∀ entry ∈ registry.entries, entry ∈ more.entries)
    (wider : ∀ task, given task → others task) : work.StemsFrom more others := by
  cases work with
  | deferLease registration => exact entries _ stems
  | lease registration => exact entries _ stems
  | deferRetry registration delay => exact entries _ stems
  | handOut tasks => exact fun task member => wider task (stems task member)
  | process task => exact wider task stems
  | compensate => trivial

namespace System

variable {s middle after : System} {given others : LeasedTask → Prop}

theorem Sourced.mono (sourced : s.Sourced given) (wider : ∀ task, given task → others task) :
    s.Sourced others :=
  { sourced with works := fun work member => (sourced.works work member).mono (fun _ entry => entry) wider }

/-- What was sourced stays so as it grows. -/
theorem Sourced.grow (sourced : s.Sourced given) (grows : s.Grows given after) : after.Sourced given where
  numbered := grows.numbered sourced.numbered
  distinct := grows.distinct sourced.distinct
  calls := by
    intro call member
    rcases grows.calls call member with old | new
    · exact grows.entries _ (sourced.calls call old)
    · exact new
  works := by
    intro work member
    rcases grows.works sourced.numbered work member with old | new
    · exact (sourced.works work old).mono grows.entries fun _ given => given
    · exact new

namespace Grows

theorem refl (s : System) : s.Grows given s :=
  ⟨rfl, fun _ entry => entry, id, id, fun _ call => .inl call, fun _ _ work => .inl work⟩

theorem trans (first : s.Grows given middle) (second : middle.Grows given after) : s.Grows given after where
  perDefinition := second.perDefinition.trans first.perDefinition
  entries := fun entry member => second.entries entry (first.entries entry member)
  distinct := fun distinct => second.distinct (first.distinct distinct)
  numbered := fun numbered => second.numbered (first.numbered numbered)
  calls := by
    intro call member
    rcases second.calls call member with early | late
    · exact (first.calls call early).imp_right (second.entries _)
    · exact .inr late
  works := by
    intro numbered work member
    rcases second.works (first.numbered numbered) work member with early | late
    · exact (first.works numbered work early).imp_right fun stems => stems.mono second.entries fun _ given => given
    · exact .inr late

end Grows

/-- Works that are deferred may be of such a kind. -/
theorem Defers.grows {works : List Work} (defers : s.Defers after works)
    (stems : ∀ work ∈ works, work.StemsFrom s.registry given) : s.Grows given after where
  perDefinition := congrArg Settings.leasePerDefinition defers.settings
  entries := defers.registry ▸ fun _ entry => entry
  distinct := defers.registry ▸ id
  numbered := defers.numbered
  calls := fun call member => .inl (defers.calls ▸ member)
  works := by
    intro _ work member
    simp only [toDo, defers.deferred, defers.awaiting, defers.delayed, List.mem_append] at member ⊢
    rcases member with (old | new) | other
    · exact .inl (.inl old)
    · rw [defers.registry]
      exact .inr (stems work new)
    · exact .inl (.inr other)

variable (given)

theorem grows_note (s : System) (note : Note) : s.Grows given (s.note note) := { Grows.refl s with }

theorem grows_log (s : System) (record : LogRecord) : s.Grows given (s.log record) := s.grows_note given _

theorem grows_count (s : System) (counters : Counters) : s.Grows given { s with counters := counters } :=
  { Grows.refl s with }

theorem grows_afterCommit (s : System) (label : String) (work : Work) (stems : work.StemsFrom s.registry given) :
    s.Grows given (s.afterCommit label work) :=
  (s.defers_afterCommit label work).grows fun _ member => List.mem_singleton.mp member ▸ stems

/-- Subscribers answer to a call of the engine by leases for their registrations. -/
theorem grows_call (s : System) {kind : AnswerKind} (operation : Operation kind) :
    s.Grows given (s.call operation).2 := by
  have advanced : s.Grows given (s.advanced operation) := { Grows.refl s with }
  obtain ⟨leases, answers⟩ := s.answers_call operation
  refine advanced.trans (answers.defers.grows fun work member => ?_)
  obtain ⟨registration, among, rfl⟩ := List.mem_map.mp member
  exact answers.registered registration among

theorem grows_ask (s : System) {kind : AnswerKind} (operation : Operation kind) :
    s.Grows given (s.ask operation).2 := (s.grows_call given operation).trans (grows_note given _ _)

variable {given} in
/-- Acts that defer work of such a kind make a system grow. -/
theorem Acts.grows {asks : (kind : AnswerKind) → Operation kind → Prop} {works : Work → Prop} {counts : Prop}
    (acts : s.Acts asks works counts after) (stems : ∀ work, works work → work.StemsFrom s.registry given) :
    s.Grows given after := by
  induction acts with
  | done => exact .refl s
  | note _ _ ih => exact ih.trans (grows_note given _ _)
  | count _ _ counters ih => exact ih.trans (grows_count given _ counters)
  | ask _ _ ih => exact ih.trans (grows_ask given _ _)
  | defer _ label work allowed ih =>
    have still := (stems work allowed).mono ih.entries fun _ => id
    exact ih.trans (grows_afterCommit given _ label work still)

theorem ActsTamely.grows (acts : s.ActsTamely after) : s.Grows given after := Acts.grows acts fun _ => False.elim

theorem grows_settleError (s : System) (task : LeasedTask) {registration : Registration} (worker : String)
    (error : ProcessorError) (registered : registration ∈ s.registry.entries) :
    s.Grows given (s.settleError task registration worker error).2 :=
  (s.acts_settleError task registration worker error).grows fun work retries => by
    cases work with
    | deferRetry other delay => exact (show other = registration from retries) ▸ registered
    | _ => cases retries

theorem grows_conclude (s : System) (task : LeasedTask) (outcome : Outcome) :
    s.Grows given (s.conclude task outcome).2 := (s.grows_count given _).trans (grows_log given _ _)

theorem grows_endProcess (s : System) (call : ProcessorCall) (task : LeasedTask) (attempt : Attempt Variables)
    (registered : call.registration ∈ s.registry.entries) : s.Grows given (s.endProcess call task attempt).2 := by
  unfold System.endProcess
  refine Grows.trans ?_ (grows_conclude given _ task _)
  split
  · next vars _ =>
    have asked := s.grows_ask given (.complete task.id call.worker vars)
    split
    · next value t result =>
      rw [result] at asked
      exact asked
    · next refusal t result =>
      rw [result] at asked
      exact asked.trans ((t.acts_raiseIncident _ _ _ _).grows given)
  · next error _ => exact s.grows_settleError given task call.worker error registered

theorem grows_endRequest (s : System) (call : ProcessorCall) (task : LeasedTask)
    (attempt : Attempt (Option Instant)) (registered : call.registration ∈ s.registry.entries) :
    s.Grows given (s.endRequest call task attempt).2 := by
  unfold System.endRequest
  refine Grows.trans ?_ (grows_conclude given _ task _)
  split
  · exact (s.acts_armWatchdog task _ _).grows given
  · next error _ => exact s.grows_settleError given task call.worker error registered

theorem grows_endRespond (s : System) (call : ProcessorCall) (task : ExternalTask)
    (attempt : Attempt (Json × Variables)) : s.Grows given (s.endRespond call task attempt).2 :=
  (s.acts_endRespond call task attempt).grows fun work compensates => by
    cases work with
    | compensate => trivial
    | _ => cases compensates

theorem grows_fireWatchdog (s : System) (payload : String) : s.Grows given (s.fireWatchdog payload).2 :=
  (s.acts_fireWatchdog payload).grows fun _ => False.elim

theorem grows_logTasks (s : System) (operation status : String) (tasks : List LeasedTask) :
    s.Grows given (tasks.foldl (fun s task => s.logTask operation task status) s) := by
  induction tasks generalizing s with
  | nil => exact .refl s
  | cons first rest ih => exact (s.grows_log given _).trans (ih (s.logTask operation first status))

variable {given} in
/-- What is leased is handed out. -/
theorem grows_leaseNow (s : System) (registration : Registration)
    (leased : ∀ lease ∈ (s.leaseAsk registration).leased, given lease) :
    s.Grows given (s.leaseNow registration).2 := by
  have asked := s.grows_ask given (.lease (s.leaseRequest registration))
  unfold leaseAsk at leased
  unfold System.leaseNow
  split
  · next reason t result =>
    rw [result] at asked
    exact asked
  · next t result =>
    rw [result] at asked
    exact asked
  · next tasks t _ result =>
    rw [result] at asked leased
    exact ((asked.trans (t.grows_count given _)).trans (grows_logTasks given _ _ _ tasks)).trans
      (grows_afterCommit given _ "process" _ leased)

variable {given} in
theorem grows_leaseLogged (s : System) (registration : Registration)
    (leased : ∀ lease ∈ (s.leaseAsk registration).leased, given lease) :
    s.Grows given (s.leaseLogged registration) := by
  have done := s.grows_leaseNow registration leased
  unfold System.leaseLogged
  split
  · next number t result =>
    rw [result] at done
    exact done
  · next reason t result =>
    rw [result] at done
    exact (done.trans (t.grows_count given _)).trans (grows_log given _ _)

variable {given} in
theorem grows_dispatch (s : System) (key : RegistrationKey)
    (leased : ∀ registration, s.registry.lookup key = some registration →
      ∀ lease ∈ (s.leaseAsk registration).leased, given lease) : s.Grows given (s.dispatch key).2 := by
  unfold System.dispatch
  split
  · exact .refl s
  · next registration found => exact s.grows_leaseNow registration (leased registration found)

theorem grows_sweep (s : System) : s.Grows given s.sweep.2 :=
  s.acts_sweep.grows fun _ ⟨_, registered, leases⟩ => leases ▸ registered

theorem grows_register (s : System) (definitionKey topic : String) (lockTimeout : Option Span)
    (vars : VariableScope) (contract : Contract) :
    s.Grows given (s.register definitionKey topic lockTimeout vars contract).2 := by
  unfold System.register
  split
  · next entry registry registered =>
    have amended : s.Grows given { s with registry := registry } :=
      ⟨rfl, Registry.register_grows registered, fun distinct => distinct.register registered, id,
        fun _ call => .inl call, fun _ _ work => .inl work⟩
    exact amended.trans (grows_log given _ _)
  · exact s.grows_log given _
  · exact .refl s

theorem grows_operate (s : System) {kind : AnswerKind} (operation : Operation kind) :
    s.Grows given (s.operate operation).2 := by
  cases operation with
  | scheduleJob due payload =>
    have asked := s.grows_ask given (.scheduleJob due payload)
    unfold System.operate
    simp only
    split
    · next job t result =>
      rw [result] at asked
      exact asked.trans (t.grows_note given _)
    · next reason t result =>
      rw [result] at asked
      exact asked
  | _ => exact s.grows_call given _

theorem grows_runJob (s : System) (job : String) : s.Grows given (s.runJob job) := by
  have marked (t : System) (grows : s.Grows given t) :
      s.Grows given { t with engine := t.engine.markExecuted job } := { grows with }
  unfold System.runJob
  split
  · exact .refl s
  · refine marked _ ?_
    split
    · split
      · exact s.grows_fireWatchdog given _
      · exact .refl s
    · exact s.grows_note given _
    · exact .refl s

/-- A processor is called for a registration. -/
theorem grows_callProcessor (s : System) (action : Option Nat) {registration : Registration} (worker : String)
    (subject : CallSubject) (registered : registration ∈ s.registry.entries) :
    s.Grows given (s.callProcessor action registration worker subject).2 :=
  { Grows.refl s with
    calls := by
      intro call member
      rcases List.mem_append.mp member with old | new
      · exact .inl old
      · rw [List.mem_singleton.mp new]
        exact .inr registered }

theorem grows_process (s : System) (action : Option Nat) (task : LeasedTask) :
    s.Grows given (s.process action task).2 := by
  unfold System.process
  simp only
  split
  · exact ((s.acts_raiseIncident _ _ _ _).grows given).trans (grows_conclude given _ _ _)
  · next registration found =>
    exact s.grows_callProcessor given action _ _ (List.mem_of_find?_eq_some found)

theorem grows_respond (s : System) (id : String) (input : Json) : s.Grows given (s.respond id input).2 := by
  have asked := s.grows_ask given (.findTask id)
  unfold System.respond
  simp only
  split
  · next reason t result =>
    rw [result] at asked
    exact asked
  · next open? t result =>
    rw [result] at asked
    split
    · exact asked
    · split
      · exact asked
      · next registration found =>
        split
        · exact asked
        · exact asked.trans (t.grows_callProcessor given none _ _ (List.mem_of_find?_eq_some found))

end System

end TaskLeasing
