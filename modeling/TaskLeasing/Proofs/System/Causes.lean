import TaskLeasing.Proofs.Lines
import TaskLeasing.Proofs.System.Recording

namespace TaskLeasing

theorem LeasedTask.reportOf?_details {task : LeasedTask} {wait : Span} {error : ProcessorError}
    {report : FailureReport} (reported : task.reportOf? wait error = some report) :
    report.details = error.incidentDetails ∧ ∀ business, error ≠ .business business := by
  cases error with
  | business error => cases reported
  | retryable failure =>
    cases reported
    exact ⟨rfl, nofun⟩
  | failure chain =>
    cases reported
    exact ⟨rfl, nofun⟩

/-- An accepted report leaves its details with the task, and with the incident that it raises if it raises one. -/
theorem Engine.reportFailure_details {e : Engine} {now : Instant} {fresh task worker : String} {report : FailureReport}
    (answered : (e.reportFailure now fresh task worker report).result = .ok ()) :
    (∃ record ∈ (e.reportFailure now fresh task worker report).engine.tasks, record.task.id = task) ∧
      (∀ record ∈ (e.reportFailure now fresh task worker report).engine.tasks, record.task.id = task →
        record.errorDetails = some report.details) ∧
      ∀ incident ∈ (e.reportFailure now fresh task worker report).engine.incidents,
        incident ∈ e.incidents ∨ incident.details = report.details := by
  obtain ⟨expiry, old, available, accepted, owned⟩ := reportFailure_ok answered
  obtain ⟨member, id, _⟩ := ownedRecord_ok owned
  rw [reportFailure_tasks available accepted owned]
  refine ⟨⟨old.fail report expiry, List.mem_map.mpr ⟨old, member, if_pos id⟩, id⟩, fun record among named => ?_,
    fun incident among => ?_⟩
  · obtain ⟨before, _, rfl⟩ := List.mem_map.mp among
    split at named
    · next own =>
      rw [if_pos own]
      rfl
    · next other => exact absurd named other
  · rw [reportFailure_eq available accepted owned] at among
    split at among
    · rcases List.mem_append.mp among with old | new
      · exact .inl old
      · exact .inr (List.mem_singleton.mp new ▸ rfl)
    · exact .inl among

namespace System

/-- No cause is lost on the way from a processor to the engine. If the engine accepts the report of an attempt that
failed, for good or to be tried again, the details that it keeps with the task, and with the incident that the report
may raise, show every line of every message that the failure came with: its own first, and each before what caused it.
The details of an error of the library are its messages and those of its sources, in order, between separators. -/
theorem details_complete :
    (∀ (s₀ s : System) (action : Option Nat) (task : LeasedTask) (registration : Registration)
      (attempt : Attempt registration.contract.attempts.Value) (error : ProcessorError) (report : FailureReport),
      s.calls.find? (fun call => call.number = s₀.callCount + 1) = some (s₀.attemptAt action registration task) →
      attempt.result = .error error → task.reportOf? s.settings.retryDelay error = some report →
      (s.engine.step s.now (s.names.next s.engine) (.failure task.id s₀.settings.workerId report)).result = .ok () →
        let after := (s.step (.answer (s₀.callCount + 1) registration.contract.attempts attempt)).2
        (∃ record ∈ after.engine.tasks, record.task.id = task.id) ∧
        (∀ record ∈ after.engine.tasks, record.task.id = task.id → ∃ details, record.errorDetails = some details ∧
          Shows details (error.account.flatMap linesOf)) ∧
        ∀ incident ∈ after.engine.incidents, incident ∈ s.engine.incidents ∨
          Shows incident.details (error.account.flatMap linesOf)) ∧
    ∀ messages : List String, incidentDetails messages = causedBy.intercalate messages := by
  refine ⟨fun s₀ s action task registration attempt error report pending failed reported accepted => ?_, incidentDetails_eq⟩
  intro after
  have ended := (answer_failed pending attempt failed).2
  have settled := (settleError_reported (s := s.dropCall (s₀.callCount + 1)) s₀.settings.workerId registration reported).2
  have filed : after.engine =
      (s.engine.reportFailure s.now (s.names.next s.engine).incident task.id s₀.settings.workerId report).engine :=
    ended.trans (settled.trans (report_rest _ task.id s₀.settings.workerId report).1)
  rw [filed]
  obtain ⟨details, reports⟩ := LeasedTask.reportOf?_details reported
  have shown := ProcessorError.shows_details reports
  rw [← details] at shown
  obtain ⟨kept, each, raised⟩ := Engine.reportFailure_details accepted
  exact ⟨kept, fun record member id => ⟨report.details, each record member id, shown⟩,
    fun incident member => (raised incident member).imp_right fun same => by rw [same]; exact shown⟩

/-- A failure over two lines with two causes, the root of which has two lines, too. -/
theorem details_complete_twice :
    let error : ProcessorError := .failure ⟨"billing\nfailed", ["no answer", "connection\nrefused"]⟩
    let details := "billing\nfailed\n\nCaused by:\n    0: no answer\n    1: connection\n       refused"
    let after := (oneAtWork.step (.answer 1 .process (.failed error))).2
    error.incidentDetails = details ∧
    (∃ record ∈ after.engine.tasks, record.task.id = "t" ∧ record.errorDetails = some details ∧
      Shows details (["billing", "failed", "no answer", "connection", "refused"].map String.toList)) ∧
    incidentDetails ["engine", "store", "disk"] = causedBy.intercalate ["engine", "store", "disk"] := by
  intro error details after
  have laidOut : error.incidentDetails = details := by decide
  obtain ⟨⟨record, member, id⟩, shown, _⟩ := details_complete.1 { oneLeased with names := unaryNames } oneAtWork none
    leasedTask ⟨⟨"order", "money"⟩, none, .all, .sync⟩ (.failed error) error _ rfl rfl rfl rfl
  obtain ⟨kept, same, lines⟩ := shown record member id
  have told : some kept = some details := by
    rw [← same, ← laidOut, List.mem_singleton.mp member]
    rfl
  cases told
  exact ⟨laidOut, ⟨record, member, id, same, lines⟩, details_complete.2 _⟩

end System

end TaskLeasing
