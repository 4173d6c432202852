import TaskLeasing.Proofs.Engine.Accounts
import TaskLeasing.Proofs.Engine.Atomicity
import TaskLeasing.Proofs.System.Counting
import TaskLeasing.Proofs.System.Watching

namespace TaskLeasing

/-- A call has left nothing behind that is not in its result. -/
structure System.Untouched (s after : System) : Prop where
  engine : after.engine = s.engine
  counters : after.counters = s.counters
  host : after.host = s.host
  gate : after.gate = s.gate

/-- How a response is answered when its processor has ended, and what becomes of the system. -/
inductive System.Responds (s : System) (call : ProcessorCall) (task : ExternalTask) :
    Attempt (Json × Variables) → Except ResponseError Json → System → Prop
  /-- The engine completed the task with the variables that the processor collected. -/
  | completed {value : Json} {vars : Variables} {after : System} {leases : List Registration}
      (accepted : (s.ask (.complete task.id call.worker vars)).1 = .ok ())
      (defers : (s.advanced (.complete task.id call.worker vars)).Defers after (leases.map .deferLease))
      (completion : after.engine.completionOf? task.id = some vars)
      (gone : ∀ record ∈ after.engine.tasks, record.task.id ≠ task.id)
      (counters : after.counters = s.counters.countResponse) :
      s.Responds call task (.returned (value, vars)) (.ok value) after
  /-- The engine refused the completion, and what makes up for it is deferred. -/
  | compensated {value : Json} {vars : Variables} {refusal : EngineError} {after : System}
      (refused : (s.ask (.complete task.id call.worker vars)).1 = .error refusal)
      (defers : (s.advanced (.complete task.id call.worker vars)).Defers after
        [.compensate task call.worker vars refusal])
      (tasks : after.engine.tasks = s.engine.tasks)
      (completions : after.engine.completions = s.engine.completions)
      (counters : after.counters = s.counters.countResponse.countOutcome .incident) :
      s.Responds call task (.returned (value, vars)) (.ok value) after
  /-- The engine accepted the business error. -/
  | erred {business : BusinessError} {after : System} {leases : List Registration}
      (accepted : (s.ask
        (.businessError task.id call.worker business.code business.message business.vars)).1 = .ok ())
      (defers : (s.advanced
        (.businessError task.id call.worker business.code business.message business.vars)).Defers after
          (leases.map .deferLease))
      (gone : ∀ record ∈ after.engine.tasks, record.task.id ≠ task.id)
      (counters : after.counters = s.counters.countResponse) :
      s.Responds call task (.failed (.business business)) (.ok (business.result.getD .null)) after
  /-- The engine refused the business error. -/
  | barred {business : BusinessError} {refusal : EngineError} {after : System}
      (refused : (s.ask
        (.businessError task.id call.worker business.code business.message business.vars)).1 = .error refusal)
      (untouched : s.Untouched after) :
      s.Responds call task (.failed (.business business)) (.error (.engine refusal)) after
  /-- The processor panicked, or failed with an error that is no business error. -/
  | failed {attempt : Attempt (Json × Variables)} {error : ProcessorError} {after : System}
      (failed : attempt.result = .error error) (unmodelled : ∀ business, error ≠ .business business)
      (untouched : s.Untouched after) :
      s.Responds call task attempt (.error (.processing error)) after

namespace System

variable {s after : System}

theorem Untouched.refl (s : System) : s.Untouched s := ⟨rfl, rfl, rfl, rfl⟩

/-- Only an answer that is an error leaves nothing behind, and each that is one does. -/
theorem Responds.untouched {call : ProcessorCall} {task : ExternalTask} {attempt : Attempt (Json × Variables)}
    {error : ResponseError} (responds : s.Responds call task attempt (.error error) after) : s.Untouched after := by
  cases responds with
  | barred refused untouched => exact untouched
  | failed failed unmodelled untouched => exact untouched

/-- A call that changes nothing in the engine is only observed. -/
theorem untouched_ask {kind : AnswerKind} {operation : Operation kind}
    (silent : (s.engine.step s.now (s.names.next s.engine) operation).started = [])
    (same : (s.engine.step s.now (s.names.next s.engine) operation).engine = s.engine) :
    s.Untouched (s.ask operation).2 := by
  rw [ask_silent silent]
  exact ⟨same, rfl, rfl, rfl⟩

theorem untouched_findTask (s : System) (task : String) : s.Untouched (s.ask (.findTask task)).2 := by
  have looks : (s.engine.findTask task).started = [] ∧ (s.engine.findTask task).engine = s.engine := by
    unfold Engine.findTask
    split <;> exact ⟨rfl, rfl⟩
  exact untouched_ask looks.1 looks.2

/-- A response is refused at once, or its processor is called for the open task that it answers. -/
theorem respond_cases (s : System) (id : String) (input : Json) :
    s.Untouched (s.respond id input).2 ∧
      ((∃ error, (s.respond id input).1 = .finished (.error error)) ∨
        ∃ call record, (s.respond id input).1 = .calling call ∧ call.action = none ∧
          call.subject = .respond record.task input ∧ call.worker = s.settings.workerId ∧
            record ∈ s.engine.tasks ∧ record.task.id = id) := by
  have looked := s.untouched_findTask id
  have found := (s.ask_findTask id).2
  have settings := (s.does_ask (.findTask id)).settings
  unfold System.respond
  simp only
  split
  · next reason t result =>
    rw [result] at looked
    exact ⟨looked, .inl ⟨_, rfl⟩⟩
  · next open? t result =>
    rw [result] at looked found settings
    split
    · exact ⟨looked, .inl ⟨_, rfl⟩⟩
    · next task locked =>
      obtain ⟨isOpen, _⟩ := Option.filter_eq_some_iff.mp locked
      obtain ⟨record, member, rfl, sameId⟩ := found task (congrArg Except.ok isOpen)
      split
      · exact ⟨looked, .inl ⟨_, rfl⟩⟩
      · split
        · exact ⟨looked, .inl ⟨_, rfl⟩⟩
        · next registration _ _ _ _ _ =>
          have called : s.Untouched (t.callProcessor none registration t.settings.workerId
              (.respond record.task input)).2 := ⟨looked.engine, looked.counters, looked.host, looked.gate⟩
          have worker : t.settings.workerId = s.settings.workerId := congrArg Settings.workerId settings
          exact ⟨called, .inr ⟨_, record, rfl, rfl, rfl, worker, member, sameId⟩⟩

theorem responds_business (orderly : s.engine.Orderly s.names) (apart : s.names.Distinct) (call : ProcessorCall)
    (task : ExternalTask) (business : BusinessError) :
    s.Responds call task (.failed (.business business))
      (s.endRespond call task (.failed (.business business))).1
      (s.endRespond call task (.failed (.business business))).2 := by
  let operation : Operation .done :=
    .businessError task.id call.worker business.code business.message business.vars
  have new := (orderly.newTo apart).tasks
  have decided : (s.engine.step s.now (s.names.next s.engine) operation).Decides s.engine task.id call.worker
      (.erred business.code) := orderly.sound.businessError_decides new _ _ _ _
  cases result : (s.engine.step s.now (s.names.next s.engine) operation).result with
  | error refusal =>
    have unchanged := (orderly.sound.businessError_refused result).1
    have untouched : s.Untouched (s.ask operation).2 :=
      untouched_ask (congrArg Reply.started unchanged) (congrArg Reply.engine unchanged)
    have ended : s.endRespond call task (.failed (.business business)) =
        (.error (.engine refusal), (s.ask operation).2) := by
      simp only [System.endRespond, Attempt.result]
      rw [ask_eq result]
    rw [ended]
    exact .barred result untouched
  | ok done =>
    rcases decided with ⟨_, closes⟩ | ⟨refused, _⟩
    · obtain ⟨leases, answers⟩ := s.answers_ask operation fun _ _ => rfl
      have ended : s.endRespond call task (.failed (.business business)) = (.ok (business.result.getD .null),
          { (s.ask operation).2 with counters := (s.ask operation).2.counters.countResponse }) := by
        simp only [System.endRespond, Attempt.result]
        rw [ask_eq result]
      rw [ended]
      have told := answers.defers.trans
        ((s.ask operation).2.defers_count (s.ask operation).2.counters.countResponse)
      rw [List.append_nil] at told
      refine .erred result told (fun record member => closes.gone record ?_) ?_
      · rw [told.engine] at member
        exact member
      · exact congrArg Counters.countResponse (s.counters_ask operation)
    · rw [result] at refused
      cases refused

theorem defers_deferCompensation (s : System) (task : ExternalTask) (worker : String) (vars : Variables)
    (error : EngineError) :
    s.Defers (s.deferCompensation task worker vars error) [.compensate task worker vars error] :=
  (s.defers_afterCommit "incident" (.compensate task worker vars error)).trans (defers_count _ _)

theorem responds_returned (orderly : s.engine.Orderly s.names) (apart : s.names.Distinct) (call : ProcessorCall)
    (task : ExternalTask) (value : Json) (vars : Variables) :
    s.Responds call task (.returned (value, vars)) (s.endRespond call task (.returned (value, vars))).1
      (s.endRespond call task (.returned (value, vars))).2 := by
  let operation : Operation .done := .complete task.id call.worker vars
  -- the response is counted before the engine is asked, which makes no difference to the engine
  let counted : System := { s with counters := s.counters.countResponse }
  obtain ⟨leases, answers⟩ := counted.answers_ask operation fun _ _ => rfl
  have told := ((s.advanced operation).defers_count s.counters.countResponse).trans answers.defers
  have counters : (counted.ask operation).2.counters = s.counters.countResponse := counted.counters_ask operation
  have new := (orderly.newTo apart).tasks
  have decided : (s.engine.step s.now (s.names.next s.engine) operation).Decides s.engine task.id call.worker
      (.completed vars) := orderly.sound.complete_decides new _ _ _
  cases result : (s.engine.step s.now (s.names.next s.engine) operation).result with
  | error refusal =>
    rcases decided with ⟨accepted, _⟩ | ⟨_, tasks, ledger⟩
    · rw [result] at accepted
      cases accepted
    · have silent : (s.engine.step s.now (s.names.next s.engine) operation).started = [] := by
        rcases orderly.sound.complete_refused result with ⟨unchanged, _⟩ | ⟨silent, _⟩
        · exact congrArg Reply.started unchanged
        · exact silent
      obtain rfl := answers.silent silent
      have ended : s.endRespond call task (.returned (value, vars)) =
          (.ok value, (counted.ask operation).2.deferCompensation task call.worker vars refusal) := by
        simp only [System.endRespond, Attempt.result]
        rw [ask_eq (s := counted) result]
      rw [ended]
      have left := told.trans ((counted.ask operation).2.defers_deferCompensation task call.worker vars refusal)
      refine .compensated result left ?_ ?_ ?_
      · rw [left.engine]
        exact tasks
      · rw [left.engine]
        exact ledger.completions
      · rw [counters_deferCompensation, counters]
  | ok done =>
    rcases decided with ⟨_, closes⟩ | ⟨refused, _⟩
    · have ended : s.endRespond call task (.returned (value, vars)) = (.ok value, (counted.ask operation).2) := by
        simp only [System.endRespond, Attempt.result]
        rw [ask_eq (s := counted) result]
      rw [ended]
      refine .completed result told ?_ (fun record member => closes.gone record ?_) counters
      · rw [told.engine]
        have recorded := s.engine.completionOf?_recordCompletion task.id task.id vars
        rw [if_pos rfl] at recorded
        rw [← recorded]
        exact congrArg (fun done => (done.find? fun entry => entry.1 = task.id).map Prod.snd) closes.completions
      · rw [told.engine] at member
        exact member
    · rw [result] at refused
      cases refused

theorem responds_endRespond (orderly : s.engine.Orderly s.names) (apart : s.names.Distinct) (call : ProcessorCall)
    (task : ExternalTask) (attempt : Attempt (Json × Variables)) :
    s.Responds call task attempt (s.endRespond call task attempt).1 (s.endRespond call task attempt).2 := by
  cases attempt with
  | returned answer => exact responds_returned orderly apart call task answer.1 answer.2
  | panicked reason => exact .failed rfl nofun (.refl s)
  | failed error =>
    cases error with
    | business business => exact responds_business orderly apart call task business
    | retryable failure => exact .failed rfl nofun (.refl s)
    | failure chain => exact .failed rfl nofun (.refl s)

/-- A call that is part of no action leaves the host alone when it ends. -/
theorem finishCall_alone (s : System) {call : ProcessorCall} (alone : call.action = none) : s.finishCall call = s := by
  rw [finishCall, alone, Option.elim_none]

/-- A response is answered faithfully. Its start is refused or calls the processor of an open task, and changes
nothing otherwise. Whatever has happened in the meantime, the end of the processor is answered by what it comes to:
what it returned is given back, with the task completed or a compensation deferred; a business error is answered by
its result if the engine accepts it; and an answer that is an error leaves nothing behind. -/
theorem run_responds (names : Naming) (now : Instant) (settings : Settings) (gated : Bool) (before : List Move)
    (distinct : names.Distinct) (id : String) (input : Json) :
    let s := (System.create names now settings gated).run before
    let started := s.step (.respond id input)
    s.Untouched started.2 ∧
      ((∃ error, started.1 = .responded (.error error)) ∨
        ∃ call, started.1 = .calling call ∧ call.worker = s.settings.workerId ∧
          ∃ record ∈ s.engine.tasks, record.task.id = id ∧
            ∀ (during : List Move) (attempt : Attempt (Json × Variables)),
              let t := started.2.run during
              t.calls.find? (fun other => other.number = call.number) = some call →
                ∃ result after, t.step (.answer call.number .respond attempt) = (.responded result, after) ∧
                  (t.dropCall call.number).Responds call record.task attempt result after ∧
                  ∀ error, result = .error error → t.Untouched after) := by
  intro s started
  have stepped : started.2 = (s.respond id input).2 := s.step_respond id input
  obtain ⟨untouched, answered⟩ := s.respond_cases id input
  refine ⟨stepped ▸ untouched, ?_⟩
  rcases answered with ⟨error, finished⟩ | ⟨call, record, calling, alone, subject, worker, member, sameId⟩
  · left
    refine ⟨error, ?_⟩
    simp only [started, System.step]
    split
    · next result t same =>
      rw [same] at finished
      cases finished
      rfl
    · next call t same =>
      rw [same] at finished
      cases finished
  · right
    refine ⟨call, ?_, worker, record, member, sameId, ?_⟩
    · simp only [started, System.step]
      split
      · next result t same =>
        rw [same] at calling
        cases calling
      · next other t same =>
        rw [same] at calling
        cases calling
        rfl
    · intro during attempt t pending
      have created : s.names = names := names_run _ before
      have begun : s.engine.Orderly s.names := by
        rw [created]
        exact orderly_run distinct (Engine.orderly_empty names) before
      have named : t.names = s.names := names_run s (.respond id input :: during)
      have orderly : t.engine.Orderly t.names := by
        rw [named]
        exact orderly_run (created ▸ distinct) begun (.respond id input :: during)
      have apart : t.names.Distinct := by
        rw [named, created]
        exact distinct
      have responds := responds_endRespond (s := t.dropCall call.number) orderly apart call record.task attempt
      have ended := endCall_respond pending subject attempt
      rw [finishCall_alone _ alone] at ended
      refine ⟨_, _, ended, responds, fun error same => ?_⟩
      rw [same] at responds
      have left := responds.untouched
      exact ⟨left.engine, left.counters, left.host, left.gate⟩

/-- A dispatcher whose one request is answered, while the engine refuses the completion: the answer is given back,
and what makes up for the refusal is deferred. -/
theorem run_responds_compensated :
    let before : List Move := oneRequest ++ [.operate .done (.refuseNextCompletion "t")]
    let s := (System.create unaryNames .epoch (Settings.defaults "w") false).run before
    let t := (s.step (.respond "t" .null)).2
    ∃ call, ∃ record ∈ s.engine.tasks, t.calls.find? (fun other => other.number = 2) = some call ∧
      ∃ result after, t.step (.answer 2 .respond (.returned (.bool true, .empty))) = (.responded result, after) ∧
        (t.dropCall 2).Responds call record.task (.returned (.bool true, .empty)) result after ∧
          result = .ok (.bool true) ∧ after.deferred = [.compensate record.task "w" .empty
            (.unavailable "completion of t rejected")] := by
  intro before s t
  rcases (run_responds unaryNames .epoch (Settings.defaults "w") false before unaryNames_distinct "t" .null).2 with
    ⟨error, refused⟩ | ⟨call, calling, _, record, member, _, answers⟩
  · cases refused
  · cases calling
    obtain rfl := List.mem_singleton.mp member
    obtain ⟨result, after, stepped, responds, _⟩ := answers [] (.returned (.bool true, .empty)) rfl
    have given : Consequence.responded result = .responded (.ok (.bool true)) := (congrArg Prod.fst stepped).symm
    obtain rfl : (t.step (.answer 2 .respond (.returned (.bool true, .empty)))).2 = after := congrArg Prod.snd stepped
    exact ⟨_, _, member, rfl, result, _, stepped, responds, Consequence.responded.inj given, rfl⟩

end System

end TaskLeasing
