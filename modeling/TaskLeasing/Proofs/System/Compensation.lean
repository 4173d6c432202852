import TaskLeasing.Proofs.System.Finality

namespace TaskLeasing

/-- An engine in order, in which a task that was opened at some time has an open incident as long as it is open. -/
structure Engine.Recorded (e : Engine) (names : Naming) (task : String) : Prop where
  orderly : e.Orderly names
  issued : e.Issued names task
  incident : ∀ record ∈ e.tasks, record.task.id = task → e.hasOpenIncident task = true

namespace Engine

variable {e : Engine} {names : Naming} {task : String}

/-- No call closes the incident of a task that stays open. -/
theorem incident_stays (issued : e.Issued names task) (apart : names.Distinct)
    (now : Instant) {kind : AnswerKind} (operation : Operation kind) {record : TaskRecord}
    (member : record ∈ (e.step now (names.next e) operation).engine.tasks) (id : record.task.id = task) :
    ∃ old ∈ e.tasks, old.task.id = task ∧ (e.hasOpenIncident task = true →
      (e.step now (names.next e) operation).engine.hasOpenIncident task = true) := by
  have plain (isPlain : operation.isPlain = true) : ∃ old ∈ e.tasks, old.task.id = task ∧
      (e.hasOpenIncident task = true → (e.step now (names.next e) operation).engine.hasOpenIncident task = true) := by
    obtain ⟨_, ordinary, _⟩ := ordinary_step e now (names.next e) isPlain
    rcases ordinary.records record member with ⟨old, stays⟩ | ⟨opened, _⟩
    · exact ⟨record, old, id, id ▸ stays⟩
    · exact absurd (opened.id.symm.trans id) (issued.ne_next apart)
  have same (tasks : (e.step now (names.next e) operation).engine.tasks = e.tasks)
      (incidents : (e.step now (names.next e) operation).engine.incidents = e.incidents) :
      ∃ old ∈ e.tasks, old.task.id = task ∧ (e.hasOpenIncident task = true →
        (e.step now (names.next e) operation).engine.hasOpenIncident task = true) := by
    refine ⟨record, tasks ▸ member, id, fun isOpen => ?_⟩
    rwa [hasOpenIncident, incidents]
  cases operation with
  | deploy definition =>
    obtain ⟨_, tasks, _, incidents, _⟩ := deploy_rest e definition
    exact same tasks incidents
  | setAvailable available => exact same rfl rfl
  | lease request =>
    obtain ⟨change, rewrites⟩ := rewrites_lease e now request
    have ledger : e.SameLedger (e.step now (names.next e) (.lease request)).engine := sameLedger_step e now _ rfl
    obtain ⟨old, atOld, rfl⟩ := List.mem_map.mp (rewrites.tasks ▸ member)
    refine ⟨old, atOld, (rewrites.keeps old).id.symm.trans id, fun isOpen => ?_⟩
    rwa [hasOpenIncident, ledger.incidents]
  | failure other worker report =>
    obtain ⟨change, rewrites⟩ := rewrites_reportFailure e now (names.next e).incident other worker report
    obtain ⟨old, atOld, rfl⟩ := List.mem_map.mp (rewrites.tasks ▸ member)
    exact ⟨old, atOld, (rewrites.keeps old).id.symm.trans id, (reportFailure_rest task).2⟩
  | _ => exact plain rfl

theorem Recorded.step (recorded : e.Recorded names task) (apart : names.Distinct) (now : Instant) {kind : AnswerKind}
    (operation : Operation kind) : (e.step now (names.next e) operation).engine.Recorded names task where
  orderly := recorded.orderly.step apart now operation
  issued := recorded.issued.step now (names.next e) operation
  incident record member id := by
    obtain ⟨old, atOld, same, stays⟩ := incident_stays recorded.issued apart now operation member id
    exact stays (recorded.incident old atOld same)

theorem Recorded.markExecuted (recorded : e.Recorded names task) (job : String) :
    (e.markExecuted job).Recorded names task :=
  ⟨recorded.orderly.of_eq rfl rfl rfl rfl, recorded.issued, recorded.incident⟩

/-- A failure for good, reported in the name of the worker that leased the task last, is recorded. -/
theorem Recorded.of_failure (orderly : e.Orderly names) (issued : e.Issued names task) (apart : names.Distinct)
    (available : e.available = true) {worker : String}
    (owned : ∀ record ∈ e.tasks, record.task.id = task → record.task.worker = some worker) (now : Instant)
    (message details : String) :
    (e.step now (names.next e) (.failure task worker (.terminal message details))).engine.Recorded names task where
  orderly := orderly.step apart now _
  issued := issued.step now (names.next e) _
  incident record member id := by
    obtain ⟨old, atOld, same, _⟩ := incident_stays issued apart now _ member id
    have found : ∃ record, e.record? task = some record := by
      refine Option.isSome_iff_exists.mp (List.find?_isSome.mpr ⟨old, atOld, by simpa using same⟩)
    obtain ⟨record, found⟩ := found
    have own : e.ownedRecord task worker = .ok record := by
      have worker := owned record (List.mem_of_find?_eq_some found) (by simpa using List.find?_some found)
      simp only [ownedRecord, found, worker, if_true]
    obtain ⟨expiry, accepted⟩ := deadline_zero now
    exact (reportFailure_accepted available accepted own (names.next e).incident).2.2 rfl

end Engine

namespace System

variable {s : System} {task : String}

/-- The processor of each response that goes on was called for a task that was open then, and is part of no
action. -/
def Answerable (s : System) : Prop :=
  ∀ call ∈ s.calls, ∀ task input, call.subject = .respond task input →
    call.action = none ∧ s.engine.Issued s.names task.id

theorem recorded_run (apart : s.names.Distinct) (recorded : s.engine.Recorded s.names task) (moves : List Move) :
    (s.run moves).engine.Recorded (s.run moves).names task := by
  rw [names_run]
  exact run_keeps (P := fun e => e.Recorded s.names task) recorded (fun _ job recorded => recorded.markExecuted job)
    fun _ now recorded ask _ _ => recorded.step apart now ask.operation

theorem issued_run (issued : s.engine.Issued s.names task) (moves : List Move) :
    (s.run moves).engine.Issued (s.run moves).names task := by
  rw [names_run]
  exact run_keeps (P := fun e => e.Issued s.names task) issued (fun _ _ issued => issued)
    fun _ now issued ask _ _ => issued.step now _ ask.operation

theorem Answerable.step (answerable : s.Answerable) (orderly : s.engine.Orderly s.names) (numbered : s.host.Numbered)
    (move : Move) : (s.step move).2.Answerable := by
  intro call member task input subject
  rcases mem_calls_step numbered member with old | new
  · obtain ⟨alone, issued⟩ := answerable call old task input subject
    exact ⟨alone, issued_run issued [move]⟩
  · rcases call?_cases new with ⟨lease, attempt, _⟩ | ⟨record, member, _, _, called, alone⟩
    · rw [subject] at attempt
      cases attempt
    · rw [subject] at called
      cases called
      exact ⟨alone, issued_run (orderly.issued member) [move]⟩

theorem answerable_run {names : Naming} {now : Instant} {settings : Settings} {gated : Bool} (distinct : names.Distinct)
    (moves : List Move) : ((create names now settings gated).run moves).Answerable := by
  induction moves using List.reverseRecOn with
  | nil => exact fun call member => by cases member
  | append_singleton before move ih =>
    rw [run_append]
    have orderly := (in_order_created distinct now settings gated before).2
    exact ih.step orderly (numbered_run (Host.numbered_idle _) before) move

/-- Once the worker that leased the task last has made up for a refused completion, it is recorded. -/
theorem recorded_compensate (orderly : s.engine.Orderly s.names) (apart : s.names.Distinct) {task : ExternalTask}
    (issued : s.engine.Issued s.names task.id) (available : s.engine.available = true) {worker : String}
    (owned : ∀ record ∈ s.engine.tasks, record.task.id = task.id → record.task.worker = some worker)
    (vars : Variables) (error : EngineError) :
    (s.compensate task worker vars error).engine.Recorded s.names task.id := by
  have reported (t : System) (orderly : t.engine.Orderly t.names) (apart : t.names.Distinct)
      (issued : t.engine.Issued t.names task.id) (available : t.engine.available = true)
      (owned : ∀ record ∈ t.engine.tasks, record.task.id = task.id → record.task.worker = some worker) :
      (t.raiseEngineIncident task.id worker error).engine.Recorded t.names task.id := by
    have does := t.does_report task.id worker (.terminal error.message (incidentDetails error.messages))
    have engine : (t.raiseEngineIncident task.id worker error).engine = (t.engine.step t.now (t.names.next t.engine)
        (.failure task.id worker (.terminal error.message (incidentDetails error.messages)))).engine := does.engine.2
    rw [engine]
    exact .of_failure orderly issued apart available owned t.now _ _
  unfold compensate
  by_cases empty : vars.isEmpty = true
  · rw [if_pos empty]
    exact reported s orderly apart issued available owned
  · rw [if_neg empty]
    have asked := s.does_ask (.setVariables task.execution vars)
    have isPlain : (Operation.setVariables task.execution vars).isPlain = true := rfl
    obtain ⟨_, ordinary, _⟩ := Engine.ordinary_step s.engine s.now (s.names.next s.engine) isPlain
    -- whether the variables were refused or not, the records of the task are left alone
    have told (t : System) (names : t.names = s.names) (engine : t.engine =
        (s.engine.step s.now (s.names.next s.engine) (.setVariables task.execution vars)).engine) :
        (t.raiseEngineIncident task.id worker error).engine.Recorded s.names task.id := by
      rw [← names]
      have orderly : t.engine.Orderly t.names := by
        rw [names, engine]
        exact orderly.step apart s.now _
      have issued' : t.engine.Issued t.names task.id := by
        rw [names, engine]
        exact issued.step s.now _ _
      refine reported t orderly (names ▸ apart) issued' ?_ ?_ <;> rw [engine]
      · exact ordinary.available.trans available
      · intro record member id
        rcases ordinary.records record member with ⟨old, _⟩ | ⟨opened, _⟩
        · exact owned record old id
        · exact absurd (opened.id.symm.trans id) (issued.ne_next apart)
    split
    · next done t result =>
      rw [result] at asked
      exact told t asked.names asked.engine.2
    · next refusal t result =>
      rw [result] at asked
      exact told _ asked.names asked.engine.2

/-- A compensation that is taken up in the name of the worker that leased the task last leaves it recorded. -/
theorem recorded_taken (numbered : s.host.Numbered) (orderly : s.engine.Orderly s.names) (apart : s.names.Distinct)
    {task : ExternalTask} (issued : s.engine.Issued s.names task.id) {worker : String} {vars : Variables}
    {error : EngineError} {move : Move} (taken : s.taken? move = some (.compensate task worker vars error))
    (available : s.engine.available = true)
    (owned : ∀ record ∈ s.engine.tasks, record.task.id = task.id → record.task.worker = some worker) :
    (s.step move).2.engine.Recorded (s.step move).2.names task.id := by
  obtain ⟨host, a, work, _, runs, _, stepped⟩ := taken?_step numbered taken
  have ran : s.step move =
      (.nothing, (System.compensate { s with host := host } task worker vars error).finishAction a.number) := by
    rw [stepped]
    simp only [runAction, runs, work]
  have made : (System.compensate { s with host := host } task worker vars error).engine.Recorded s.names task.id :=
    recorded_compensate (s := { s with host := host }) orderly apart issued available owned vars error
  rw [(s.turns_step move).names, ran, (asks_finishAction _ a.number).engine]
  exact made

/-- A refused completion is not lost. When a processor has returned a response and the engine refuses the completion,
the response is given back and a compensation is to be done, which stays so until the host takes it up. If the engine
is available then and no one but the worker of the call has leased the task since, the task has an open incident from
then on, as long as it is open. -/
theorem run_compensates (names : Naming) (now : Instant) (settings : Settings) (gated : Bool) (before : List Move)
    (distinct : names.Distinct) {call : ProcessorCall} {task : ExternalTask} {input value : Json} {vars : Variables}
    {refusal : EngineError} :
    let s := (create names now settings gated).run before
    let ended := s.step (.answer call.number .respond (.returned (value, vars)))
    let work := Work.compensate task call.worker vars refusal
    s.calls.find? (fun other => other.number = call.number) = some call → call.subject = .respond task input →
      (s.ask (.complete task.id call.worker vars)).1 = .error refusal →
        ended.1 = .responded (.ok value) ∧ work ∈ ended.2.toDo ∧
          ∀ later, work ∈ (ended.2.run later).toDo ∨ ∃ early taking late, later = early ++ taking :: late ∧
            (ended.2.run early).taken? taking = some work ∧
              ((ended.2.run early).engine.available = true →
                (∀ record ∈ (ended.2.run early).engine.tasks, record.task.id = task.id →
                  record.task.worker = some call.worker) →
                  (∀ record ∈ (ended.2.run later).engine.tasks, record.task.id ≠ task.id) ∨
                    (ended.2.run later).engine.hasOpenIncident task.id = true) := by
  intro s ended work pending subject refused
  have numbered : s.host.Numbered := numbered_run (Host.numbered_idle _) before
  obtain ⟨apart, orderly⟩ : s.names.Distinct ∧ s.engine.Orderly s.names :=
    in_order_created distinct now settings gated before
  obtain ⟨alone, issued⟩ : call.action = none ∧ s.engine.Issued s.names task.id :=
    answerable_run distinct before call (List.mem_of_find?_eq_some pending) task input subject
  have stepped : ended = _ := endCall_respond pending subject (.returned (value, vars))
  rw [finishCall_alone _ alone] at stepped
  have responds := responds_endRespond (s := s.dropCall call.number) orderly apart call task (.returned (value, vars))
  have deferred : ended.1 = .responded (.ok value) ∧ work ∈ ended.2.toDo := by
    rw [stepped]
    generalize ((s.dropCall call.number).endRespond call task (.returned (value, vars))).1 = result at responds ⊢
    generalize ((s.dropCall call.number).endRespond call task (.returned (value, vars))).2 = after at responds ⊢
    cases responds with
    | completed accepted =>
      cases accepted.symm.trans refused
    | compensated refused' defers =>
      obtain rfl : _ = refusal := Except.error.inj (refused'.symm.trans refused)
      refine ⟨rfl, (defers.adds.toDo numbered).mem_iff.mpr ?_⟩
      exact List.mem_append_right _ (List.mem_singleton_self work)
    | failed failed => cases failed
  refine ⟨deferred.1, deferred.2, fun later => ?_⟩
  have numbered : ended.2.host.Numbered := (numbered_run numbered [_] :)
  rcases toDo_run numbered deferred.2 later with stays | ⟨early, taking, late, rfl, taken⟩
  · exact .inl stays
  · refine .inr ⟨early, taking, late, rfl, taken, fun available owned => ?_⟩
    let u := ended.2.run early
    let sofar := .answer call.number .respond (.returned (value, vars)) :: early
    obtain ⟨apart, orderly⟩ : u.names.Distinct ∧ u.engine.Orderly u.names := in_order_run apart orderly sofar
    have recorded := recorded_taken (numbered_run numbered early) orderly apart (issued_run issued sofar)
      taken available owned
    have apart : (u.step taking).2.names.Distinct := (in_order_run apart orderly [taking]).1
    have recorded := recorded_run apart recorded late
    rw [run_append]
    by_cases gone : ∀ record ∈ (u.run (taking :: late)).engine.tasks, record.task.id ≠ task.id
    · exact .inl gone
    · push Not at gone
      obtain ⟨record, member, id⟩ := gone
      exact .inr (recorded.incident record member id)

/-- A dispatcher whose one request is answered, while the engine refuses the next completion. -/
def refusedResponse : List Move :=
  oneRequest ++ [.operate .done (.refuseNextCompletion "t"), .respond "t" .null]

def requestedTask : ExternalTask :=
  ⟨"t", "order", "money", "i", none, "pay", "x", some "w", some leasedTask.lockExpiry, none, none⟩

def responseCall : ProcessorCall :=
  ⟨2, none, ⟨⟨"order", "money"⟩, none, .all, .async none none⟩, "w", .respond requestedTask .null⟩

/-- The compensation runs, and records the refusal. -/
theorem run_compensates_recorded :
    let s := (create unaryNames .epoch (Settings.defaults "w") false).run refusedResponse
    let ended := s.step (.answer 2 .respond (.returned (.bool true, .empty)))
    ended.1 = .responded (.ok (.bool true)) ∧ (ended.2.run [.start 4]).toDo = [] ∧
      (ended.2.run [.start 4]).engine.hasOpenIncident "t" = true := by
  refine ⟨rfl, rfl, ?_⟩
  have pending : ((create unaryNames .epoch (Settings.defaults "w") false).run refusedResponse).calls.find?
      (fun other => other.number = responseCall.number) = some responseCall := rfl
  have refused : (((create unaryNames .epoch (Settings.defaults "w") false).run refusedResponse).ask
      (.complete requestedTask.id responseCall.worker .empty)).1 = .error (.unavailable "completion of t rejected") :=
    rfl
  obtain ⟨_, _, run⟩ := @run_compensates unaryNames .epoch (Settings.defaults "w") false refusedResponse
    unaryNames_distinct responseCall requestedTask .null (.bool true) .empty _ pending rfl refused
  have done : ((((create unaryNames .epoch (Settings.defaults "w") false).run refusedResponse).step
    (.answer 2 .respond (.returned (.bool true, .empty)))).2.run [.start 4]).toDo = [] := rfl
  rcases run [.start 4] with waits | ⟨early, taking, late, split, _, recorded⟩
  · exact absurd (done ▸ waits) (by simp)
  · obtain rfl : early = [] := by
      cases early with
      | nil => rfl
      | cons _ rest => simp at split
    refine (recorded rfl fun record member _ => ?_).resolve_left fun gone => ?_
    · obtain rfl := List.mem_singleton.mp member
      rfl
    · exact gone _ (List.mem_singleton_self _) rfl

/-- A response comes in when the lease of its task has run out. -/
def expiredRequest : List Move :=
  [.register "order" "money" (some (.ofSeconds 1)) .all (.async none none),
    .operate .done (.deploy ⟨"order", [⟨"pay", .serviceTask, some "money", none⟩]⟩),
    .operate .name (.start "order" none .empty), .dispatch ⟨"order", "money"⟩, .start 0, .start 1,
    .answer 1 .request (.returned none), .passTo (secondsOn 2), .respond "t" .null]

/-- Another worker leases the task. -/
def takeOver : Move := .operate .tasks (.lease ⟨1, "other", "money", .ofSeconds 60, .all, none⟩)

/-- The task is leased by another worker while the processor is at the response. The completion is refused, and so is
the incident that the compensation reports: the response was given back, and nothing of it is recorded. -/
theorem compensation_refused :
    let s := (create unaryNames .epoch (Settings.defaults "w") false).run (expiredRequest ++ [takeOver])
    let ended := s.step (.answer 2 .respond (.returned (.bool true, .empty)))
    let t := (ended.2.step (.start 2)).2
    (create unaryNames .epoch (Settings.defaults "w") false).Forward (expiredRequest ++ [takeOver]) ∧
      (s.ask (.complete "t" "w" .empty)).1 = .error (.notOwner "t" "w") ∧
      ended.1 = .responded (.ok (.bool true)) ∧ ended.2.toDo.length = 1 ∧ ended.2.engine.available = true ∧
      t.toDo = [] ∧ (t.engine.tasks.map fun record => (record.task.id, record.task.worker)) = [("t", some "other")] ∧
      t.engine.hasOpenIncident "t" = false :=
  ⟨by decide +kernel, rfl, rfl, rfl, rfl, rfl, rfl, rfl⟩

end System

end TaskLeasing
