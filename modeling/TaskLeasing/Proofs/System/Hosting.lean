import TaskLeasing.Proofs.System.Adding

namespace TaskLeasing.System

/-- What is set from outside, and by no part of the dispatcher. -/
structure Stands (s after : System) : Prop where
  listening : after.listening = s.listening
  released : after.released = s.released
  sweepers : after.sweepers = s.sweepers
  settings : after.settings = s.settings

/-- A part of a move that has nothing to do with the calls of processors, nor with the actions that run. -/
structure Bypasses (s after : System) : Prop extends Stands s after where
  calls : after.calls = s.calls
  callCount : after.callCount = s.callCount
  running : after.host.running = s.host.running

/-- Acts of any kind. -/
abbrev ActsAnyhow (s after : System) : Prop := s.Acts (fun _ _ => True) (fun _ => True) True after

/-- The actions that calls of processors are part of. -/
def calling (s : System) : List Nat := s.calls.filterMap ProcessorCall.action

/-- Calls are told apart by their numbers and made under one name. Those that are part of actions go on while these
run, and no two are part of one. -/
structure Hosted (s : System) : Prop where
  apart : (s.calls.map ProcessorCall.number).Nodup
  issued : ∀ call ∈ s.calls, call.number ≤ s.callCount
  own : ∀ call ∈ s.calls, call.worker = s.settings.workerId
  distinct : s.calling.Nodup
  runs : ∀ number ∈ s.calling, number ∈ s.host.running.map HostAction.number

variable {s middle after : System}

theorem Stands.refl (s : System) : s.Stands s := ⟨rfl, rfl, rfl, rfl⟩

theorem Stands.trans (first : s.Stands middle) (second : middle.Stands after) : s.Stands after where
  listening := second.listening.trans first.listening
  released := second.released.trans first.released
  sweepers := second.sweepers.trans first.sweepers
  settings := second.settings.trans first.settings

theorem Bypasses.refl (s : System) : s.Bypasses s := ⟨.refl s, rfl, rfl, rfl⟩

theorem Bypasses.trans (first : s.Bypasses middle) (second : middle.Bypasses after) : s.Bypasses after :=
  ⟨first.toStands.trans second.toStands, second.calls.trans first.calls, second.callCount.trans first.callCount,
    second.running.trans first.running⟩

/-- The calls may go on as long as their actions run. -/
theorem Hosted.of_calls (hosted : s.Hosted) (calls : after.calls = s.calls) (callCount : after.callCount = s.callCount)
    (worker : after.settings.workerId = s.settings.workerId)
    (runs : ∀ number ∈ s.calling, number ∈ after.host.running.map HostAction.number) : after.Hosted := by
  have calling : after.calling = s.calling := by rw [System.calling, calls]; rfl
  refine ⟨calls ▸ hosted.apart, ?_, ?_, calling ▸ hosted.distinct, calling ▸ runs⟩
  · rw [calls, callCount]
    exact hosted.issued
  · rw [calls, worker]
    exact hosted.own

theorem Bypasses.hosted (bypasses : s.Bypasses after) (hosted : s.Hosted) : after.Hosted :=
  hosted.of_calls bypasses.calls bypasses.callCount (congrArg _ bypasses.settings) (bypasses.running ▸ hosted.runs)

theorem bypasses_note (s : System) (note : Note) : s.Bypasses (s.note note) := ⟨⟨rfl, rfl, rfl, rfl⟩, rfl, rfl, rfl⟩

theorem bypasses_afterCommit (s : System) (label : String) (work : Work) : s.Bypasses (s.afterCommit label work) := by
  unfold System.afterCommit
  simp only
  split <;> exact ⟨⟨rfl, rfl, rfl, rfl⟩, rfl, rfl, rfl⟩

theorem bypasses_react (s : System) (event : ActivityStarted) : s.Bypasses (s.react event) := by
  unfold System.react
  split
  · exact .refl s
  · simp only
    split
    · exact (s.bypasses_note _).trans (bypasses_afterCommit _ _ _)
    · exact s.bypasses_note _

theorem bypasses_announceAll (s : System) (events : List ActivityStarted) :
    s.Bypasses (events.foldl System.announce s) := by
  have reactions (event : ActivityStarted) (times : List Nat) (t : System) :
      t.Bypasses (times.foldl (fun s _ => s.react event) t) := by
    induction times generalizing t with
    | nil => exact .refl t
    | cons _ rest ih => exact (t.bypasses_react event).trans (ih _)
  induction events generalizing s with
  | nil => exact .refl s
  | cons event rest ih =>
    exact ((s.bypasses_note (.started event)).trans (reactions event _ _)).trans (ih (s.announce event))

theorem bypasses_call (s : System) {kind : AnswerKind} (operation : Operation kind) :
    s.Bypasses (s.call operation).2 := by
  have advanced : s.Bypasses (s.advanced operation) := ⟨⟨rfl, rfl, rfl, rfl⟩, rfl, rfl, rfl⟩
  exact advanced.trans (bypasses_announceAll _ _)

/-- Whatever acts do, they leave these alone. -/
theorem Acts.bypasses {asks : (kind : AnswerKind) → Operation kind → Prop} {works : Work → Prop} {counts : Prop}
    (acts : s.Acts asks works counts after) : s.Bypasses after := by
  induction acts with
  | done => exact .refl s
  | note _ _ ih => exact ih.trans (bypasses_note _ _)
  | count _ _ _ ih => exact ih.trans ⟨⟨rfl, rfl, rfl, rfl⟩, rfl, rfl, rfl⟩
  | @ask t _ _ operation _ ih => exact (ih.trans (t.bypasses_call operation)).trans (bypasses_note _ _)
  | defer _ label work _ ih => exact ih.trans (bypasses_afterCommit _ label work)

theorem Acts.anyhow {asks : (kind : AnswerKind) → Operation kind → Prop} {works : Work → Prop} {counts : Prop}
    (acts : s.Acts asks works counts after) : s.ActsAnyhow after :=
  acts.mono (fun _ _ _ => trivial) (fun _ _ => trivial) fun _ => trivial

/-- A lease leaves the tasks that it is given to be handed out. -/
theorem acts_leaseNow (s : System) (registration : Registration) : s.Acts (fun _ _ => True)
    (fun work => work = .handOut (s.leaseAsk registration).leased) True (s.leaseNow registration).2 := by
  have logged {works : Work → Prop} (tasks : List LeasedTask) (t : System)
      (acts : s.Acts (fun _ _ => True) works True t) :
      s.Acts (fun _ _ => True) works True
        (tasks.foldl (fun s task => s.logTask "fetch_and_lock" task "leased") t) := by
    induction tasks generalizing t with
    | nil => exact acts
    | cons first rest ih => exact ih _ (acts.log _)
  have asked (works : Work → Prop) :
      s.Acts (fun _ _ => True) works True (s.ask (.lease (s.leaseRequest registration))).2 := Acts.done.ask trivial
  unfold System.leaseNow leaseAsk
  split
  · next reason t result =>
    rw [result] at asked
    exact asked _
  · next t result =>
    rw [result] at asked
    exact asked _
  · next tasks t _ result =>
    rw [result] at asked ⊢
    exact (logged tasks _ ((asked _).count trivial _)).defer "process" _ rfl

theorem acts_leaseLogged (s : System) (registration : Registration) : s.Acts (fun _ _ => True)
    (fun work => work = .handOut (s.leaseAsk registration).leased) True (s.leaseLogged registration) := by
  have leased := s.acts_leaseNow registration
  unfold System.leaseLogged
  split
  · next number t result =>
    rw [result] at leased
    exact leased
  · next reason t result =>
    rw [result] at leased
    exact (leased.count trivial _).log _

/-- The end of an attempt leaves the retry to be made that its error asks for, if any. -/
theorem acts_endProcess (s : System) (call : ProcessorCall) (task : LeasedTask) (attempt : Attempt Variables) :
    s.Acts (fun _ _ => True)
      (fun work => ∃ error, attempt.result = .error error ∧ s.RetriesAfter task call.registration error work) True
      (s.endProcess call task attempt).2 := by
  have ended {works : Work → Prop} {t : System} (acts : s.Acts (fun _ _ => True) works True t) (outcome : Outcome) :
      s.Acts (fun _ _ => True) works True (t.conclude task outcome).2 := (acts.count trivial _).log _
  unfold System.endProcess
  refine ended ?_ _
  split
  · next vars _ =>
    have asked (works : Work → Prop) :
        s.Acts (fun _ _ => True) works True (s.ask (.complete task.id call.worker vars)).2 := Acts.done.ask trivial
    split
    · next value t result =>
      rw [result] at asked
      exact asked _
    · next refusal t result =>
      rw [result] at asked
      exact (asked _).tamely (fun _ _ _ => trivial) (t.acts_raiseIncident _ _ _ _)
  · next error result =>
    exact (s.acts_settleError_retry task call.registration call.worker error).mono (fun _ _ => id)
      (fun _ retries => ⟨error, result, retries⟩) False.elim

theorem acts_endRequest (s : System) (call : ProcessorCall) (task : LeasedTask) (attempt : Attempt (Option Instant)) :
    s.Acts (fun _ _ => True)
      (fun work => ∃ error, attempt.result = .error error ∧ s.RetriesAfter task call.registration error work) True
      (s.endRequest call task attempt).2 := by
  have ended {works : Work → Prop} {t : System} (acts : s.Acts (fun _ _ => True) works True t) (outcome : Outcome) :
      s.Acts (fun _ _ => True) works True (t.conclude task outcome).2 := (acts.count trivial _).log _
  unfold System.endRequest
  refine ended ?_ _
  split
  · exact (s.acts_armWatchdog task _ _).mono (fun _ _ _ => trivial) (fun _ => False.elim) False.elim
  · next error result =>
    exact (s.acts_settleError_retry task call.registration call.worker error).mono (fun _ _ => id)
      (fun _ retries => ⟨error, result, retries⟩) False.elim

theorem bypasses_runAsyncs (s : System) (label : String) (tasks : List LeasedTask) :
    s.Bypasses (tasks.foldl (fun s task => s.runAsync label (.process task)) s) := by
  induction tasks generalizing s with
  | nil => exact .refl s
  | cons first rest ih =>
    have one : s.Bypasses (s.runAsync label (.process first)) := ⟨⟨rfl, rfl, rfl, rfl⟩, rfl, rfl, rfl⟩
    exact one.trans (ih _)

theorem bypasses_commit (s : System) : s.Bypasses s.commit.2 := by
  have submitted (held : List (String × Work)) (t : System) :
      t.Bypasses (held.foldl (fun s (entry : String × Work) => s.submit entry.1 false entry.2) t) := by
    induction held generalizing t with
    | nil => exact .refl t
    | cons first rest ih =>
      have one : t.Bypasses (t.submit first.1 false first.2) := ⟨⟨rfl, rfl, rfl, rfl⟩, rfl, rfl, rfl⟩
      exact one.trans (ih _)
  unfold System.commit
  split
  · exact .refl s
  · next held _ =>
    have opened : s.Bypasses { s with gate := some [] } := ⟨⟨rfl, rfl, rfl, rfl⟩, rfl, rfl, rfl⟩
    exact opened.trans (submitted held _)

theorem bypasses_register (s : System) (definitionKey topic : String) (lockTimeout : Option Span)
    (vars : VariableScope) (contract : Contract) :
    s.Bypasses (s.register definitionKey topic lockTimeout vars contract).2 := by
  unfold System.register
  split <;> exact ⟨⟨rfl, rfl, rfl, rfl⟩, rfl, rfl, rfl⟩

theorem bypasses_operate (s : System) {kind : AnswerKind} (operation : Operation kind) :
    s.Bypasses (s.operate operation).2 := by
  cases operation with
  | scheduleJob due payload =>
    have asked : s.ActsAnyhow (s.ask (.scheduleJob due payload)).2 := Acts.done.ask trivial
    unfold System.operate
    simp only
    split
    · next job t result =>
      rw [result] at asked
      exact (asked.note rfl).bypasses
    · next reason t result =>
      rw [result] at asked
      exact asked.bypasses
  | _ => exact s.bypasses_call _

theorem bypasses_dispatch (s : System) (key : RegistrationKey) : s.Bypasses (s.dispatch key).2 := by
  unfold System.dispatch
  split
  · exact .refl s
  · next registration _ => exact (s.acts_leaseNow registration).bypasses

theorem bypasses_runJob (s : System) (job : String) : s.Bypasses (s.runJob job) := by
  have marked (t : System) (bypasses : s.Bypasses t) : s.Bypasses { t with engine := t.engine.markExecuted job } :=
    bypasses.trans ⟨⟨rfl, rfl, rfl, rfl⟩, rfl, rfl, rfl⟩
  unfold System.runJob
  split
  · exact .refl s
  · refine marked _ ?_
    split
    · split
      · exact (s.acts_fireWatchdog _).bypasses
      · exact .refl s
    · exact s.bypasses_note _
    · exact .refl s

theorem bypasses_wake (s : System) (action : Nat) : s.Bypasses { s with host := s.host.wake s.now action } := by
  have running : (s.host.wake s.now action).running = s.host.running := by
    unfold Host.wake
    split <;> rfl
  exact ⟨⟨rfl, rfl, rfl, rfl⟩, rfl, rfl, running⟩

theorem stands_finishAction (s : System) (action : Nat) : s.Stands (s.finishAction action) := by
  rcases s.finishAction_cases action with same | ⟨next, same⟩ <;> rw [same] <;> exact ⟨rfl, rfl, rfl, rfl⟩

theorem running_finish (h : Host Work) (action : Nat) :
    (h.finish action).running = h.running.filter fun other => other.number ≠ action := by
  unfold Host.finish
  split
  · next none' =>
    refine (List.filter_eq_self.mpr fun other member => ?_).symm
    simpa using List.find?_eq_none.mp none' other member
  · split
    · rfl
    · split <;> rfl

/-- An action may end once no call is part of it. -/
theorem Hosted.finishAction (hosted : s.Hosted) {action : Nat} (absent : action ∉ s.calling) :
    (s.finishAction action).Hosted := by
  obtain ⟨calls, callCount, settings, running⟩ : (s.finishAction action).calls = s.calls ∧
      (s.finishAction action).callCount = s.callCount ∧ (s.finishAction action).settings = s.settings ∧
        (s.finishAction action).host.running = s.host.running.filter fun other => other.number ≠ action := by
    rw [← running_finish]
    rcases s.finishAction_cases action with same | ⟨next, same⟩ <;> rw [same] <;> exact ⟨rfl, rfl, rfl, rfl⟩
  refine hosted.of_calls calls callCount (congrArg _ settings) fun number member => ?_
  obtain ⟨a, runs, rfl⟩ := List.mem_map.mp (hosted.runs number member)
  rw [running]
  exact List.mem_map_of_mem (List.mem_filter.mpr ⟨runs, by
    simpa using fun same : a.number = action => absent (same ▸ member)⟩)

/-- A processor that is called goes on as part of the action, if that is new to the calls and runs. -/
theorem Hosted.callProcessor (hosted : s.Hosted) {action : Option Nat}
    (joins : ∀ number ∈ action, number ∉ s.calling ∧ number ∈ s.host.running.map HostAction.number)
    (registration : Registration) (subject : CallSubject) :
    (s.callProcessor action registration s.settings.workerId subject).2.Hosted := by
  let called := s.callProcessor action registration s.settings.workerId subject
  have calling : called.2.calling = s.calling ++ action.toList := by
    change (s.calls ++ [called.1]).filterMap _ = _
    rw [List.filterMap_append]
    cases action <;> rfl
  refine ⟨?_, ?_, ?_, ?_, ?_⟩
  · refine List.map_append ▸ hosted.apart.append (List.nodup_singleton _) fun number old new => ?_
    obtain ⟨other, atOther, rfl⟩ := List.mem_map.mp old
    have above := hosted.issued other atOther
    rw [List.mem_singleton.mp new] at above
    exact Nat.not_succ_le_self _ above
  · exact List.forall_mem_append.mpr ⟨fun other member => Nat.le_succ_of_le (hosted.issued other member),
      List.forall_mem_singleton.mpr (Nat.le_refl _)⟩
  · exact List.forall_mem_append.mpr ⟨hosted.own, List.forall_mem_singleton.mpr rfl⟩
  · rw [calling]
    refine hosted.distinct.append (by cases action <;> simp) fun number old new => ?_
    exact (joins number (Option.mem_toList.mp new)).1 old
  · intro number member
    rw [calling] at member
    exact (List.mem_append.mp member).elim (hosted.runs number) fun new =>
      (joins number (Option.mem_toList.mp new)).2

/-- A part of a move that leaves each call of a processor its action. -/
structure Upholds (s after : System) : Prop where
  stands : s.Stands after
  hosted : s.Hosted → after.Hosted

theorem Bypasses.upholds (bypasses : s.Bypasses after) : s.Upholds after := ⟨bypasses.toStands, bypasses.hosted⟩

theorem Upholds.trans (first : s.Upholds middle) (second : middle.Upholds after) : s.Upholds after :=
  ⟨first.stands.trans second.stands, fun hosted => second.hosted (first.hosted hosted)⟩

/-- A call that is no part of an action needs none. -/
theorem upholds_callProcessor (s : System) (registration : Registration) (subject : CallSubject) :
    s.Upholds (s.callProcessor none registration s.settings.workerId subject).2 :=
  ⟨⟨rfl, rfl, rfl, rfl⟩, fun hosted => hosted.callProcessor (by simp) registration subject⟩

/-- A leased task is brought to a processor, or is done with at once. -/
theorem process_cases (s : System) (action : Option Nat) (task : LeasedTask) :
    (∃ outcome t, s.process action task = (.finished outcome, t) ∧ s.Bypasses t) ∨
      ∃ registration subject, s.process action task =
        (.calling (s.callProcessor action registration s.settings.workerId subject).1,
          (s.callProcessor action registration s.settings.workerId subject).2) := by
  unfold System.process
  simp only
  split
  · refine .inl ⟨_, _, rfl, ?_⟩
    exact (((s.acts_raiseIncident _ _ _ _).anyhow.count trivial _).log _).bypasses
  · exact .inr ⟨_, _, rfl⟩

theorem upholds_process (s : System) (task : LeasedTask) : s.Upholds (s.process none task).2 := by
  rcases s.process_cases none task with ⟨outcome, t, finished, bypasses⟩ | ⟨registration, subject, calling⟩
  · rw [finished]
    exact bypasses.upholds
  · rw [calling]
    exact s.upholds_callProcessor _ _

theorem upholds_respond (s : System) (task : String) (input : Json) : s.Upholds (s.respond task input).2 := by
  have acts : s.ActsAnyhow (s.ask (.findTask task)).2 := Acts.done.ask trivial
  have asked := acts.bypasses.upholds
  unfold System.respond
  simp only
  split
  · next reason t result =>
    rw [result] at asked
    exact asked
  · next found t result =>
    rw [result] at asked
    split
    · exact asked
    · split
      · exact asked
      · split
        · exact asked
        · exact asked.trans (t.upholds_callProcessor _ _)

/-- An action that is new to the calls runs to its end, or has a processor called as part of it. -/
theorem Hosted.runAction (hosted : s.Hosted) {action : Nat} (absent : action ∉ s.calling) :
    (s.runAction action).2.Hosted ∧ s.Stands (s.runAction action).2 := by
  have done {t : System} (bypasses : s.Bypasses t) :
      (t.finishAction action).Hosted ∧ s.Stands (t.finishAction action) := by
    have calling : t.calling = s.calling := by rw [System.calling, bypasses.calls]; rfl
    exact ⟨(bypasses.hosted hosted).finishAction (calling ▸ absent),
      bypasses.toStands.trans (t.stands_finishAction action)⟩
  unfold System.runAction
  split
  · exact ⟨hosted, .refl s⟩
  · next a runs =>
    split
    · exact done ⟨⟨rfl, rfl, rfl, rfl⟩, rfl, rfl, rfl⟩
    · next registration _ => exact done (s.acts_leaseLogged registration).bypasses
    · exact done ⟨⟨rfl, rfl, rfl, rfl⟩, rfl, rfl, rfl⟩
    · next tasks _ => exact done (s.bypasses_runAsyncs "process" tasks)
    · next task _ =>
      rcases s.process_cases (some action) task with ⟨outcome, t, finished, bypasses⟩ | ⟨registration, subject, calling⟩
      · rw [finished]
        exact done bypasses
      · rw [calling]
        refine ⟨hosted.callProcessor (fun number same => ?_) _ _, ⟨rfl, rfl, rfl, rfl⟩⟩
        obtain rfl := Option.some.inj same
        exact ⟨absent, List.mem_map.mpr ⟨a, List.mem_of_find?_eq_some runs, by simpa using List.find?_some runs⟩⟩
    · exact done (s.acts_compensate _ _ _ _).bypasses

/-- An action that is taken up from among those that do not run yet is new to the calls. -/
theorem Hosted.takeUp (hosted : s.Hosted) {host : Host Work} {action : Nat} (idle : s.host.running? action = none)
    (running : ∀ a ∈ s.host.running, a ∈ host.running) :
    (System.runAction { s with host := host } action).2.Hosted ∧
      s.Stands (System.runAction { s with host := host } action).2 := by
  have taken : System.Hosted { s with host := host } := by
    refine hosted.of_calls rfl rfl rfl fun number member => ?_
    obtain ⟨a, runs, rfl⟩ := List.mem_map.mp (hosted.runs number member)
    exact List.mem_map_of_mem (running a runs)
  have absent : action ∉ s.calling := by
    intro member
    obtain ⟨a, runs, same⟩ := List.mem_map.mp (hosted.runs action member)
    have other := List.find?_eq_none.mp idle a runs
    exact other (by simpa using same)
  obtain ⟨hosted', stands⟩ := Hosted.runAction taken absent
  exact ⟨hosted', ⟨stands.listening, stands.released, stands.sweepers, stands.settings⟩⟩

theorem running_start (h : Host Work) (action : Nat) : ∀ a ∈ h.running, a ∈ (h.start action).running := by
  intro a member
  unfold Host.start
  split
  · exact member
  · simp only
    split
    · exact List.mem_append_left _ member
    · split
      · exact List.mem_append_left _ member
      · exact member

theorem running_resume (h : Host Work) (action : Nat) : ∀ a ∈ h.running, a ∈ (h.resume action).running := by
  intro a member
  unfold Host.resume
  split
  · exact member
  · exact List.mem_append_left _ member

/-- When a processor has answered, its call is over, and so is the action that it was part of. -/
theorem Hosted.endCall (hosted : s.Hosted) (number : Nat) (kind : CallKind) (attempt : Attempt kind.Value) :
    (s.endCall number kind attempt).2.Hosted ∧ s.Stands (s.endCall number kind attempt).2 := by
  unfold System.endCall
  split
  · exact ⟨hosted, .refl s⟩
  · next call pending =>
    have named : call.number = number := by simpa using List.find?_some pending
    have apart : s.calling.Perm (call.action.toList ++ (s.dropCall number).calling) := by
      have perm := (perm_cons_filter hosted.apart (List.mem_of_find?_eq_some pending)).filterMap ProcessorCall.action
      rw [named, List.filterMap_cons] at perm
      cases action : call.action <;> rw [action] at perm <;> exact perm
    have split := List.nodup_append.mp (apart.nodup_iff.mp hosted.distinct)
    have dropped : (s.dropCall number).Hosted :=
      ⟨hosted.apart.sublist (List.filter_sublist.map _), fun call member =>
        hosted.issued call (List.mem_of_mem_filter member), fun call member =>
        hosted.own call (List.mem_of_mem_filter member), split.2.1, fun other member =>
        hosted.runs other (apart.mem_iff.mpr (List.mem_append_right _ member))⟩
    have done {t : System} (bypasses : (s.dropCall number).Bypasses t) :
        (t.finishCall call).Hosted ∧ s.Stands (t.finishCall call) := by
      have calling : t.calling = (s.dropCall number).calling := by rw [System.calling, bypasses.calls]; rfl
      have stands : s.Stands t := ⟨bypasses.listening, bypasses.released, bypasses.sweepers, bypasses.settings⟩
      unfold finishCall
      cases action : call.action with
      | none => exact ⟨bypasses.hosted dropped, stands⟩
      | some own =>
        refine ⟨(bypasses.hosted dropped).finishAction fun among => ?_, stands.trans (t.stands_finishAction own)⟩
        rw [calling] at among
        exact split.2.2 own (by simp [action]) own among rfl
    simp only
    split
    · next task ended _ => exact done ((s.dropCall number).acts_endProcess call task ended).bypasses
    · next task ended _ => exact done ((s.dropCall number).acts_endRequest call task ended).bypasses
    · next task _ ended _ => exact done ((s.dropCall number).acts_endRespond call task ended).bypasses
    · exact ⟨hosted, .refl s⟩

end TaskLeasing.System

namespace TaskLeasing

/-- Whether a move sets what no part of the dispatcher sets. -/
def Move.sets : Move → Bool
  | .attach => true
  | .setWorkerId _ => true
  | .setLockTimeout _ => true
  | .release => true
  | .holdSweeper => true
  | .dropSweeper => true
  | _ => false

namespace System

variable {s : System}

/-- Whatever moves, while the name stays, each call of a processor that is part of an action has it running, and is the
only one. -/
theorem Hosted.step (hosted : s.Hosted) (numbered : s.host.Numbered) (move : Move)
    (named : ∀ worker, move = .setWorkerId worker → worker = s.settings.workerId) :
    (s.step move).2.Hosted ∧ (move.sets = false → s.Stands (s.step move).2) := by
  have plain {t : System} (upholds : s.Upholds t) : t.Hosted ∧ (move.sets = false → s.Stands t) :=
    ⟨upholds.hosted hosted, fun _ => upholds.stands⟩
  cases move with
  | operate kind operation => exact plain (s.bypasses_operate operation).upholds
  | setHandler type fails => exact plain (Bypasses.upholds ⟨⟨rfl, rfl, rfl, rfl⟩, rfl, rfl, rfl⟩)
  | attach => exact ⟨hosted.of_calls rfl rfl rfl hosted.runs, fun sets => by cases sets⟩
  | register definitionKey topic lockTimeout vars contract =>
    exact plain (s.bypasses_register definitionKey topic lockTimeout vars contract).upholds
  | sweep => exact plain s.acts_sweep.bypasses.upholds
  | dispatch key => exact plain (s.bypasses_dispatch key).upholds
  | process task =>
    rw [step_process]
    exact plain (s.upholds_process task)
  | respond task input =>
    rw [step_respond]
    exact plain (s.upholds_respond task input)
  | fireWatchdog payload => exact plain (s.acts_fireWatchdog payload).bypasses.upholds
  | setWorkerId worker => exact ⟨hosted.of_calls rfl rfl (named worker rfl) hosted.runs, fun sets => by cases sets⟩
  | setLockTimeout timeout =>
    refine ⟨?_, fun sets => by cases sets⟩
    simp only [System.step]
    split
    · next settings changed => exact hosted.of_calls rfl rfl (setLockTimeout_workerId changed) hosted.runs
    · exact hosted
  | release => exact ⟨hosted.of_calls rfl rfl rfl hosted.runs, fun sets => by cases sets⟩
  | holdSweeper => exact ⟨hosted.of_calls rfl rfl rfl hosted.runs, fun sets => by cases sets⟩
  | dropSweeper => exact ⟨hosted.of_calls rfl rfl rfl hosted.runs, fun sets => by cases sets⟩
  | answer number kind attempt =>
    obtain ⟨hosted', stands⟩ := hosted.endCall number kind attempt
    exact ⟨hosted', fun _ => stands⟩
  | start action =>
    simp only [System.step]
    split
    · next found =>
      obtain ⟨a, member, number⟩ := List.any_eq_true.mp found
      obtain rfl : a.number = action := by simpa using number
      have idle := numbered.idle_of_count (Nat.add_pos_left (List.count_pos_iff.mpr (List.mem_map_of_mem member)) _)
      obtain ⟨hosted', stands⟩ := hosted.takeUp idle (running_start s.host a.number)
      exact ⟨hosted', fun _ => stands⟩
    · exact ⟨hosted, fun _ => .refl s⟩
  | resume action =>
    simp only [System.step]
    split
    · next found =>
      obtain ⟨a, member, number⟩ := List.any_eq_true.mp found
      obtain rfl : a.number = action := by simpa using number
      have idle := numbered.idle_of_count (Nat.add_pos_right _ (List.count_pos_iff.mpr (List.mem_map_of_mem member)))
      obtain ⟨hosted', stands⟩ := hosted.takeUp idle (running_resume s.host a.number)
      exact ⟨hosted', fun _ => stands⟩
    · exact ⟨hosted, fun _ => .refl s⟩
  | wake action =>
    simp only [System.step]
    split
    · exact ⟨hosted, fun _ => .refl s⟩
    · exact plain ((s.bypasses_wake action).trans (bypasses_note _ _)).upholds
  | commit => exact plain s.bypasses_commit.upholds
  | runJob job => exact plain (s.bypasses_runJob job).upholds
  | passTo time => exact plain (Bypasses.upholds ⟨⟨rfl, rfl, rfl, rfl⟩, rfl, rfl, rfl⟩)

end System

end TaskLeasing
