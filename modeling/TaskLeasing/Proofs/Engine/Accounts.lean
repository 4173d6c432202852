import TaskLeasing.Proofs.Engine.Endings

namespace TaskLeasing.Engine

/-- The ends of a task that moves bring about. -/
def endsOf (e : Engine) (task : String) (moves : List EngineMove) : List TaskEnd := e.trace (endingOf? task) moves

/-- The workers that moves lease a task to, the latest last. -/
def lesseesOf (e : Engine) (task : String) (moves : List EngineMove) : List String := e.trace (lesseeOf? task) moves

theorem endsOf_concat (e : Engine) (task : String) (before : List EngineMove) (move : EngineMove) :
    e.endsOf task (before ++ [move]) = e.endsOf task before ++ (endingOf? task (e.run before) move).toList :=
  trace_concat _ e before move

theorem lesseesOf_concat (e : Engine) (task : String) (before : List EngineMove) (move : EngineMove) :
    e.lesseesOf task (before ++ [move]) = e.lesseesOf task before ++ (lesseeOf? task (e.run before) move).toList :=
  trace_concat _ e before move

/-- What an engine knows of a task agrees with what has happened to it: the owner of the open task is its last
lessee, a task that has ended is not open and has ended once, and its completion is kept. Nothing has happened
under a name that was not brought. -/
structure Accounts (e : Engine) (task : String) (names : List FreshNames) (lessees : List String)
    (ends : List TaskEnd) : Prop where
  owner : ∀ record ∈ e.tasks, record.task.id = task → record.task.worker = lessees.getLast?
  once : ends.length ≤ 1
  closed : ends ≠ [] → ∀ record ∈ e.tasks, record.task.id ≠ task
  named : lessees ≠ [] ∨ ends ≠ [] → ∃ given ∈ names, given.task = task
  completed : e.completionOf? task = ends.head?.bind TaskEnd.vars?

theorem accounts_empty (task : String) : empty.Accounts task [] [] [] where
  owner := by simp [empty]
  once := Nat.zero_le _
  closed := by simp
  named := by simp
  completed := rfl

theorem completionOf?_recordCompletion (e : Engine) (task other : String) (vars : Variables) :
    (e.recordCompletion task vars).completionOf? other =
      if other = task then some vars else e.completionOf? other := by
  unfold completionOf? recordCompletion
  rw [List.find?_append]
  by_cases same : other = task
  · subst same
    have none' : (e.completions.filter fun done => decide (done.1 ≠ other)).find?
        (fun done => decide (done.1 = other)) = none := by
      refine List.find?_eq_none.mpr fun done member => ?_
      simpa using (List.mem_filter.mp member).2
    rw [none']
    simp
  · have kept : (e.completions.filter fun done => decide (done.1 ≠ task)).find?
        (fun done => decide (done.1 = other)) = e.completions.find? fun done => decide (done.1 = other) := by
      rw [List.find?_filter]
      congr 1
      funext done
      by_cases is : done.1 = other <;> simp [is, same]
    rw [kept, if_neg same]
    cases e.completions.find? fun done => decide (done.1 = other) <;> simp [Ne.symm same]

namespace Accounts

variable {e after : Engine} {task : String} {names : List FreshNames} {lessees : List String} {ends : List TaskEnd}

/-- What leaves the owner of a task and its completion alone leaves the accounts right; a task may be opened
under a new name. -/
theorem stays (accounts : e.Accounts task names lessees ends) {fresh : FreshNames}
    (apart : ∀ given ∈ names, given.Apart fresh) (completions : after.completionOf? task = e.completionOf? task)
    (records : ∀ record ∈ after.tasks, record.task.id = task →
      (∃ old ∈ e.tasks, old.task.id = task ∧ record.task.worker = old.task.worker) ∨
        (fresh.task = task ∧ record.task.worker = none)) :
    after.Accounts task (names ++ [fresh]) lessees ends := by
  -- nothing has happened under a name that is new
  have nothing (new : fresh.task = task) : lessees = [] ∧ ends = [] := by
    by_contra some'
    obtain ⟨given, atGiven, same⟩ := accounts.named (Decidable.not_and_iff_or_not.mp some')
    exact (apart given atGiven).task (same.trans new.symm)
  refine ⟨fun record member idEq => ?_, accounts.once, fun ended record member idEq => ?_, fun some' => ?_,
    completions.trans accounts.completed⟩
  · rcases records record member idEq with ⟨old, atOld, idOld, owner⟩ | ⟨new, unowned⟩
    · rw [owner]
      exact accounts.owner old atOld idOld
    · rw [(nothing new).1]
      exact unowned
  · rcases records record member idEq with ⟨old, atOld, idOld, _⟩ | ⟨new, _⟩
    · exact accounts.closed ended old atOld idOld
    · exact ended (nothing new).2
  · obtain ⟨given, atGiven, same⟩ := accounts.named some'
    exact ⟨given, List.mem_append_left _ atGiven, same⟩

/-- The calls that write nothing into records. -/
theorem plain (accounts : e.Accounts task names lessees ends) {fresh : FreshNames}
    (apart : ∀ given ∈ names, given.Apart fresh) (now : Instant) {kind : AnswerKind} {operation : Operation kind}
    (plain : operation.isPlain = true)
    (completions : (e.step now fresh operation).engine.completionOf? task = e.completionOf? task) :
    (e.step now fresh operation).engine.Accounts task (names ++ [fresh]) lessees ends := by
  obtain ⟨_, ordinary, _⟩ := ordinary_step e now fresh plain
  refine accounts.stays apart completions fun record member idEq => ?_
  rcases ordinary.records record member with old | opened
  · exact .inl ⟨record, old.1, idEq, rfl⟩
  · exact .inr ⟨opened.1.id.symm.trans idEq, opened.1.unowned⟩

/-- A lease that returns the task hands it over to the worker. -/
theorem lease (accounts : e.Accounts task names lessees ends) (known : e.NamedBy names) {fresh : FreshNames}
    (apart : ∀ given ∈ names, given.Apart fresh) (now : Instant) (request : LeaseRequest) :
    (e.lease now request).engine.Accounts task (names ++ [fresh])
      (lessees ++ (e.lesseeOf? task (.call now fresh (.lease request))).toList) ends := by
  cases result : (e.lease now request).result with
  | error reason =>
    rw [lease_refused result, lesseeOf?_refused result, Option.toList_none, List.append_nil]
    exact accounts.stays apart rfl fun record member idEq => .inl ⟨record, member, idEq, rfl⟩
  | ok tasks =>
    obtain ⟨expiry, available, accepted, rfl⟩ := lease_ok result
    rw [lesseeOf?_answered result, lease_eq available accepted]
    have returned : task ∈ ((e.chosenFor now request).map (e.handOver request expiry)).map LeasedTask.id ↔
        task ∈ (e.chosenFor now request).map fun r => r.task.id := by
      rw [List.map_map]
      rfl
    by_cases chosen : task ∈ (e.chosenFor now request).map fun r => r.task.id
    · rw [if_pos (returned.mpr chosen), Option.toList_some]
      refine ⟨fun record member idEq => ?_, accounts.once, fun ended => ?_, fun _ => ?_, accounts.completed⟩
      · obtain ⟨old, atOld, rfl⟩ := List.mem_map.mp member
        rw [List.getLast?_concat]
        split at idEq
        · next among => rw [if_pos among]; rfl
        · next spared => exact absurd (idEq ▸ chosen) spared
      · obtain ⟨own, atOwn, idOwn⟩ := List.mem_map.mp chosen
        exact absurd idOwn (accounts.closed ended own (mem_chosenFor atOwn).1)
      · obtain ⟨own, atOwn, idOwn⟩ := List.mem_map.mp chosen
        obtain ⟨given, atGiven, same⟩ := known.tasks own (mem_chosenFor atOwn).1
        exact ⟨given, List.mem_append_left _ atGiven, same.symm.trans idOwn⟩
    · rw [if_neg (mt returned.mp chosen), Option.toList_none, List.append_nil]
      refine accounts.stays apart rfl fun record member idEq => .inl ?_
      obtain ⟨old, atOld, rfl⟩ := List.mem_map.mp member
      split at idEq
      · next among => exact absurd (idEq ▸ among) chosen
      · next spared => exact ⟨old, atOld, idEq, by rw [if_neg spared]⟩

/-- A report of a failure does not touch the owner. -/
theorem failure (accounts : e.Accounts task names lessees ends) {fresh : FreshNames}
    (apart : ∀ given ∈ names, given.Apart fresh) (now : Instant) (id worker : String) (report : FailureReport) :
    (e.reportFailure now fresh.incident id worker report).engine.Accounts task (names ++ [fresh]) lessees ends := by
  refine accounts.stays apart ?_ fun record member idEq => .inl ?_
  · simp only [completionOf?, reportFailure_completions]
  · cases result : (e.reportFailure now fresh.incident id worker report).result with
    | error reason =>
      rw [reportFailure_refused result] at member
      exact ⟨record, member, idEq, rfl⟩
    | ok _ =>
      obtain ⟨expiry, owned, available, accepted, own⟩ := reportFailure_ok result
      have tasks : (e.reportFailure now fresh.incident id worker report).engine.tasks =
          (e.modifyRecord id fun r => r.fail report expiry).tasks := by
        rw [reportFailure_eq available accepted own]
        split <;> rfl
      rw [tasks] at member
      obtain ⟨old, atOld, rfl⟩ := List.mem_map.mp member
      split at idEq
      · next same => exact ⟨old, atOld, idEq, by rw [if_pos same]; rfl⟩
      · next other => exact ⟨old, atOld, idEq, by rw [if_neg other]⟩

/-- A call that asks for the end of some task ends this one only if it was open. -/
theorem ended (accounts : e.Accounts task names lessees ends) (sound : e.Sound none) (known : e.NamedBy names)
    {fresh : FreshNames} (apart : ∀ given ∈ names, given.Apart fresh) (now : Instant) {kind : AnswerKind}
    {operation : Operation kind} (isPlain : operation.isPlain = true) {id : String} {ending : TaskEnd}
    (asked : operation.ending? id = some ending) :
    (e.step now fresh operation).engine.Accounts task (names ++ [fresh]) lessees
      (ends ++ (endingOf? task e (.call now fresh operation)).toList) := by
  obtain ⟨worker, _, decided⟩ := sound.decides now (known.newTo apart) asked
  rcases decided with ⟨accepted, closes⟩ | ⟨refused, _, ledger⟩
  · rw [endingOf?_accepted accepted]
    have completions : (e.step now fresh operation).engine.completionOf? task =
        ending.vars?.elim (e.completionOf? task) fun vars => if task = id then some vars else e.completionOf? task := by
      unfold completionOf?
      rw [closes.completions]
      cases ending with
      | completed vars => exact completionOf?_recordCompletion e id task vars
      | erred code => rfl
    by_cases own : id = task
    · subst own
      obtain ⟨record, owned⟩ := closes.owned
      obtain ⟨isOpen, idEq, _⟩ := ownedRecord_ok owned
      obtain rfl : ends = [] := by
        by_contra before
        exact accounts.closed before record isOpen idEq
      rw [asked, Option.toList_some, List.nil_append]
      refine ⟨fun other member same => absurd same (closes.gone other member), Nat.le_refl _, fun _ => closes.gone,
        fun _ => ?_, ?_⟩
      · obtain ⟨given, atGiven, same⟩ := known.tasks record isOpen
        exact ⟨given, List.mem_append_left _ atGiven, same.symm.trans idEq⟩
      · rw [completions, accounts.completed]
        cases ending with
        | completed vars => simp [TaskEnd.vars?]
        | erred code => rfl
    · rw [Operation.ending?_other asked own, Option.toList_none, List.append_nil]
      refine accounts.plain apart now isPlain (completions.trans ?_)
      cases ending with
      | completed vars => exact if_neg (Ne.symm own)
      | erred code => rfl
  · rw [endingOf?_refused refused, Option.toList_none, List.append_nil]
    exact accounts.plain apart now isPlain (by simp only [completionOf?, ledger.completions])

/-- One move, which brings names of its own. -/
theorem take (accounts : e.Accounts task names lessees ends) (sound : e.Sound none) (known : e.NamedBy names)
    {move : EngineMove} (apart : ∀ fresh ∈ namesOf [move], ∀ given ∈ names, given.Apart fresh) :
    (e.take move).Accounts task (names ++ namesOf [move]) (lessees ++ (lesseeOf? task e move).toList)
      (ends ++ (endingOf? task e move).toList) := by
  cases move with
  | endJob job =>
    simp only [namesOf, List.filterMap_cons, EngineMove.names?, List.filterMap_nil, lesseeOf?, endingOf?,
      Option.toList_none, List.append_nil]
    exact ⟨accounts.owner, accounts.once, accounts.closed, accounts.named, accounts.completed⟩
  | call now fresh operation =>
    have new := apart fresh (List.mem_singleton_self fresh)
    change (e.step now fresh operation).engine.Accounts task (names ++ [fresh]) _ _
    -- all calls but leases show no lessee, and all but completions and business errors no end
    have unasked {lessees' : List String} {kind : AnswerKind} {operation : Operation kind}
        (none' : operation.ending? task = none)
        (kept : (e.step now fresh operation).engine.Accounts task (names ++ [fresh]) lessees' ends) :
        (e.step now fresh operation).engine.Accounts task (names ++ [fresh]) lessees'
          (ends ++ (endingOf? task e (.call now fresh operation)).toList) := by
      rwa [endingOf?_unasked none', Option.toList_none, List.append_nil]
    have unleased {ends' : List TaskEnd} {after : Engine}
        (kept : after.Accounts task (names ++ [fresh]) lessees ends') :
        after.Accounts task (names ++ [fresh]) (lessees ++ (none : Option String).toList) ends' := by
      rwa [Option.toList_none, List.append_nil]
    have quiet {kind : AnswerKind} {operation : Operation kind} (isPlain : operation.isPlain = true)
        (untold : operation.toldBy? = none) :
        (e.step now fresh operation).engine.Accounts task (names ++ [fresh]) lessees ends :=
      accounts.plain new now isPlain
        (by simp only [completionOf?, (sameLedger_step e now fresh untold).completions])
    cases operation with
    | lease request => exact unasked rfl (accounts.lease known new now request)
    | failure id worker report => exact unasked rfl (unleased (accounts.failure new now id worker report))
    | complete id worker vars => exact unleased (accounts.ended sound known new now rfl (if_pos (Eq.refl id)))
    | businessError id worker code message vars =>
      exact unleased (accounts.ended sound known new now rfl (if_pos (Eq.refl id)))
    | deploy definition =>
      have ledger : e.SameLedger (e.step now fresh (.deploy definition)).engine := sameLedger_step e now fresh rfl
      refine unasked rfl (unleased (accounts.stays new ?_ fun record member idEq => .inl ⟨record, ?_, idEq, rfl⟩))
      · simp only [completionOf?, ledger.completions]
      · exact (deploy_rest e definition).2.1 ▸ member
    | setAvailable available =>
      exact unasked rfl (unleased
        (accounts.stays new rfl fun record member idEq => .inl ⟨record, member, idEq, rfl⟩))
    | _ => exact unasked rfl (unleased (quiet rfl rfl))

/-- Whoever is not the last lessee is not let at the task. -/
theorem barred (accounts : e.Accounts task names lessees ends) {worker : String}
    (other : lessees.getLast? ≠ some worker) : ∃ reason, e.ownedRecord task worker = .error reason := by
  cases owned : e.ownedRecord task worker with
  | error reason => exact ⟨reason, rfl⟩
  | ok record =>
    obtain ⟨member, idEq, owner⟩ := ownedRecord_ok owned
    exact absurd ((accounts.owner record member idEq).symm.trans owner) other

/-- The completion that the engine keeps is the one that has happened. -/
theorem completed_iff (accounts : e.Accounts task names lessees ends) (vars : Variables) :
    .completed vars ∈ ends ↔ e.completionOf? task = some vars := by
  rw [accounts.completed]
  match ends, accounts.once with
  | [], _ => simp
  | [.completed other], _ => simp [TaskEnd.vars?, eq_comm]
  | [.erred code], _ => simp [TaskEnd.vars?]
  | _ :: _ :: _, once => simp at once

end Accounts

/-- After every run in which no name is brought twice, what the engine knows of a task agrees with what has
happened to it. -/
theorem accounts_run (task : String) {moves : List EngineMove} (fresh : FreshMoves moves) :
    (empty.run moves).Accounts task (namesOf moves) (empty.lesseesOf task moves) (empty.endsOf task moves) := by
  induction moves using List.reverseRecOn with
  | nil => exact accounts_empty task
  | append_singleton before move ih =>
    obtain ⟨sound, known⟩ := run_sound fresh.left
    rw [run_append, run_cons, run_nil, namesOf_append, lesseesOf_concat, endsOf_concat]
    exact (ih fresh.left).take sound known fun names atNames given atGiven => fresh.apart atGiven atNames

/-- Whatever follows, the ends of a task that has ended stay as they are. -/
theorem endsOf_append {task : String} {moves more : List EngineMove} (fresh : FreshMoves (moves ++ more))
    (ended : empty.endsOf task moves ≠ []) : empty.endsOf task (moves ++ more) = empty.endsOf task moves := by
  have once := (accounts_run task fresh).once
  have before : 0 < (empty.endsOf task moves).length := List.length_pos_iff.mpr ended
  unfold endsOf at once before ⊢
  rw [trace_append] at once ⊢
  rw [List.length_append] at once
  rw [List.eq_nil_of_length_eq_zero (by omega : ((empty.run moves).trace (endingOf? task) more).length = 0),
    List.append_nil]

end TaskLeasing.Engine
