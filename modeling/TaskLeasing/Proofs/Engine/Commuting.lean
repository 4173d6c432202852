import TaskLeasing.Proofs.Engine.Patches

namespace TaskLeasing

namespace Patch

variable {p q : Patch}

theorem onRecord_id {record next : TaskRecord} (left : p.onRecord record = some next) : next.task.id = record.task.id :=
  (onRecord_sameTask left).id

/-- What a patch makes of a record of another task stays out of reach as the record does. -/
theorem bind_onRecord {record : TaskRecord} (other : record.task.id ≠ q.task) :
    (p.onRecord record).bind q.onRecord = p.onRecord record := by
  cases left : p.onRecord record with
  | none => rfl
  | some next => exact onRecord_other (onRecord_id left ▸ other)

theorem onRecord_comm (apart : p.task ≠ q.task) (record : TaskRecord) :
    (p.onRecord record).bind q.onRecord = (q.onRecord record).bind p.onRecord := by
  by_cases own : record.task.id = q.task
  · have other : record.task.id ≠ p.task := fun same => apart (same.symm.trans own)
    rw [bind_onRecord other, onRecord_other other, Option.bind_some]
  · rw [bind_onRecord own, onRecord_other own, Option.bind_some]

theorem onRun_other {run : ProcessInstance} (other : run.id ≠ p.owner) : p.onRun run = run := if_neg other

theorem onRun_comm (apart : p.owner ≠ q.owner) (run : ProcessInstance) :
    q.onRun (p.onRun run) = p.onRun (q.onRun run) := by
  by_cases own : run.id = q.owner
  · have other : run.id ≠ p.owner := fun same => apart (same.symm.trans own)
    rw [onRun_other other, onRun_other (p := p) (by rwa [onRun_id])]
  · rw [onRun_other own, onRun_other (p := q) (by rwa [onRun_id])]

theorem onIncident_other {i : Incident} (other : i.task ≠ p.task) : p.onIncident i = i := by
  simp [onIncident, other]

theorem onIncident_comm (i : Incident) : q.onIncident (p.onIncident i) = p.onIncident (q.onIncident i) := by
  change (i.closeIf (p.resolves && i.task = p.task)).closeIf (q.resolves && i.task = q.task) =
    (i.closeIf (q.resolves && i.task = q.task)).closeIf (p.resolves && i.task = p.task)
  rw [Incident.closeIf_closeIf, Incident.closeIf_closeIf, Bool.or_comm]

/-- The records that a patch adds, after as many tasks as were created before it. -/
def added (p : Patch) (sequence : Nat) : List TaskRecord :=
  p.opened.toList.map fun task => ⟨task, .none, sequence + 1⟩

theorem added_sequence {sequence : Nat} {record : TaskRecord} (member : record ∈ p.added sequence) :
    record.sequence = sequence + 1 := by
  obtain ⟨task, _, rfl⟩ := List.mem_map.mp member
  rfl

/-- But for its sequence number, what a patch adds does not depend on what was created before. -/
theorem added_unnumbered (p : Patch) (sequence : Nat) :
    ((p.added sequence).map fun record => (record.task, record.errorDetails)) =
      p.opened.toList.map fun task => (task, .none) := by
  rw [added, List.map_map]
  rfl

theorem added_stay (other : ∀ opened ∈ p.opened, opened.id ≠ q.task) (sequence : Nat) :
    (p.added sequence).filterMap q.onRecord = p.added sequence := by
  cases opened : p.opened with
  | none => simp [added, opened]
  | some task =>
    have apart : task.id ≠ q.task := other task (by simp [opened])
    simp [added, opened, onRecord, apart]

theorem raised_stay (apart : p.task ≠ q.task) : p.raised.toList.map q.onIncident = p.raised.toList := by
  cases raised : p.raised with
  | none => rfl
  | some i =>
    have own : i.task = p.task := p.raised_own i (by simp [raised])
    simp [onIncident_other (p := q) (own ▸ apart)]

end Patch

namespace Engine

variable {e : Engine} {p q : Patch}

theorem record?_patch {task : String} (apart : task ≠ p.task) (opened : ∀ opened ∈ p.opened, opened.id ≠ task) :
    (e.patch p).record? task = e.record? task := by
  have new : (p.added e.sequence).find? (fun record => record.task.id = task) = none := by
    refine List.find?_eq_none.mpr fun record member => ?_
    obtain ⟨target, atTarget, rfl⟩ := List.mem_map.mp member
    simpa using opened target (by simpa using atTarget)
  have seen : (fun record => (p.onRecord record).any fun next => decide (next.task.id = task)) =
      fun record => decide (record.task.id = task) := by
    funext record
    by_cases own : record.task.id = task
    · rw [Patch.onRecord_other (own ▸ apart)]
      rfl
    · cases left : p.onRecord record with
      | none => simp [own]
      | some next => simp [Patch.onRecord_id left]
  have kept : (e.tasks.filterMap p.onRecord).find? (fun record => record.task.id = task) = e.record? task := by
    rw [List.find?_filterMap, seen]
    cases found : e.tasks.find? (fun record => record.task.id = task) with
    | none => exact found.symm
    | some record =>
      have own : record.task.id = task := by simpa using List.find?_some found
      rw [Option.bind_some, Patch.onRecord_other (own ▸ apart)]
      exact found.symm
  change (e.tasks.filterMap p.onRecord ++ p.added e.sequence).find? _ = _
  rw [List.find?_append, new, Option.or_none, kept]

theorem instance?_patch {owner : String} (apart : owner ≠ p.owner) :
    (e.patch p).instance? owner = e.instance? owner := by
  have mapped : (e.patch p).instance? owner = (e.instance? owner).map p.onRun := instance?_map rfl p.onRun_id owner
  rw [mapped]
  cases found : e.instance? owner with
  | none => rfl
  | some run =>
    have own : run.id = owner := by simpa using List.find?_some found
    rw [Option.map_some, Patch.onRun_other (own ▸ apart)]

theorem hasOpenIncident_patch {task : String} (apart : task ≠ p.task) :
    (e.patch p).hasOpenIncident task = e.hasOpenIncident task := by
  have raised : (p.raised.toList.any fun i => decide (i.task = task ∧ ¬ i.resolved)) = false := by
    refine List.any_eq_false.mpr fun i member => ?_
    have own := p.raised_own i (by simpa using member)
    simp [own, apart.symm]
  have kept : ((e.incidents.map p.onIncident).any fun i => decide (i.task = task ∧ ¬ i.resolved)) =
      e.hasOpenIncident task := by
    rw [List.any_map]
    refine congrArg e.incidents.any (funext fun i => ?_)
    by_cases own : i.task = task
    · rw [Function.comp_apply, Patch.onIncident_other (own ▸ apart)]
    · simp [Patch.onIncident, Incident.closeIf, own]
  change ((e.incidents.map p.onIncident ++ p.raised.toList).any _) = _
  rw [List.any_append, raised, kept, Bool.or_false]

/-- A patch of one task and its instance is not seen from another task of another instance. -/
theorem alikeFor_patch {task owner : String} (tasks : task ≠ p.task) (owners : owner ≠ p.owner)
    (opened : ∀ opened ∈ p.opened, opened.id ≠ task) : e.AlikeFor (e.patch p) task owner where
  available := rfl
  definitions := rfl
  record := record?_patch tasks opened
  run := instance?_patch owners
  refusals := by
    unfold patch
    simp only
    split
    · simp [tasks]
    · rfl
  incident := hasOpenIncident_patch tasks

theorem completionOf?_patch (e : Engine) (p : Patch) (task : String) :
    (e.patch p).completionOf? task = if task = p.task then p.completed.or (e.completionOf? task)
      else e.completionOf? task := by
  have same : (e.patch p).completionOf? task =
      (p.completed.elim e fun vars => e.recordCompletion p.task vars).completionOf? task := by
    cases completed : p.completed <;> simp [completionOf?, patch, completed]
  rw [same]
  cases p.completed with
  | none => simp
  | some vars => simp [completionOf?_recordCompletion]

theorem tasks_patch_patch (opened : ∀ opened ∈ p.opened, opened.id ≠ q.task) :
    ((e.patch p).patch q).tasks = (e.tasks.filterMap fun record => (p.onRecord record).bind q.onRecord) ++
      (p.added e.sequence ++ q.added (e.sequence + p.opened.toList.length)) := by
  have stay := Patch.added_stay opened e.sequence
  unfold Patch.added at stay
  simp only [patch, List.filterMap_append, List.filterMap_filterMap, stay, List.append_assoc, Patch.added]

theorem incidents_patch_patch (apart : p.task ≠ q.task) :
    ((e.patch p).patch q).incidents = (e.incidents.map fun i => q.onIncident (p.onIncident i)) ++
      (p.raised.toList ++ q.raised.toList) := by
  simp only [patch, List.map_append, List.map_map, Patch.raised_stay apart, List.append_assoc]
  rfl

theorem refusals_patch_patch (e : Engine) (p q : Patch) :
    ((e.patch p).patch q).refusals = ((e.patch q).patch p).refusals := by
  simp only [patch]
  cases p.refuses <;> cases q.refuses <;> simp [List.filter_filter, Bool.and_comm]

theorem completions_patch_patch (e : Engine) (apart : p.task ≠ q.task) :
    ((e.patch p).patch q).completions.Perm ((e.patch q).patch p).completions := by
  simp only [patch]
  cases p.completed with
  | none => cases q.completed <;> exact .refl _
  | some vars =>
    cases q.completed with
    | none => exact .refl _
    | some others =>
      have kept :
          (e.completions.filter fun done => decide (done.1 ≠ p.task)).filter (fun done => decide (done.1 ≠ q.task)) =
          (e.completions.filter fun done => decide (done.1 ≠ q.task)).filter fun done => decide (done.1 ≠ p.task) := by
        simp only [List.filter_filter, Bool.and_comm]
      simp only [Option.elim_some, recordCompletion, List.filter_append, kept, List.append_assoc]
      refine List.Perm.append_left _ ?_
      simp only [List.filter_cons, List.filter_nil, ne_eq, apart, apart.symm, not_false_eq_true, decide_true, if_true]
      exact List.Perm.swap _ _ []

end Engine

/-- Two engines that came of one in different orders: all is the same, but that the tasks created since then may have
each other's sequence numbers, and the incidents raised since then, like the completions kept, may stand in another
order. -/
structure Engine.AlikeSince (e first second : Engine) : Prop where
  available : second.available = first.available
  definitions : second.definitions = first.definitions
  instances : second.instances = first.instances
  jobs : second.jobs = first.jobs
  refusals : second.refusals = first.refusals
  sequence : second.sequence = first.sequence
  tasks : ∃ kept created created', first.tasks = kept ++ created ∧ second.tasks = kept ++ created' ∧
    (∀ record ∈ kept, record.sequence ≤ e.sequence) ∧ (∀ record ∈ created ++ created', e.sequence < record.sequence) ∧
    (created.map fun record => (record.task, record.errorDetails)).Perm
      (created'.map fun record => (record.task, record.errorDetails))
  incidents : ∃ kept raised raised', first.incidents = kept ++ raised ∧ second.incidents = kept ++ raised' ∧
    kept.length = e.incidents.length ∧ raised.Perm raised'
  completions : first.completions.Perm second.completions
  completionOf? : ∀ task, second.completionOf? task = first.completionOf? task

namespace Engine

variable {e : Engine} {p q : Patch}

/-- Patches of tasks of different instances can be made in either order. -/
theorem alikeSince_patch (counted : ∀ record ∈ e.tasks, record.sequence ≤ e.sequence) (tasks : p.task ≠ q.task)
    (owners : p.owner ≠ q.owner) (openedP : ∀ opened ∈ p.opened, opened.id ≠ q.task)
    (openedQ : ∀ opened ∈ q.opened, opened.id ≠ p.task) :
    e.AlikeSince ((e.patch p).patch q) ((e.patch q).patch p) where
  available := rfl
  definitions := rfl
  instances := by
    simp only [patch, List.map_map]
    exact List.map_congr_left fun run _ => (Patch.onRun_comm owners run).symm
  jobs := rfl
  refusals := refusals_patch_patch e q p
  sequence := by
    simp only [patch]
    omega
  tasks := by
    have same : (fun record => (q.onRecord record).bind p.onRecord) =
        fun record => (p.onRecord record).bind q.onRecord :=
      funext fun record => (Patch.onRecord_comm tasks record).symm
    refine ⟨_, _, _, tasks_patch_patch openedP, same ▸ tasks_patch_patch openedQ, ?_, ?_, ?_⟩
    · intro record member
      obtain ⟨old, atOld, left⟩ := List.mem_filterMap.mp member
      obtain ⟨middle, first, last⟩ := Option.bind_eq_some_iff.mp left
      have before := counted old atOld
      rw [← (Patch.onRecord_sameTask first).sequence, ← (Patch.onRecord_sameTask last).sequence] at before
      exact before
    · intro record member
      simp only [List.mem_append] at member
      rcases member with (new | new) | new | new
      all_goals
        have := Patch.added_sequence new
        omega
    · simp only [List.map_append, Patch.added_unnumbered]
      exact List.perm_append_comm
  incidents := by
    have same : (fun i => p.onIncident (q.onIncident i)) = fun i => q.onIncident (p.onIncident i) :=
      funext fun i => Patch.onIncident_comm i
    refine ⟨_, _, _, incidents_patch_patch tasks, same ▸ incidents_patch_patch tasks.symm, ?_, ?_⟩
    · rw [List.length_map]
    · exact List.perm_append_comm
  completions := completions_patch_patch e tasks
  completionOf? := by
    intro task
    rw [completionOf?_patch, completionOf?_patch, completionOf?_patch, completionOf?_patch]
    by_cases first : task = p.task
    · have other : task ≠ q.task := fun same => tasks (first.symm.trans same)
      simp [first, tasks]
    · simp [first]

/-- Calls that tell of tasks of different instances, at one time and with names of their own, come to the same in
either order: each has the same result and the same events, and the engines that they leave are alike. -/
theorem run_commutes (moves : List EngineMove) (now : Instant) (f g : FreshNames) {firstKind secondKind : AnswerKind}
    (first : Operation firstKind) (second : Operation secondKind)
    (fresh : FreshMoves (moves ++ [.call now f first, .call now g second])) {a b : TaskRecord} {one other : String}
    (atA : a ∈ (empty.run moves).tasks) (atB : b ∈ (empty.run moves).tasks)
    (apart : a.task.instanceId ≠ b.task.instanceId) (toldA : first.toldBy? = some (a.task.id, one))
    (toldB : second.toldBy? = some (b.task.id, other)) :
    let e := empty.run moves
    let firstOnly := e.step now f first
    let secondOnly := e.step now g second
    let secondAfter := firstOnly.engine.step now g second
    let firstAfter := secondOnly.engine.step now f first
    secondAfter.result = secondOnly.result ∧ secondAfter.started = secondOnly.started ∧
      firstAfter.result = firstOnly.result ∧ firstAfter.started = firstOnly.started ∧
      e.AlikeSince secondAfter.engine firstAfter.engine := by
  intro e firstOnly secondOnly secondAfter firstAfter
  obtain ⟨sound, known⟩ := run_sound fresh.left
  have tasks : a.task.id ≠ b.task.id := fun same => apart (sound.record_unique atA atB same ▸ rfl)
  have new (names : FreshNames) (brings : names = f ∨ names = g) : names.NewTo e := by
    refine known.newTo fun given atGiven => fresh.apart atGiven ?_
    rcases brings with rfl | rfl
    · exact List.mem_cons_self ..
    · exact List.mem_cons_of_mem _ (List.mem_cons_self ..)
  obtain ⟨p, pTask, pOwner, openedP, resultA, startedA, stepsA⟩ := sound.tells atA now f toldA
  obtain ⟨q, qTask, qOwner, openedQ, resultB, startedB, stepsB⟩ := sound.tells atB now g toldB
  have patched : p.task ≠ q.task := by rwa [pTask, qTask]
  have owners : p.owner ≠ q.owner := by rwa [pOwner, qOwner]
  have apartP : ∀ opened ∈ p.opened, opened.id ≠ q.task := fun opened member same =>
    (new f (.inl rfl)).tasks b atB ((qTask.symm.trans same.symm).trans (openedP opened member))
  have apartQ : ∀ opened ∈ q.opened, opened.id ≠ p.task := fun opened member same =>
    (new g (.inr rfl)).tasks a atA ((pTask.symm.trans same.symm).trans (openedQ opened member))
  have onlyA : firstOnly = ⟨e.patch p, resultA, startedA⟩ := stepsA e (.refl e _ _)
  have onlyB : secondOnly = ⟨e.patch q, resultB, startedB⟩ := stepsB e (.refl e _ _)
  have afterA : secondAfter = ⟨(e.patch p).patch q, resultB, startedB⟩ := by
    simp only [secondAfter, onlyA]
    exact stepsB _ (alikeFor_patch patched.symm owners.symm apartP)
  have afterB : firstAfter = ⟨(e.patch q).patch p, resultA, startedA⟩ := by
    simp only [firstAfter, onlyB]
    exact stepsA _ (alikeFor_patch patched owners apartQ)
  rw [afterA, afterB, onlyA, onlyB]
  exact ⟨rfl, rfl, rfl, rfl, alikeSince_patch sound.counted patched owners apartP apartQ⟩

/-- Two instances of an order of two steps wait in the first; a worker has both tasks. -/
def twoWaiting : List EngineMove :=
  [.call .epoch ⟨"a", "a", "a", "a", "a"⟩ (.deploy ⟨"order", [⟨"pay", .serviceTask, some "money", none⟩,
      ⟨"ship", .serviceTask, some "goods", none⟩]⟩),
    .call .epoch ⟨"b", "b", "b", "b", "b"⟩ (.start "order" none .empty),
    .call .epoch ⟨"c", "c", "c", "c", "c"⟩ (.start "order" none .empty),
    .call .epoch ⟨"d", "d", "d", "d", "d"⟩ (.lease ⟨2, "w", "money", .ofSeconds 60, .all, none⟩)]

/-- The end of one payment opens the shipment of its order, and so does the end of the other; which of them is
created first is all that the order of the two makes a difference to. -/
theorem run_commutes_payments :
    let e := empty.run twoWaiting
    let firstOnly := e.step .epoch ⟨"f", "f", "f", "f", "f"⟩ (.complete "b" "w" .empty)
    let secondOnly := e.step .epoch ⟨"g", "g", "g", "g", "g"⟩ (.complete "c" "w" .empty)
    let both := (firstOnly.engine.step .epoch ⟨"g", "g", "g", "g", "g"⟩ (.complete "c" "w" .empty)).engine
    let reversed := (secondOnly.engine.step .epoch ⟨"f", "f", "f", "f", "f"⟩ (.complete "b" "w" .empty)).engine
    both.tasks.map (fun record => (record.task.id, record.sequence)) = [("f", 3), ("g", 4)] ∧
      reversed.tasks.map (fun record => (record.task.id, record.sequence)) = [("g", 3), ("f", 4)] ∧
      e.AlikeSince both reversed := by
  intro e firstOnly secondOnly both reversed
  refine ⟨rfl, rfl, ?_⟩
  exact (run_commutes twoWaiting .epoch ⟨"f", "f", "f", "f", "f"⟩ ⟨"g", "g", "g", "g", "g"⟩ (.complete "b" "w" .empty)
    (.complete "c" "w" .empty) (by decide) (List.mem_cons_self ..) (List.mem_cons_of_mem _ (List.mem_cons_self ..))
    (by decide) rfl rfl).2.2.2.2

end Engine

end TaskLeasing
