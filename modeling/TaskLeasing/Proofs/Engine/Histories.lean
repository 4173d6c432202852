import TaskLeasing.Proofs.Engine.Routes

namespace TaskLeasing

variable {definition : ProcessDefinition} {run : ProcessInstance} {met : List Delivery}

/-- A place of a definition without names in common is followed by what comes after its activity. -/
theorem ProcessDefinition.drop_after_place (distinct : (definition.activities.map Activity.id).Nodup) {place : Nat}
    {activity : Activity} (found : definition.activities[place]? = some activity) :
    definition.activities.drop (definition.after activity.id) = definition.activities.drop (place + 1) := by
  obtain ⟨within, rfl⟩ := List.getElem?_eq_some_iff.mp found
  have split : definition.activities = definition.activities.take place ++ definition.activities[place] ::
      definition.activities.drop (place + 1) := by
    rw [← List.drop_eq_getElem_cons within, List.take_append_drop]
  exact drop_after distinct split

namespace ProcessInstance.Routed

/-- Variables have no part in the route of an instance. -/
theorem sameCourse {other : ProcessInstance} (routed : run.Routed definition met) (same : run.SameCourse other)
    (errors : other.businessErrors = run.businessErrors) : other.Routed definition met := by
  obtain ⟨told, stand, route, fits⟩ := routed
  refine ⟨errors.trans told, stand, same.history ▸ route, ?_⟩
  cases stand with
  | onward place => exact ⟨fits.1, same.state.trans fits.2.1, same.current.trans fits.2.2⟩
  | waiting place => exact ⟨same.state.trans fits.1, same.current.trans fits.2⟩
  | failed code => exact ⟨same.state.trans fits.1, same.current.trans fits.2⟩

/-- An instance that is active waits in the place of its current activity. -/
theorem waiting (routed : run.Routed definition met) (active : run.state = .active) :
    ∃ place activity topic, definition.Route run.history met (.waiting place) ∧
      definition.activities[place]? = some activity ∧ activity.externalTopic = some topic ∧
        run.currentActivity = some activity.id := by
  obtain ⟨_, stand, route, fits⟩ := routed
  cases stand with
  | onward place => exact absurd (active.symm.trans fits.2.1) nofun
  | failed code => exact absurd (active.symm.trans fits.1) nofun
  | waiting place =>
    obtain _ | _ | _ | ⟨_, found, bound, _⟩ := route.came
    refine ⟨place, _, _, route, found, bound, ?_⟩
    rw [fits.2, found]
    rfl

/-- An instance that goes on after the activity that it waits in, with whatever variables. -/
theorem completes (routed : run.Routed definition met) (distinct : (definition.activities.map Activity.id).Nodup)
    (active : run.state = .active) {activity : String} (current : run.currentActivity = some activity)
    (vars : Variables) :
    (({ run with vars := vars } : ProcessInstance).goOn
      (definition.activities.drop (definition.after activity))).Routed definition met := by
  obtain ⟨place, waits, _, route, found, _, current'⟩ := routed.waiting active
  obtain rfl := Option.some.inj (current'.symm.trans current)
  rw [ProcessDefinition.drop_after_place distinct found]
  exact ProcessInstance.routed_goOn route.completes active routed.errors

/-- An error that a boundary catches leads to the activity that the boundary names. -/
theorem diverts (routed : run.Routed definition met) (active : run.state = .active) {activity : String}
    (current : run.currentActivity = some activity) {target : Nat}
    (boundary : definition.boundary? activity = some target) (vars : Variables) (code : String) :
    (({ run with vars := vars, businessErrors := run.businessErrors ++ [code] } : ProcessInstance).goOn
      (definition.activities.drop target)).Routed definition (met ++ [⟨run.history.length, activity, code⟩]) := by
  obtain ⟨place, waits, _, route, found, _, current'⟩ := routed.waiting active
  obtain rfl := Option.some.inj (current'.symm.trans current)
  refine ProcessInstance.routed_goOn (route.diverts found boundary code) active ?_
  rw [routed.errors, List.map_append]
  rfl

/-- An error that no boundary catches ends the instance. -/
theorem fails (routed : run.Routed definition met) (active : run.state = .active) {activity : String}
    (current : run.currentActivity = some activity) (boundary : definition.boundary? activity = none)
    (vars : Variables) (code : String) :
    ({ run with vars := vars, businessErrors := run.businessErrors ++ [code], currentActivity := none,
                state := .endedByError code } : ProcessInstance).Routed definition
      (met ++ [⟨run.history.length, activity, code⟩]) := by
  obtain ⟨place, waits, _, route, found, _, current'⟩ := routed.waiting active
  obtain rfl := Option.some.inj (current'.symm.trans current)
  refine ⟨?_, _, route.fails found boundary code, rfl, rfl⟩
  rw [routed.errors, List.map_append]
  rfl

end ProcessInstance.Routed

/-- The definition that a move deploys. -/
def EngineMove.deploys? : EngineMove → Option ProcessDefinition
  | .call _ _ (.deploy definition) => some definition
  | _ => none

/-- All instances of a definition, which is the only one of its key, have come along routes through it. -/
structure Engine.Guides (e : Engine) (definition : ProcessDefinition) (met : String → List Delivery) : Prop where
  only : ∀ other ∈ e.definitions, other.key = definition.key → other = definition
  routed : ∀ run ∈ e.instances, run.definitionKey = definition.key → run.Routed definition (met run.id)
  unmet : ∀ id, (∀ run ∈ e.instances, run.id ≠ id) → met id = []

namespace Engine

variable {e after : Engine}

theorem mem_definitions_take {move : EngineMove} {other : ProcessDefinition}
    (member : other ∈ (e.take move).definitions) : other ∈ e.definitions ∨ move.deploys? = some other := by
  cases move with
  | endJob job => exact .inl member
  | call now fresh operation =>
    have ordinary (plain : operation.isPlain = true) : other ∈ e.definitions := by
      obtain ⟨_, ordinary, _⟩ := e.ordinary_step now fresh plain
      exact ordinary.definitions ▸ member
    cases operation with
    | deploy definition =>
      change other ∈ (e.deploy definition).definitions at member
      unfold deploy at member
      split at member
      · obtain ⟨old, atOld, rfl⟩ := List.mem_map.mp member
        split
        · exact .inr rfl
        · exact .inl atOld
      · exact (List.mem_append.mp member).imp_right fun new => congrArg some (List.mem_singleton.mp new).symm
    | lease request =>
      obtain ⟨_, rewrites⟩ := rewrites_lease e now request
      exact .inl (rewrites.definitions ▸ member)
    | failure task worker report =>
      obtain ⟨_, rewrites⟩ := rewrites_reportFailure e now fresh.incident task worker report
      exact .inl (rewrites.definitions ▸ member)
    | setAvailable available => exact .inl member
    | _ => exact .inl (ordinary rfl)

theorem deliveredTo_none (id : String) : deliveredTo id none = none := rfl

theorem deliveredTo_own (id : String) (error : Delivery) : deliveredTo id (some (id, error)) = some error :=
  if_pos rfl

theorem deliveredTo_other {id other : String} (apart : other ≠ id) (error : Delivery) :
    deliveredTo id (some (other, error)) = none := if_neg apart

theorem guides_empty (definition : ProcessDefinition) : empty.Guides definition fun _ => [] :=
  ⟨by simp [empty], by simp [empty], fun _ _ => rfl⟩

namespace Guides

variable {routes : String → List Delivery} {started : List ActivityStarted} {error : Option (String × Delivery)}

theorem definition_eq (guides : e.Guides definition routes) {key : String} {other : ProcessDefinition}
    (found : e.definition? key = some other) (same : key = definition.key) : other = definition :=
  guides.only other (List.mem_of_find?_eq_some found) ((definition?_key found).trans same)

/-- Where one instance goes on along its route and the others stay, all keep to their routes. -/
theorem of_map (guides : e.Guides definition routes) {run next : ProcessInstance} (atRun : run ∈ e.instances)
    (only : ∀ other ∈ after.definitions, other.key = definition.key → other = definition)
    (instances : after.instances = e.instances.map fun r => if r.id = run.id then next else r)
    (id : next.id = run.id) (key : next.definitionKey = run.definitionKey)
    (told : ∀ addressed, error = some addressed → addressed.1 = run.id)
    (goesOn : run.definitionKey = definition.key →
      next.Routed definition (routes run.id ++ (deliveredTo run.id error).toList)) :
    after.Guides definition fun id => routes id ++ (deliveredTo id error).toList := by
  have others {other : String} (apart : other ≠ run.id) : deliveredTo other error = none := by
    cases addressed : error with
    | none => rfl
    | some pair => exact deliveredTo_other (fun same => apart (same.symm.trans (told pair addressed))) _
  refine ⟨only, fun r member atKey => ?_, fun other absent => ?_⟩
  · rw [instances] at member
    obtain ⟨old, atOld, rfl⟩ := List.mem_map.mp member
    split at atKey
    · rw [if_pos (by assumption), id]
      exact goesOn (key.symm.trans atKey)
    · rename_i apart
      rw [if_neg apart, others apart, Option.toList_none, List.append_nil]
      exact guides.routed old atOld atKey
  · have absent' : ∀ old ∈ e.instances, old.id ≠ other := by
      intro old atOld same
      refine absent (if old.id = run.id then next else old) (instances ▸ List.mem_map_of_mem atOld) ?_
      split
      · rename_i own
        rw [id, ← own, same]
      · exact same
    have apart : other ≠ run.id := fun same => absent' run atRun same.symm
    rw [others apart, guides.unmet other absent']
    rfl

/-- Whatever a move makes of the instances, they keep to their routes. -/
theorem walk (guides : e.Guides definition routes) (distinct : (definition.activities.map Activity.id).Nodup)
    (only : ∀ other ∈ after.definitions, other.key = definition.key → other = definition)
    (walks : e.Walks after started error) :
    after.Guides definition fun id => routes id ++ (deliveredTo id error).toList := by
  have undisturbed : (fun id => routes id ++ (deliveredTo id none).toList) = routes :=
    funext fun id => List.append_nil _
  cases walks with
  | stays change keeps errors instances =>
    rw [undisturbed]
    refine ⟨only, fun run member atKey => ?_, fun id absent => guides.unmet id fun old atOld => ?_⟩
    · rw [instances] at member
      obtain ⟨old, atOld, rfl⟩ := List.mem_map.mp member
      rw [(keeps old).id]
      exact (guides.routed old atOld ((keeps old).definitionKey.symm.trans atKey)).sameCourse (keeps old) (errors old)
    · rw [← (keeps old).id]
      exact absent _ (instances ▸ List.mem_map_of_mem atOld)
  | @begins run other new found active history errors instances =>
    rw [undisturbed]
    refine ⟨only, fun r member atKey => ?_, fun id absent => guides.unmet id fun old atOld => ?_⟩
    · rw [instances] at member
      rcases List.mem_append.mp member with old | begun
      · exact guides.routed r old atKey
      · obtain rfl := List.mem_singleton.mp begun
        obtain rfl := guides.definition_eq found atKey
        have unmet : routes run.id = [] := guides.unmet run.id new
        have route : other.Route run.history [] (.onward 0) := history ▸ .begins
        change (run.goOn (other.activities.drop 0)).Routed other (routes run.id)
        rw [unmet]
        exact ProcessInstance.routed_goOn route active errors
    · exact absent old (instances ▸ List.mem_append_left _ atOld)
  | @completes record run other vars _ atRun own found instances =>
    refine guides.of_map atRun only instances rfl rfl nofun fun atKey => ?_
    obtain rfl := guides.definition_eq found atKey
    rw [deliveredTo_none, Option.toList_none, List.append_nil]
    exact (guides.routed run atRun atKey).completes distinct own.active own.current vars
  | @diverts record run other vars code place _ atRun own found boundary instances =>
    refine guides.of_map atRun only instances rfl rfl (fun _ told => congrArg Prod.fst (Option.some.inj told).symm)
      fun atKey => ?_
    obtain rfl := guides.definition_eq found atKey
    rw [deliveredTo_own]
    exact (guides.routed run atRun atKey).diverts own.active own.current boundary vars code
  | @fails record run other vars code _ atRun own found boundary instances =>
    refine guides.of_map atRun only instances rfl rfl (fun _ told => congrArg Prod.fst (Option.some.inj told).symm)
      fun atKey => ?_
    obtain rfl := guides.definition_eq found atKey
    rw [deliveredTo_own]
    exact (guides.routed run atRun atKey).fails own.active own.current boundary vars code

end Guides

/-- After moves that deploy no other definition of its key, all instances of a definition have come along routes
through it, on which they met the business errors that were delivered to them. -/
theorem guides_run (distinct : (definition.activities.map Activity.id).Nodup) {moves : List EngineMove}
    (fresh : FreshMoves moves)
    (only : ∀ other ∈ moves.filterMap EngineMove.deploys?, other.key = definition.key → other = definition) :
    (empty.run moves).Guides definition fun id => empty.deliveriesTo id moves := by
  induction moves using List.reverseRecOn with
  | nil => exact guides_empty definition
  | append_singleton before move ih =>
    rw [List.filterMap_append] at only
    have guides := ih fresh.left fun other member => only other (List.mem_append_left _ member)
    obtain ⟨sound, named⟩ := run_sound fresh.left
    have new (names : FreshNames) (brings : move.names? = some names) : names.NewTo (empty.run before) :=
      named.newTo fun given atGiven => fresh.apart atGiven
        (List.mem_filterMap.mpr ⟨move, List.mem_singleton_self move, brings⟩)
    simp only [deliveriesTo, trace_concat, run_append, run_cons, run_nil]
    refine guides.walk distinct (fun other member same => ?_) (sound.walks new)
    rcases mem_definitions_take member with old | deployed
    · exact guides.only other old same
    · exact only other (List.mem_append_right _ (List.mem_filterMap.mpr ⟨move, List.mem_singleton_self move, deployed⟩))
        same

end Engine

/-- An instance of an engine has walked its definition from the first activity on, and met errors on its way. It stands
where its history ends: it waits there for the task that is open, has gone past the last activity, or was ended by an
error that no boundary caught. -/
structure ProcessInstance.Walked (run : ProcessInstance) (e : Engine) (definition : ProcessDefinition)
    (met : List Delivery) : Prop where
  starts : run.history.head? = definition.activities.head?.map Activity.id
  follows : definition.Stepwise run.history met
  delivered : ∀ error ∈ met, (run.history.take error.entered).getLast? = some error.activity
  ordered : met.Pairwise fun earlier later => earlier.entered < later.entered
  errors : run.businessErrors = met.map Delivery.code
  waits : ∀ record ∈ e.tasks, record.task.instanceId = run.id → run.currentActivity = some record.task.activity ∧
    run.history.getLast? = some record.task.activity ∧
      ((definition.find? record.task.activity).bind Activity.externalTopic).isSome = true
  active : run.state = .active ↔ ∃ record ∈ e.tasks, record.task.instanceId = run.id
  completed : run.state = .completed ↔ run.history.getLast? = definition.activities.getLast?.map Activity.id ∧
    (∀ error ∈ met, error.entered ≠ run.history.length) ∧ ∀ record ∈ e.tasks, record.task.instanceId ≠ run.id
  failed : ∀ code, run.state = .endedByError code ↔
    ∃ error ∈ met, error.code = code ∧ definition.boundary? error.activity = none
  straight : met = [] → run.history <+: definition.activities.map Activity.id

namespace ProcessInstance.Routed

/-- The first activity of a definition is entered at once. -/
theorem starts (routed : run.Routed definition met) :
    run.history.head? = definition.activities.head?.map Activity.id := by
  obtain ⟨_, stand, route, fits⟩ := routed
  rcases route.head with ⟨blank, rfl⟩ | begun
  · have empty : definition.activities = [] := List.length_eq_zero_iff.mp (Nat.le_zero.mp fits.1)
    rw [blank, empty]
    rfl
  · exact begun

/-- An instance has gone past the last activity if it neither waits there nor was ended there by an error. -/
theorem completed (routed : run.Routed definition met) : run.state = .completed ↔
    run.history.getLast? = definition.activities.getLast?.map Activity.id ∧
      (∀ error ∈ met, error.entered ≠ run.history.length) ∧ run.state ≠ .active := by
  obtain ⟨_, stand, route, fits⟩ := routed
  cases stand with
  | waiting place =>
    refine ⟨fun completed => ?_, fun ended => absurd fits.1 ended.2.2⟩
    rw [fits.1] at completed
    cases completed
  | failed code =>
    obtain _ | _ | _ | _ | ⟨_, member, here, _⟩ := route.came
    refine ⟨fun completed => ?_, fun ended => absurd here (ended.2.1 _ member)⟩
    rw [fits.1] at completed
    cases completed
  | onward place =>
    obtain ⟨last, unmet⟩ := route.past_end fits.1
    refine ⟨fun _ => ⟨last, unmet, fun active => ?_⟩, fun _ => fits.2.1⟩
    rw [fits.2.1] at active
    cases active

theorem failed (routed : run.Routed definition met) (code : String) : run.state = .endedByError code ↔
    ∃ error ∈ met, error.code = code ∧ definition.boundary? error.activity = none := by
  obtain ⟨_, stand, route, fits⟩ := routed
  refine ⟨fun ended => ?_, fun ⟨error, member, same, loose⟩ => ?_⟩
  · cases stand with
    | onward place => exact absurd (ended.symm.trans fits.2.1) nofun
    | waiting place => exact absurd (ended.symm.trans fits.1) nofun
    | failed other =>
      obtain _ | _ | _ | _ | ⟨_, member, _, loose⟩ := route.came
      exact ⟨_, member, InstanceState.endedByError.inj (fits.1.symm.trans ended), loose⟩
  · obtain rfl := route.uncaught error member loose
    exact fits.1.trans (congrArg _ same)

end ProcessInstance.Routed

theorem ProcessInstance.Routed.walked {e : Engine} (routed : run.Routed definition met) (sound : e.Sound none)
    (distinct : (definition.activities.map Activity.id).Nodup) (atRun : run ∈ e.instances) :
    run.Walked e definition met := by
  have owner {record : TaskRecord} (member : record ∈ e.tasks) (owns : record.task.instanceId = run.id) :
      record.task.BelongsTo run := by
    obtain ⟨other, atOther, own⟩ := sound.belongs record member
    exact sound.instance_unique atOther atRun (own.instanceId.symm.trans owns) ▸ own
  have active : run.state = .active ↔ ∃ record ∈ e.tasks, record.task.instanceId = run.id :=
    ⟨fun active => (sound.waiting run atRun active).resolve_left nofun,
      fun ⟨record, member, owns⟩ => (owner member owns).active⟩
  have idle : run.state ≠ .active ↔ ∀ record ∈ e.tasks, record.task.instanceId ≠ run.id := by
    rw [ne_eq, active]
    exact ⟨fun none record member owns => none ⟨record, member, owns⟩,
      fun none ⟨record, member, owns⟩ => none record member owns⟩
  obtain ⟨stand, route, _⟩ := routed.stands
  refine ⟨routed.starts, route.stepwise, route.delivered, route.ordered, routed.errors, fun record member owns => ?_,
    active, by rw [← idle]; exact routed.completed, routed.failed, fun unmet => ?_⟩
  · have own := owner member owns
    obtain ⟨place, activity, topic, _, found, bound, current⟩ := routed.waiting own.active
    obtain named := Option.some.inj (current.symm.trans own.current)
    have known : definition.find? activity.id = some activity := find?_key distinct (List.mem_of_getElem? found)
    refine ⟨own.current, own.last, ?_⟩
    rw [← named, known, Option.bind_some, bound]
    rfl
  · obtain ⟨entered, walked, _⟩ := route.straight unmet
    rw [walked]
    exact (List.take_prefix entered _).map Activity.id

/-- A move announces what one instance enters by it, in order, and no other enters anything. -/
structure Engine.Announces (e : Engine) (move : EngineMove) (id key : String) (entered : List Activity) : Prop where
  started : e.startedBy move = entered.map fun activity => ⟨key, activity.id, id⟩
  histories : ∀ other,
    (e.take move).historyOf other = e.historyOf other ++ if other = id then entered.map Activity.id else []
  known : entered ≠ [] → ∃ run ∈ (e.take move).instances, run.id = id ∧ run.definitionKey = key
  defined : entered ≠ [] → ∃ definition, e.definition? key = some definition ∧ ∀ activity ∈ entered,
    activity ∈ definition.activities
  passed : ∀ activity ∈ entered.dropLast, activity.externalTopic = none

/-- What is entered is passed through, but for the last. -/
theorem passed_enteredOf (activities : List Activity) :
    ∀ activity ∈ (enteredOf activities).dropLast, activity.externalTopic = none := by
  induction activities with
  | nil => simp [enteredOf]
  | cons first rest ih =>
    cases bound : first.externalTopic with
    | some topic => simp [enteredOf, bound]
    | none =>
      simp only [enteredOf, bound, Option.isSome_none, Bool.false_eq_true, if_false]
      intro activity member
      cases further : enteredOf rest with
      | nil => simp [further] at member
      | cons second more =>
        rw [further, List.dropLast_cons_cons] at member
        rcases List.mem_cons.mp member with rfl | later
        · exact bound
        · exact ih activity (further ▸ later)

theorem mem_enteredOf {activities : List Activity} {activity : Activity} (member : activity ∈ enteredOf activities) :
    activity ∈ activities := by
  rcases enteredOf_cases activities with ⟨_, _, entered⟩ | ⟨passed, last, _, rest, rfl, _, _, _, entered⟩
  · exact entered ▸ member
  · rw [entered] at member
    exact (List.mem_append.mp member).elim (List.mem_append_left _) fun atLast =>
      List.mem_append_right _ (List.mem_singleton.mp atLast ▸ List.mem_cons_self ..)

namespace Engine

variable {e after : Engine}

theorem instance?_map {change : ProcessInstance → ProcessInstance}
    (instances : after.instances = e.instances.map change) (keeps : ∀ run, (change run).id = run.id) (id : String) :
    after.instance? id = (e.instance? id).map change := by
  have same : (fun run => decide (ProcessInstance.id run = id)) ∘ change = fun run => decide (run.id = id) :=
    funext fun run => by rw [Function.comp_apply, keeps]
  rw [instance?, instances, List.find?_map, same]
  rfl

/-- Where one instance goes on, no other enters anything. -/
theorem historyOf_map (sound : e.Sound none) {run next : ProcessInstance} (atRun : run ∈ e.instances)
    {entered : List String} (instances : after.instances = e.instances.map fun r => if r.id = run.id then next else r)
    (same : next.id = run.id) (history : next.history = run.history ++ entered) (id : String) :
    after.historyOf id = e.historyOf id ++ if id = run.id then entered else [] := by
  have keeps (r : ProcessInstance) : (if r.id = run.id then next else r).id = r.id := by
    split
    · exact same.trans (by simp [*])
    · rfl
  rw [historyOf, instance?_map instances keeps, historyOf]
  by_cases own : id = run.id
  · rw [own, sound.instance?_eq atRun, if_pos rfl]
    simp [history]
  · cases found : e.instance? id with
    | none => simp [own]
    | some other =>
      have otherId : other.id = id := by simpa using List.find?_some found
      simp [otherId, own]

theorem historyOf_append {next : ProcessInstance} (new : ∀ old ∈ e.instances, old.id ≠ next.id)
    (instances : after.instances = e.instances ++ [next]) (id : String) :
    after.historyOf id = e.historyOf id ++ if id = next.id then next.history else [] := by
  rw [historyOf, instance?, instances, List.find?_append, historyOf, instance?]
  by_cases own : id = next.id
  · subst own
    have absent : e.instances.find? (fun run => run.id = next.id) = none :=
      List.find?_eq_none.mpr fun old member => by simpa using new old member
    simp [absent]
  · have other : next.id ≠ id := fun same => own same.symm
    simp [own, other]

/-- What any move announces. -/
theorem Sound.announces (sound : e.Sound none) {move : EngineMove}
    (new : ∀ names, move.names? = some names → names.NewTo e) : ∃ id key entered, e.Announces move id key entered := by
  have goesOn {run next : ProcessInstance} {definition : ProcessDefinition}
      {activities : List Activity} (atRun : run ∈ e.instances)
      (found : e.definition? run.definitionKey = some definition)
      (within : ∀ activity ∈ activities, activity ∈ definition.activities)
      (started : e.startedBy move = run.announces activities)
      (instances : (e.take move).instances =
        e.instances.map fun r => if r.id = run.id then next else r)
      (id : next.id = run.id) (key : next.definitionKey = run.definitionKey)
      (history : next.history = run.history ++ (enteredOf activities).map Activity.id) :
      ∃ id key entered, e.Announces move id key entered :=
    ⟨run.id, run.definitionKey, enteredOf activities, started, historyOf_map sound atRun instances id history,
      fun _ => ⟨next, instances ▸ List.mem_map.mpr ⟨run, atRun, if_pos rfl⟩, id, key⟩,
      fun _ => ⟨definition, found, fun activity member => within activity (mem_enteredOf member)⟩,
      passed_enteredOf activities⟩
  have walks := sound.walks new
  generalize started : e.startedBy move = announced at walks
  generalize e.delivery? move = error at walks
  cases walks with
  | stays change keeps errors instances =>
    refine ⟨"", "", [], started, fun other => ?_, nofun, nofun, nofun⟩
    rw [historyOf, instance?_map instances fun run => (keeps run).id, Option.map_map, historyOf]
    have same : ProcessInstance.history ∘ change = ProcessInstance.history := funext fun run => (keeps run).history
    rw [same]
    simp
  | @begins run definition fresh found active history errors instances =>
    refine ⟨run.id, run.definitionKey, enteredOf definition.activities, started, fun other => ?_, fun _ =>
      ⟨run.goOn definition.activities, instances ▸ List.mem_append_right _ (List.mem_singleton_self _), rfl, rfl⟩,
      fun _ => ⟨definition, found, fun activity => mem_enteredOf⟩, passed_enteredOf _⟩
    have begun : (run.goOn definition.activities).history = (enteredOf definition.activities).map Activity.id := by
      rw [ProcessInstance.goOn, history, List.nil_append]
    have others : ∀ old ∈ e.instances, old.id ≠ (run.goOn definition.activities).id := fresh
    rw [← begun]
    exact historyOf_append others instances other
  | @completes record run definition vars _ atRun own found instances =>
    exact goesOn atRun found (fun _ => List.mem_of_mem_drop) started instances rfl rfl rfl
  | @diverts record run definition vars code place _ atRun own found _ instances =>
    exact goesOn atRun found (fun _ => List.mem_of_mem_drop) started instances rfl rfl rfl
  | @fails record run definition vars code _ atRun own found _ instances =>
    have silent : e.startedBy move = run.announces [] := started
    exact goesOn atRun found (fun _ none => (List.not_mem_nil none).elim) silent instances rfl rfl
      (List.append_nil _).symm

/-- Instances walk their definitions: after moves that deploy no other definition of its key, each instance of a
definition has gone through it activity after activity, diverted by the business errors that were delivered to it; and
every move on the way announced just what it added to the history of an instance. -/
theorem run_walked (distinct : (definition.activities.map Activity.id).Nodup) {moves : List EngineMove}
    (fresh : FreshMoves moves)
    (only : ∀ other ∈ moves.filterMap EngineMove.deploys?, other.key = definition.key → other = definition) :
    (∀ run ∈ (empty.run moves).instances, run.definitionKey = definition.key →
      run.Walked (empty.run moves) definition (empty.deliveriesTo run.id moves)) ∧
    ∀ before move after, moves = before ++ move :: after → ∃ id key entered,
      (empty.run before).Announces move id key entered ∧
        (key = definition.key → ∀ activity ∈ entered, activity ∈ definition.activities) := by
  refine ⟨fun run atRun atKey => ?_, ?_⟩
  · have guides := guides_run distinct fresh only
    exact (guides.routed run atRun atKey).walked (run_sound fresh).1 distinct atRun
  · rintro before move after rfl
    rw [List.filterMap_append] at only
    obtain ⟨sound, named⟩ := run_sound fresh.left
    have new (names : FreshNames) (brings : move.names? = some names) : names.NewTo (empty.run before) :=
      named.newTo fun given atGiven => fresh.apart atGiven
        (List.mem_filterMap.mpr ⟨move, List.mem_cons_self .., brings⟩)
    have guides := guides_run distinct fresh.left fun other member => only other (List.mem_append_left _ member)
    obtain ⟨id, key, entered, announces⟩ := sound.announces new
    refine ⟨id, key, entered, announces, fun atKey activity member => ?_⟩
    obtain ⟨other, found, within⟩ := announces.defined (List.ne_nil_of_mem member)
    exact guides.definition_eq found atKey ▸ within activity member

/-- Orders that are checked, paid and shipped; a payment that is declined leads to the refund. -/
def refundedOrder : ProcessDefinition where
  key := "order"
  activities := [⟨"check", .manualTask, none, none⟩, ⟨"pay", .serviceTask, some "money", some "refund"⟩,
    ⟨"ship", .serviceTask, some "goods", none⟩, ⟨"refund", .sendTask, some "money", none⟩]

def declinedPayment : List EngineMove :=
  [.call .epoch ⟨"a", "a", "a", "a", "a"⟩ (.deploy refundedOrder),
    .call .epoch ⟨"b", "b", "b", "b", "b"⟩ (.start "order" none .empty),
    .call .epoch ⟨"c", "c", "c", "c", "c"⟩ (.lease ⟨1, "w", "money", .zero, .all, none⟩),
    .call .epoch ⟨"d", "d", "d", "d", "d"⟩ (.businessError "b" "w" "declined" "no" none),
    .call .epoch ⟨"f", "f", "f", "f", "f"⟩ (.lease ⟨1, "w", "money", .zero, .all, none⟩),
    .call .epoch ⟨"g", "g", "g", "g", "g"⟩ (.complete "d" "w" .empty)]

theorem run_walked_declined :
    FreshMoves declinedPayment ∧ empty.deliveriesTo "b" declinedPayment = [⟨2, "pay", "declined"⟩] ∧
      ∃ run ∈ (empty.run declinedPayment).instances, run.id = "b" ∧ run.history = ["check", "pay", "refund"] ∧
        run.state = .completed ∧
        run.Walked (empty.run declinedPayment) refundedOrder (empty.deliveriesTo run.id declinedPayment) ∧
        ∀ before move after, declinedPayment = before ++ move :: after → ∃ id key entered,
          (empty.run before).Announces move id key entered ∧
            (key = "order" → ∀ activity ∈ entered, activity ∈ refundedOrder.activities) := by
  have names : FreshMoves declinedPayment := by decide
  have distinct : (refundedOrder.activities.map Activity.id).Nodup := by decide
  have only : ∀ other ∈ declinedPayment.filterMap EngineMove.deploys?,
      other.key = refundedOrder.key → other = refundedOrder := by
    intro other member _
    exact List.mem_singleton.mp member
  obtain ⟨walked, announced⟩ := run_walked distinct names only
  obtain ⟨run, atRun, id, key, history, state⟩ : ∃ run ∈ (empty.run declinedPayment).instances, run.id = "b" ∧
      run.definitionKey = "order" ∧ run.history = ["check", "pay", "refund"] ∧ run.state = .completed :=
    ⟨_, List.mem_cons_self .., rfl, rfl, rfl, rfl⟩
  exact ⟨names, rfl, run, atRun, id, history, state, walked run atRun key, announced⟩

end Engine

end TaskLeasing
