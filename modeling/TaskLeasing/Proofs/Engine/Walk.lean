import TaskLeasing.Engine.Operations

namespace TaskLeasing

/-- The activities that an instance enters when it goes on with a list of them: those up to the first
one bound to a topic, which is entered too. -/
def enteredOf : List Activity → List Activity
  | [] => []
  | activity :: rest => activity :: if activity.externalTopic.isSome then [] else enteredOf rest

/-- Where an instance that goes on with a list of activities comes to wait, and for which topic. -/
def waitsIn? : List Activity → Option (Activity × String)
  | [] => none
  | activity :: rest => match activity.externalTopic with
    | some topic => some (activity, topic)
    | none => waitsIn? rest

theorem waitsIn?_spec {activities : List Activity} {activity : Activity} {topic : String}
    (waits : waitsIn? activities = some (activity, topic)) :
    activity ∈ activities ∧ activity.externalTopic = some topic ∧
      (enteredOf activities).getLast? = some activity := by
  induction activities with
  | nil => simp [waitsIn?] at waits
  | cons first rest ih =>
    unfold waitsIn? at waits
    cases bound : first.externalTopic with
    | some name =>
      simp only [bound, Option.some.injEq, Prod.mk.injEq] at waits
      obtain ⟨rfl, rfl⟩ := waits
      simp [enteredOf, bound]
    | none =>
      simp only [bound] at waits
      obtain ⟨member, topicEq, last⟩ := ih waits
      refine ⟨List.mem_cons_of_mem _ member, topicEq, ?_⟩
      simp [enteredOf, bound, List.getLast?_cons, last]

/-- An instance after it has gone on with a list of activities: it waits in one of them, or has ended. -/
def ProcessInstance.goOn (run : ProcessInstance) (activities : List Activity) : ProcessInstance :=
  { run with
    currentActivity := (waitsIn? activities).map fun place => place.1.id
    state := if (waitsIn? activities).isNone ∧ run.state = .active then .completed else run.state
    history := run.history ++ (enteredOf activities).map Activity.id }

theorem ProcessInstance.goOn_nil (run : ProcessInstance) : run.goOn [] = run.finish := by
  simp [goOn, finish, waitsIn?, enteredOf]

theorem ProcessInstance.goOn_cons (run : ProcessInstance) (activity : Activity) (rest : List Activity) :
    run.goOn (activity :: rest) = if activity.externalTopic.isSome then run.enter activity.id
      else (run.enter activity.id).goOn rest := by
  cases bound : activity.externalTopic <;> simp [goOn, enter, waitsIn?, enteredOf, bound]

theorem Engine.modifyInstance_comp (e : Engine) (id : String) {f g : ProcessInstance → ProcessInstance}
    (keeps : ∀ run, (f run).id = run.id) :
    (e.modifyInstance id f).modifyInstance id g = e.modifyInstance id fun run => g (f run) := by
  simp only [modifyInstance, List.map_map, Engine.mk.injEq, true_and, and_true]
  refine List.map_congr_left fun run _ => ?_
  by_cases same : run.id = id <;> simp [same, keeps]

theorem Engine.modifyInstance_ids (e : Engine) (id : String) {change : ProcessInstance → ProcessInstance}
    (keeps : ∀ run, (change run).id = run.id) :
    (e.modifyInstance id change).instances.map ProcessInstance.id = e.instances.map ProcessInstance.id := by
  simp only [modifyInstance, List.map_map]
  refine List.map_congr_left fun run _ => ?_
  by_cases same : run.id = id <;> simp [same, keeps]

theorem Engine.definition?_key {e : Engine} {key : String} {definition : ProcessDefinition}
    (found : e.definition? key = some definition) : definition.key = key := by
  simpa using List.find?_some found

/-- The walk at once: the instance goes on, and a task is opened where it comes to wait. -/
theorem Engine.walk_engine (e : Engine) (run : ProcessInstance) (key fresh : String)
    (activities : List Activity) :
    (e.walk run key fresh activities).1 =
      match waitsIn? activities with
      | some (activity, topic) =>
        (e.modifyInstance run.id fun r => r.goOn activities).addTask
          (run.openTask key activity.id topic fresh)
      | none => e.modifyInstance run.id fun r => r.goOn activities := by
  induction activities generalizing e with
  | nil => simp only [walk, waitsIn?, ProcessInstance.goOn_nil]
  | cons activity rest ih =>
    unfold walk waitsIn?
    simp only [ProcessInstance.goOn_cons]
    cases bound : activity.externalTopic with
    | some topic => rfl
    | none =>
      simp only [ih, Option.isSome_none, Bool.false_eq_true, if_false]
      rw [modifyInstance_comp e run.id (f := fun r => r.enter activity.id) fun _ => rfl]

/-- The walk announces what the instance enters, in order. -/
theorem Engine.walk_started (e : Engine) (run : ProcessInstance) (key fresh : String)
    (activities : List Activity) :
    (e.walk run key fresh activities).2 =
      (enteredOf activities).map fun activity => ⟨key, activity.id, run.id⟩ := by
  induction activities generalizing e with
  | nil => rfl
  | cons activity rest ih =>
    unfold walk enteredOf
    cases bound : activity.externalTopic with
    | some topic => simp
    | none => simp [ih]

end TaskLeasing
