import TaskLeasing.Proofs.Engine.Walk

namespace TaskLeasing

/-- A business error that was delivered to an instance: how many activities the instance had entered by then, the last
of them, which it waited in, and the code of the error. -/
structure Delivery where
  entered : Nat
  activity : String
  code : String

/-- Where a route through a definition stands: it is to go on at a place, it waits in one, or an error ended it. Past
the last place the definition is at its end. -/
inductive Standing
  | onward (place : Nat)
  | waiting (place : Nat)
  | failed (code : String)

/-- The routes through a definition, with the activities that they enter and the errors that they meet. -/
inductive ProcessDefinition.Route (definition : ProcessDefinition) :
    List String → List Delivery → Standing → Prop
  | begins : definition.Route [] [] (.onward 0)
  | passes {history : List String} {met : List Delivery} {place : Nat} {activity : Activity}
      (route : definition.Route history met (.onward place)) (found : definition.activities[place]? = some activity)
      (unbound : activity.externalTopic = none) :
      definition.Route (history ++ [activity.id]) met (.onward (place + 1))
  | waits {history : List String} {met : List Delivery} {place : Nat} {activity : Activity} {topic : String}
      (route : definition.Route history met (.onward place)) (found : definition.activities[place]? = some activity)
      (bound : activity.externalTopic = some topic) :
      definition.Route (history ++ [activity.id]) met (.waiting place)
  | completes {history : List String} {met : List Delivery} {place : Nat}
      (route : definition.Route history met (.waiting place)) : definition.Route history met (.onward (place + 1))
  | diverts {history : List String} {met : List Delivery} {place target : Nat} {activity : Activity}
      (route : definition.Route history met (.waiting place)) (found : definition.activities[place]? = some activity)
      (boundary : definition.boundary? activity.id = some target) (code : String) :
      definition.Route history (met ++ [⟨history.length, activity.id, code⟩]) (.onward target)
  | fails {history : List String} {met : List Delivery} {place : Nat} {activity : Activity}
      (route : definition.Route history met (.waiting place)) (found : definition.activities[place]? = some activity)
      (boundary : definition.boundary? activity.id = none) (code : String) :
      definition.Route history (met ++ [⟨history.length, activity.id, code⟩]) (.failed code)

/-- An activity stands directly after another one in a definition. -/
def ProcessDefinition.Follows (definition : ProcessDefinition) (first second : String) : Prop :=
  ∃ place, (definition.activities[place]?).map Activity.id = some first ∧
    (definition.activities[place + 1]?).map Activity.id = some second

/-- An error in an activity leads to another one, the activity's error boundary. -/
def ProcessDefinition.Diverts (definition : ProcessDefinition) (first second : String) : Prop :=
  (definition.find? first).bind Activity.errorBoundary = some second ∧
    (definition.position? second).isSome = true

/-- The state of an instance tells where its route stands. -/
def Standing.Fits (stand : Standing) (definition : ProcessDefinition) (run : ProcessInstance) : Prop :=
  match stand with
  | .onward place => definition.activities.length ≤ place ∧ run.state = .completed ∧ run.currentActivity = none
  | .waiting place => run.state = .active ∧
      run.currentActivity = (definition.activities[place]?).map Activity.id
  | .failed code => run.state = .endedByError code ∧ run.currentActivity = none

/-- An instance has come along a route, on which it met some errors. -/
structure ProcessInstance.Routed (run : ProcessInstance) (definition : ProcessDefinition) (met : List Delivery) :
    Prop where
  errors : run.businessErrors = met.map Delivery.code
  stands : ∃ stand, definition.Route run.history met stand ∧ stand.Fits definition run

namespace ProcessDefinition

variable {definition : ProcessDefinition} {history : List String} {met : List Delivery} {stand : Standing}

/-- The place that an error boundary leads to is the one of the activity that it names. -/
theorem boundary?_diverts {activity : String} {target : Nat} (boundary : definition.boundary? activity = some target) :
    ∃ next, definition.activities[target]? = some next ∧ definition.Diverts activity next.id := by
  obtain ⟨name, names, place⟩ := Option.bind_eq_some_iff.mp boundary
  obtain ⟨within, same, _⟩ := List.findIdx?_eq_some_iff_getElem.mp place
  have id : definition.activities[target].id = name := by simpa using same
  refine ⟨definition.activities[target], List.getElem?_eq_getElem within, ?_⟩
  rw [id]
  exact ⟨names, Option.isSome_iff_exists.mpr ⟨target, place⟩⟩

namespace Route

/-- How a route has come to where it stands. The errors that it met lie behind it, but for the one that it left its
last activity by. -/
inductive Came (definition : ProcessDefinition) (history : List String) (met : List Delivery) : Standing → Prop
  | begun (empty : history = []) (unmet : met = []) : Came definition history met (.onward 0)
  | passed {place : Nat} {activity : Activity} (last : history.getLast? = some activity.id)
      (found : definition.activities[place]? = some activity) (unmet : ∀ error ∈ met, error.entered < history.length) :
      Came definition history met (.onward (place + 1))
  | diverted {target : Nat} {error : Delivery} (last : history.getLast? = some error.activity) (member : error ∈ met)
      (here : error.entered = history.length) (boundary : definition.boundary? error.activity = some target) :
      Came definition history met (.onward target)
  | waiting {place : Nat} {activity : Activity} {topic : String} (last : history.getLast? = some activity.id)
      (found : definition.activities[place]? = some activity) (bound : activity.externalTopic = some topic)
      (unmet : ∀ error ∈ met, error.entered < history.length) : Came definition history met (.waiting place)
  | failed {error : Delivery} (last : history.getLast? = some error.activity) (member : error ∈ met)
      (here : error.entered = history.length) (boundary : definition.boundary? error.activity = none) :
      Came definition history met (.failed error.code)

theorem met_le (route : definition.Route history met stand) : ∀ error ∈ met, error.entered ≤ history.length := by
  induction route with
  | begins => simp
  | passes _ _ _ ih | waits _ _ _ ih =>
    intro error member
    have := ih error member
    simp only [List.length_append, List.length_singleton]
    omega
  | completes _ ih => exact ih
  | diverts _ _ _ _ ih | fails _ _ _ _ ih =>
    intro error member
    rcases List.mem_append.mp member with old | new
    · exact ih error old
    · obtain rfl := List.mem_singleton.mp new
      exact Nat.le_refl _

/-- Errors that a route met lie behind the next activity that it enters. -/
theorem met_lt (route : definition.Route history met stand) (activity : String) :
    ∀ error ∈ met, error.entered < (history ++ [activity]).length := by
  intro error member
  have := route.met_le error member
  simp only [List.length_append, List.length_singleton]
  omega

theorem came (route : definition.Route history met stand) : Came definition history met stand := by
  induction route with
  | begins => exact .begun rfl rfl
  | passes route found _ _ => exact .passed List.getLast?_concat found (route.met_lt _)
  | waits route found bound _ => exact .waiting List.getLast?_concat found bound (route.met_lt _)
  | completes _ ih =>
    obtain _ | _ | _ | ⟨last, found, _, unmet⟩ := ih
    exact .passed last found unmet
  | diverts _ found boundary code ih =>
    obtain _ | _ | _ | ⟨last, found', _, _⟩ := ih
    obtain rfl := Option.some.inj (found.symm.trans found')
    exact .diverted last (List.mem_append_right _ (List.mem_singleton_self _)) rfl boundary
  | fails _ found boundary code ih =>
    obtain _ | _ | _ | ⟨last, found', _, _⟩ := ih
    obtain rfl := Option.some.inj (found.symm.trans found')
    exact .failed last (List.mem_append_right _ (List.mem_singleton_self _)) rfl boundary

/-- Every error was delivered in the activity that the route had entered last by then. -/
theorem delivered (route : definition.Route history met stand) :
    ∀ error ∈ met, (history.take error.entered).getLast? = some error.activity := by
  induction route with
  | begins => simp
  | passes route _ _ ih | waits route _ _ ih =>
    intro error member
    rw [List.take_append_of_le_length (route.met_le error member)]
    exact ih error member
  | completes _ ih => exact ih
  | diverts route found _ _ ih | fails route found _ _ ih =>
    intro error member
    rcases List.mem_append.mp member with old | new
    · exact ih error old
    · obtain _ | _ | _ | ⟨last, found', _, _⟩ := route.came
      obtain rfl := Option.some.inj (found.symm.trans found')
      rw [List.mem_singleton.mp new, List.take_length]
      exact last

/-- No two errors meet a route in the same place of its history. -/
theorem ordered (route : definition.Route history met stand) :
    met.Pairwise fun earlier later => earlier.entered < later.entered := by
  induction route with
  | begins => exact .nil
  | passes _ _ _ ih | waits _ _ _ ih | completes _ ih => exact ih
  | diverts route _ _ _ ih | fails route _ _ _ ih =>
    refine List.pairwise_append.mpr ⟨ih, List.pairwise_singleton _ _, fun error member last atLast => ?_⟩
    obtain _ | _ | _ | ⟨_, _, _, unmet⟩ := route.came
    rw [List.mem_singleton.mp atLast]
    exact unmet error member

end Route

/-- How an activity of a history leads to the next one: by an error that was delivered there, or as the definition has
it. -/
def Leads (definition : ProcessDefinition) (met : List Delivery) (entered : Nat) (first second : String) : Prop :=
  (∃ error ∈ met, error.entered = entered ∧ definition.Diverts first second) ∨
    (∀ error ∈ met, error.entered ≠ entered) ∧ definition.Follows first second

/-- Every activity of a history leads to the next one. -/
def Stepwise (definition : ProcessDefinition) (history : List String) (met : List Delivery) : Prop :=
  ∀ place first second, history[place]? = some first → history[place + 1]? = some second →
    definition.Leads met (place + 1) first second

theorem Stepwise.enter (steps : definition.Stepwise history met) {activity : String}
    (leads : ∀ last, history.getLast? = some last → definition.Leads met history.length last activity) :
    definition.Stepwise (history ++ [activity]) met := by
  intro place first second atFirst atSecond
  have within : place + 1 < (history ++ [activity]).length := (List.getElem?_eq_some_iff.mp atSecond).1
  rw [List.length_append, List.length_singleton] at within
  rw [List.getElem?_append_left (by omega)] at atFirst
  by_cases old : place + 1 < history.length
  · rw [List.getElem?_append_left old] at atSecond
    exact steps place first second atFirst atSecond
  · have here : history.length = place + 1 := by omega
    have last : history.getLast? = some first := by
      rw [List.getLast?_eq_getElem?, here]
      exact atFirst
    rw [List.getElem?_append_right (by omega), here, Nat.sub_self] at atSecond
    obtain rfl := Option.some.inj atSecond
    exact here ▸ leads first last

/-- An error that is delivered in the last activity of a history is not one that led on from an earlier one. -/
theorem Stepwise.meet (steps : definition.Stepwise history met) {error : Delivery}
    (here : error.entered = history.length) : definition.Stepwise history (met ++ [error]) := by
  intro place first second atFirst atSecond
  have within : place + 1 < history.length := (List.getElem?_eq_some_iff.mp atSecond).1
  rcases steps place first second atFirst atSecond with ⟨met, member, diverts⟩ | ⟨unmet, follows⟩
  · exact .inl ⟨met, List.mem_append_left _ member, diverts⟩
  · refine .inr ⟨fun other member => ?_, follows⟩
    rcases List.mem_append.mp member with old | new
    · exact unmet other old
    · rw [List.mem_singleton.mp new, here]
      omega

namespace Route

/-- A route that is to go on at a place comes from the activity before it, or by an error. -/
theorem leads {place : Nat} {activity : Activity} (route : definition.Route history met (.onward place))
    (found : definition.activities[place]? = some activity) (last : String) (atLast : history.getLast? = some last) :
    definition.Leads met history.length last activity.id := by
  cases route.came with
  | begun empty =>
    rw [empty] at atLast
    cases atLast
  | passed last' found' unmet =>
    obtain rfl := Option.some.inj (last'.symm.trans atLast)
    refine .inr ⟨fun error member => Nat.ne_of_lt (unmet error member), ?_⟩
    exact ⟨_, congrArg (Option.map Activity.id) found', congrArg (Option.map Activity.id) found⟩
  | diverted last' member here boundary =>
    obtain rfl := Option.some.inj (last'.symm.trans atLast)
    obtain ⟨next, atTarget, diverts⟩ := boundary?_diverts boundary
    obtain rfl := Option.some.inj (found.symm.trans atTarget)
    exact .inl ⟨_, member, here, diverts⟩

theorem stepwise (route : definition.Route history met stand) : definition.Stepwise history met := by
  induction route with
  | begins => exact fun _ _ _ atFirst => nomatch atFirst
  | passes route found _ ih | waits route found _ ih => exact ih.enter (route.leads found)
  | completes _ ih => exact ih
  | diverts _ _ _ _ ih | fails _ _ _ _ ih => exact ih.meet rfl

/-- A history begins with the definition's first activity. -/
theorem head (route : definition.Route history met stand) :
    (history = [] ∧ stand = .onward 0) ∨ history.head? = (definition.activities.head?).map Activity.id := by
  induction route with
  | begins => exact .inl ⟨rfl, rfl⟩
  | passes _ found _ ih | waits _ found _ ih =>
    right
    rcases ih with ⟨rfl, start⟩ | begun
    · cases start
      rw [List.head?_eq_getElem? (l := definition.activities), found]
      rfl
    · obtain ⟨first, isFirst⟩ := Option.isSome_iff_exists.mp
        (List.isSome_head?.mpr (List.ne_nil_of_mem (List.mem_of_getElem? found)))
      rw [isFirst] at begun
      rw [List.head?_append, begun, isFirst]
      rfl
  | completes _ ih | diverts _ _ _ _ ih | fails _ _ _ _ ih =>
    right
    exact ih.resolve_left (by simp)

/-- A route past the definition's end has gone by its last activity, and not by an error in there. -/
theorem past_end {place : Nat} (route : definition.Route history met (.onward place))
    (past : definition.activities.length ≤ place) :
    history.getLast? = definition.activities.getLast?.map Activity.id ∧
      ∀ error ∈ met, error.entered ≠ history.length := by
  cases route.came with
  | begun empty unmet =>
    rw [List.length_eq_zero_iff.mp (Nat.le_zero.mp past), empty, unmet]
    exact ⟨rfl, nofun⟩
  | @passed place _ last found unmet =>
    have within : place < definition.activities.length := (List.getElem?_eq_some_iff.mp found).1
    have final : definition.activities.getLast? = definition.activities[place]? := by
      rw [List.getLast?_eq_getElem?]
      congr 1
      omega
    rw [last, final, found]
    exact ⟨rfl, fun error member => Nat.ne_of_lt (unmet error member)⟩
  | diverted _ _ _ boundary =>
    obtain ⟨next, atTarget, _⟩ := boundary?_diverts boundary
    exact absurd (List.getElem?_eq_some_iff.mp atTarget).1 (Nat.not_lt_of_le past)

/-- An error that no boundary catches ends the route. -/
theorem uncaught (route : definition.Route history met stand) :
    ∀ error ∈ met, definition.boundary? error.activity = none → stand = .failed error.code := by
  have standing {place : Nat} {error : Delivery}
      (ended : Standing.onward place = .failed error.code ∨ Standing.waiting place = .failed error.code) : False := by
    rcases ended with ended | ended <;> cases ended
  induction route with
  | begins => simp
  | passes _ _ _ ih | waits _ _ _ ih =>
    intro error member loose
    exact (standing (.inl (ih error member loose))).elim
  | completes _ ih =>
    intro error member loose
    exact (standing (.inr (ih error member loose))).elim
  | diverts _ _ boundary _ ih =>
    intro error member loose
    rcases List.mem_append.mp member with old | new
    · exact (standing (.inr (ih error old loose))).elim
    · rw [List.mem_singleton.mp new, boundary] at loose
      cases loose
  | fails _ _ _ _ ih =>
    intro error member loose
    rcases List.mem_append.mp member with old | new
    · exact (standing (.inr (ih error old loose))).elim
    · rw [List.mem_singleton.mp new]

/-- Without errors a route goes straight through the definition. -/
theorem straight (route : definition.Route history met stand) (unmet : met = []) :
    ∃ entered, history = (definition.activities.take entered).map Activity.id ∧
      (stand = .onward entered ∨ ∃ place, stand = .waiting place ∧ entered = place + 1) := by
  have another {place : Nat} {activity : Activity} (found : definition.activities[place]? = some activity) :
      (definition.activities.take place).map Activity.id ++ [activity.id] =
        (definition.activities.take (place + 1)).map Activity.id := by
    rw [List.take_add_one, found, List.map_append]
    rfl
  induction route with
  | begins => exact ⟨0, rfl, .inl rfl⟩
  | passes _ found _ ih =>
    obtain ⟨entered, rfl, onward | ⟨_, waiting, _⟩⟩ := ih unmet
    · cases onward
      exact ⟨_, another found, .inl rfl⟩
    · cases waiting
  | waits _ found _ ih =>
    obtain ⟨entered, rfl, onward | ⟨_, waiting, _⟩⟩ := ih unmet
    · cases onward
      exact ⟨_, another found, .inr ⟨_, rfl, rfl⟩⟩
    · cases waiting
  | completes _ ih =>
    obtain ⟨entered, rfl, onward | ⟨_, waiting, rfl⟩⟩ := ih unmet
    · cases onward
    · cases waiting
      exact ⟨_, rfl, .inl rfl⟩
  | diverts _ _ _ _ _ | fails _ _ _ _ _ => cases List.append_ne_nil_of_right_ne_nil _ (List.cons_ne_nil _ _) unmet

end Route

end ProcessDefinition

/-- An instance that is to go on at a place comes by the route to the next activity that it has to wait in, or to the
definition's end. -/
theorem ProcessInstance.routed_goOn {definition : ProcessDefinition} {run : ProcessInstance} {met : List Delivery}
    {place : Nat} (route : definition.Route run.history met (.onward place)) (active : run.state = .active)
    (errors : run.businessErrors = met.map Delivery.code) :
    (run.goOn (definition.activities.drop place)).Routed definition met := by
  generalize left : definition.activities.drop place = activities
  induction activities generalizing run place with
  | nil =>
    rw [goOn_nil]
    exact ⟨errors, _, route, List.drop_eq_nil_iff.mp left, if_pos active, rfl⟩
  | cons activity rest ih =>
    have found : definition.activities[place]? = some activity := by
      rw [← List.head?_drop, left]
      rfl
    have further : definition.activities.drop (place + 1) = rest := by
      rw [← List.tail_drop, left]
      rfl
    rw [goOn_cons]
    cases bound : activity.externalTopic with
    | some topic =>
      refine ⟨errors, _, route.waits found bound, active, ?_⟩
      rw [found]
      rfl
    | none =>
      have onward : definition.Route (run.enter activity.id).history met (.onward (place + 1)) :=
        route.passes found bound
      exact ih onward active errors further

end TaskLeasing
