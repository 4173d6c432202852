import TaskLeasing.Engine.Step
import Mathlib.Data.List.Induction

namespace TaskLeasing

/-- What can happen to an engine: a call of it, or the end of one of its jobs. -/
inductive EngineMove
  | call (now : Instant) (fresh : FreshNames) {kind : AnswerKind} (operation : Operation kind)
  | endJob (job : String)

def Engine.take (e : Engine) : EngineMove → Engine
  | .call now fresh operation => (e.step now fresh operation).engine
  | .endJob job => e.markExecuted job

/-- The engine after moves one after the other. -/
def Engine.run (e : Engine) (moves : List EngineMove) : Engine := moves.foldl Engine.take e

@[simp] theorem Engine.run_nil (e : Engine) : e.run [] = e := rfl

@[simp] theorem Engine.run_cons (e : Engine) (move : EngineMove) (rest : List EngineMove) :
    e.run (move :: rest) = (e.take move).run rest := rfl

@[simp] theorem Engine.run_append (e : Engine) (before after : List EngineMove) :
    e.run (before ++ after) = (e.run before).run after := List.foldl_append

/-- Names that have nothing in common. -/
structure FreshNames.Apart (a b : FreshNames) : Prop where
  instanceId : a.instanceId ≠ b.instanceId
  execution : a.execution ≠ b.execution
  task : a.task ≠ b.task
  job : a.job ≠ b.job
  incident : a.incident ≠ b.incident

instance (a b : FreshNames) : Decidable (a.Apart b) :=
  decidable_of_iff (a.instanceId ≠ b.instanceId ∧ a.execution ≠ b.execution ∧ a.task ≠ b.task ∧
      a.job ≠ b.job ∧ a.incident ≠ b.incident)
    ⟨fun ⟨instanceId, execution, task, job, incident⟩ => ⟨instanceId, execution, task, job, incident⟩,
      fun apart => ⟨apart.instanceId, apart.execution, apart.task, apart.job, apart.incident⟩⟩

def EngineMove.names? : EngineMove → Option FreshNames
  | .call _ fresh _ => some fresh
  | .endJob _ => none

/-- The names that moves bring for what they may create. -/
def namesOf (moves : List EngineMove) : List FreshNames := moves.filterMap EngineMove.names?

/-- No two moves bring the same name. -/
def FreshMoves (moves : List EngineMove) : Prop := (namesOf moves).Pairwise FreshNames.Apart

instance (moves : List EngineMove) : Decidable (FreshMoves moves) :=
  inferInstanceAs (Decidable ((namesOf moves).Pairwise FreshNames.Apart))

theorem namesOf_append (before after : List EngineMove) :
    namesOf (before ++ after) = namesOf before ++ namesOf after := List.filterMap_append

theorem FreshMoves.left {before after : List EngineMove} (fresh : FreshMoves (before ++ after)) :
    FreshMoves before := by
  unfold FreshMoves at fresh
  rw [namesOf_append] at fresh
  exact (List.pairwise_append.mp fresh).1

/-- Names that are brought later are apart from all that were brought before. -/
theorem FreshMoves.apart {before after : List EngineMove} {early late : FreshNames}
    (fresh : FreshMoves (before ++ after)) (atEarly : early ∈ namesOf before) (atLate : late ∈ namesOf after) :
    early.Apart late := by
  unfold FreshMoves at fresh
  rw [namesOf_append, List.pairwise_append] at fresh
  exact fresh.2.2 early atEarly late atLate

/-- An engine that calls can make of an empty one, each with names that none before it had. -/
def Engine.Reachable (e : Engine) : Prop := ∃ moves, FreshMoves moves ∧ Engine.empty.run moves = e

end TaskLeasing
