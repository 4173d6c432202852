import TaskLeasing.Proofs.System.Agenda
import TaskLeasing.Proofs.System.Conduct

namespace TaskLeasing.System

variable {s : System}

theorem does_host (s : System) {host : Host Work} {leases : List LeasedTask}
    (numbered : s.host.Numbered → host.Numbered)
    (handed : ({ s with host := host } : System).handed.Perm (s.handed ++ leases)) :
    s.Does { s with host := host } [] leases :=
  { Does.refl s with numbered := numbered, handed := handed }

theorem does_submit (s : System) (label : String) (bounded : Bool) (work : Work) :
    s.Does (s.submit label bounded work) [] work.leases := by
  have submitted : s.Does { s with host := s.host.submit label bounded work } [] work.leases := by
    refine s.does_host (fun numbered => numbered.submit label bounded work) ?_
    simpa [handed_eq] using (s.toDo_submit label bounded work).flatMap_right Work.leases
  exact submitted.then (does_note _ rfl)

theorem does_runAsync (s : System) (label : String) (work : Work) :
    s.Does (s.runAsync label work) [] work.leases := by
  have noted : s.Does (s.note (.runAsync label)) [] [] := s.does_note rfl
  exact noted.trans (does_submit _ label true work)

theorem does_runAsyncs (s : System) (label : String) (tasks : List LeasedTask) :
    s.Does (tasks.foldl (fun s task => s.runAsync label (.process task)) s) [] tasks := by
  induction tasks generalizing s with
  | nil => exact .refl s
  | cons first rest ih => exact (s.does_runAsync label (.process first)).trans (ih _)

theorem does_runAfter (s : System) (label : String) (delay : Span) (work : Work) :
    s.Does (s.runAfter label delay work) [] work.leases := by
  have noted : s.Does (s.note (.runAfter label delay)) [] [] := s.does_note rfl
  have deferred (t : System) (due : Option Instant) :
      t.Does { t with host := t.host.defer label due work } [] work.leases := by
    refine t.does_host (fun numbered => numbered.defer label due work) ?_
    simpa [handed_eq] using (t.toDo_defer label due work).flatMap_right Work.leases
  exact (noted.trans (deferred _ _)).then (does_note _ rfl)

/-- The end of an action may pass its permit on, and leaves what is on its way on its way. -/
theorem does_finishAction (numbered : s.host.Numbered) (action : Nat) : s.Does (s.finishAction action) [] [] := by
  have finished : s.Does { s with host := s.host.finish action } [] [] := by
    refine s.does_host (fun _ => (numbered.finish action).1) ?_
    rw [List.append_nil]
    exact (toDo_finish numbered action).flatMap_right _
  rcases s.finishAction_cases action with same | ⟨next, same⟩ <;> rw [same]
  · exact finished
  · exact finished.then (does_note _ rfl)

theorem does_finishCall (numbered : s.host.Numbered) (call : ProcessorCall) :
    s.Does (s.finishCall call) [] [] := by
  unfold finishCall
  cases call.action with
  | none => exact .refl s
  | some action => exact does_finishAction numbered action

theorem does_submits (held : List (String × Work)) (t : System) :
    t.Does (held.foldl (fun s (entry : String × Work) => s.submit entry.1 false entry.2) t) []
      ((held.map Prod.snd).flatMap Work.leases) := by
  induction held generalizing t with
  | nil => exact .refl t
  | cons first rest ih => exact (t.does_submit first.1 false first.2).trans (ih _)

/-- A commit leaves what is on its way on its way. -/
theorem does_commit (s : System) : s.Does s.commit.2 [] [] := by
  have handed : s.commit.2.handed.Perm s.handed := s.toDo_commit.flatMap_right _
  rw [← List.append_nil s.handed] at handed
  unfold commit at handed ⊢
  cases gate : s.gate with
  | none => exact .refl s
  | some held =>
    rw [gate] at handed
    exact { does_submits held { s with gate := some [] } with handed := handed }

/-- An action that is taken up has its leased tasks at hand, unless it has to wait for a permit. -/
theorem handed_start (numbered : s.host.Numbered) {a : HostAction Work} (member : a ∈ s.host.queued) :
    let after : System := { s with host := s.host.start a.number }
    ((s.host.start a.number).running? a.number = some a ∧ s.handed.Perm (a.work.leases ++ after.handed)) ∨
      ((s.host.start a.number).running? a.number = none ∧ s.handed.Perm after.handed) :=
  (toDo_start numbered member).imp (fun ⟨runs, toDo⟩ => ⟨runs, toDo.flatMap_right Work.leases⟩)
    fun ⟨waits, toDo⟩ => ⟨waits, toDo.flatMap_right Work.leases⟩

theorem handed_resume (numbered : s.host.Numbered) {a : HostAction Work} (member : a ∈ s.host.granted) :
    (s.host.resume a.number).running? a.number = some a ∧
      s.handed.Perm (a.work.leases ++ ({ s with host := s.host.resume a.number } : System).handed) :=
  (toDo_resume numbered member).imp_right fun toDo => toDo.flatMap_right Work.leases

/-- What is delayed stays on its way when its time has come. -/
theorem does_wake (numbered : s.host.Numbered) (action : Nat) :
    s.Does { s with host := s.host.wake s.now action } [] [] := by
  refine s.does_host (fun _ => numbered.woken s.now action) ?_
  rw [List.append_nil]
  exact (toDo_wake numbered action).flatMap_right _

end TaskLeasing.System
