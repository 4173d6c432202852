import TaskLeasing.Proofs.System.Asking
import TaskLeasing.Proofs.System.Duties
import Mathlib.Algebra.Order.Group.Multiset
import Mathlib.Tactic.Abel

namespace TaskLeasing.System

/-- All work that the host has not begun. -/
def toDo (s : System) : List Work := s.deferred ++ (s.awaiting ++ s.host.delayed.map DelayedAction.work)

variable {s : System}

theorem handed_eq (s : System) : s.handed = s.toDo.flatMap Work.leases := rfl

/-- Whether works are held back makes no difference for what is to be done. -/
theorem coe_toDo (s : System) : (s.toDo : Multiset Work) = ((s.gate.getD []).map Prod.snd : List Work) +
    ((s.host.queued.map HostAction.work : List Work) + ((s.host.waiting.map HostAction.work : List Work) +
      ((s.host.granted.map HostAction.work : List Work) +
        (s.host.delayed.map DelayedAction.work : List Work)) : Multiset Work)) := by
  unfold toDo deferred awaiting
  cases s.gate with
  | none => simp
  | some held => simp

theorem toDo_submit (s : System) (label : String) (bounded : Bool) (work : Work) :
    (toDo { s with host := s.host.submit label bounded work }).Perm (s.toDo ++ [work]) := by
  refine Multiset.coe_eq_coe.mp ?_
  simp only [← Multiset.coe_add, coe_toDo, Host.submit, List.map_append, List.map_cons, List.map_nil]
  abel

theorem toDo_defer (s : System) (label : String) (due : Option Instant) (work : Work) :
    (toDo { s with host := s.host.defer label due work }).Perm (s.toDo ++ [work]) := by
  refine Multiset.coe_eq_coe.mp ?_
  simp only [← Multiset.coe_add, coe_toDo, Host.defer, List.map_append, List.map_cons, List.map_nil]
  abel

/-- The end of an action may pass its permit on, and leaves what is to be done to be done. -/
theorem toDo_finish (numbered : s.host.Numbered) (action : Nat) :
    (toDo { s with host := s.host.finish action }).Perm s.toDo := by
  have passed := Multiset.coe_eq_coe.mpr ((numbered.finish action).2.map HostAction.work)
  simp only [List.map_append, ← Multiset.coe_add] at passed
  refine Multiset.coe_eq_coe.mp ?_
  simp only [coe_toDo, Host.finish_queued, Host.finish_delayed]
  rw [← add_assoc (((s.host.finish action).waiting.map HostAction.work : List Work) : Multiset Work), passed,
    add_assoc]

/-- A commit gives the works that were held back to the host. -/
theorem toDo_commit (s : System) : s.commit.2.toDo.Perm s.toDo := by
  have submitted (held : List (String × Work)) (t : System) :
      (held.foldl (fun s (entry : String × Work) => s.submit entry.1 false entry.2) t).toDo.Perm
        (t.toDo ++ held.map Prod.snd) := by
    induction held generalizing t with
    | nil => rw [List.map_nil, List.append_nil]; rfl
    | cons first rest ih =>
      have one : ((t.submit first.1 false first.2).toDo ++ rest.map Prod.snd).Perm _ :=
        (t.toDo_submit first.1 false first.2).append_right (rest.map Prod.snd)
      rw [List.append_assoc] at one
      exact (ih _).trans one
  unfold commit
  cases gate : s.gate with
  | none => exact .refl _
  | some held =>
    refine Multiset.coe_eq_coe.mp ((Multiset.coe_eq_coe.mpr (submitted held { s with gate := some [] })).trans ?_)
    rw [← Multiset.coe_add, coe_toDo, coe_toDo s, gate]
    simp only [Option.getD_some, List.map_nil, Multiset.coe_nil, zero_add]
    abel

/-- An action that is taken up has its work at hand, unless it has to wait for a permit. -/
theorem toDo_start (numbered : s.host.Numbered) {a : HostAction Work} (member : a ∈ s.host.queued) :
    let after : System := { s with host := s.host.start a.number }
    ((s.host.start a.number).running? a.number = some a ∧ s.toDo.Perm (a.work :: after.toDo)) ∨
      ((s.host.start a.number).running? a.number = none ∧ s.toDo.Perm after.toDo) := by
  intro after
  obtain ⟨_, queued, granted, delayed, taken⟩ := numbered.start member
  have queued := Multiset.coe_eq_coe.mpr (queued.map HostAction.work)
  rcases taken with ⟨waiting, runs⟩ | ⟨waiting, waits⟩
  · refine .inl ⟨runs, Multiset.coe_eq_coe.mp ?_⟩
    rw [← Multiset.cons_coe, coe_toDo, coe_toDo after, queued]
    simp only [after, waiting, granted, delayed, List.map_cons, ← Multiset.cons_coe, ← Multiset.singleton_add]
    abel
  · refine .inr ⟨waits, Multiset.coe_eq_coe.mp ?_⟩
    rw [coe_toDo, coe_toDo after, queued]
    simp only [after, waiting, granted, delayed, List.map_append, List.map_cons, List.map_nil, ← Multiset.cons_coe,
      ← Multiset.coe_add, ← Multiset.singleton_add, Multiset.coe_nil]
    abel

theorem toDo_resume (numbered : s.host.Numbered) {a : HostAction Work} (member : a ∈ s.host.granted) :
    (s.host.resume a.number).running? a.number = some a ∧
      s.toDo.Perm (a.work :: toDo { s with host := s.host.resume a.number }) := by
  obtain ⟨_, granted, queued, waiting, delayed, runs⟩ := numbered.resume member
  have granted := Multiset.coe_eq_coe.mpr (granted.map HostAction.work)
  refine ⟨runs, Multiset.coe_eq_coe.mp ?_⟩
  rw [← Multiset.cons_coe, coe_toDo, coe_toDo, granted]
  simp only [queued, waiting, delayed, List.map_cons, ← Multiset.cons_coe, ← Multiset.singleton_add]
  abel

/-- What is delayed stays to be done when its time has come. -/
theorem toDo_wake (numbered : s.host.Numbered) (action : Nat) :
    (toDo { s with host := s.host.wake s.now action }).Perm s.toDo := by
  rcases numbered.wake s.now action with same | ⟨d, _, _, delayed, queued, waiting, granted⟩
  · rw [same]
  · have delayed := Multiset.coe_eq_coe.mpr (delayed.map DelayedAction.work)
    refine Multiset.coe_eq_coe.mp ?_
    rw [coe_toDo, coe_toDo s, delayed]
    simp only [queued, waiting, granted, List.map_append, List.map_cons, List.map_nil, ← Multiset.cons_coe,
      ← Multiset.coe_add, ← Multiset.singleton_add, Multiset.coe_nil]
    abel

end TaskLeasing.System
