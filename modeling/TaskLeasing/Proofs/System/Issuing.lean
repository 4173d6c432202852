import TaskLeasing.Proofs.System.Hosting

namespace TaskLeasing.System

/-- Calls of processors are told apart by their numbers, which are given out one after the other. -/
structure Issued (s : System) : Prop where
  apart : (s.calls.map ProcessorCall.number).Nodup
  below : ∀ call ∈ s.calls, call.number ≤ s.callCount

variable {s after : System}

theorem issued_create (names : Naming) (now : Instant) (settings : Settings) (gated : Bool) :
    (create names now settings gated).Issued := ⟨.nil, fun _ none => (List.not_mem_nil none).elim⟩

namespace Issued

variable (issued : s.Issued)
include issued

theorem of_eq (calls : after.calls = s.calls) (callCount : after.callCount = s.callCount) : after.Issued := by
  refine ⟨calls ▸ issued.apart, ?_⟩
  rw [calls, callCount]
  exact issued.below

theorem bypass (bypasses : s.Bypasses after) : after.Issued := issued.of_eq bypasses.calls bypasses.callCount

theorem finishAction (action : Nat) : (s.finishAction action).Issued := by
  rcases s.finishAction_cases action with same | ⟨next, same⟩ <;> rw [same] <;> exact issued.of_eq rfl rfl

theorem finishCall (call : ProcessorCall) : (s.finishCall call).Issued := by
  unfold System.finishCall
  cases call.action with
  | none => exact issued
  | some action => exact issued.finishAction action

theorem dropCall (number : Nat) : (s.dropCall number).Issued where
  apart := issued.apart.sublist (List.filter_sublist.map _)
  below := fun call member => issued.below call (List.mem_of_mem_filter member)

/-- A call has a number of its own. -/
theorem callProcessor (action : Option Nat) (registration : Registration) (worker : String) (subject : CallSubject) :
    (s.callProcessor action registration worker subject).2.Issued where
  apart := by
    refine List.map_append ▸ issued.apart.append (List.nodup_singleton _) fun number old new => ?_
    obtain ⟨other, atOther, rfl⟩ := List.mem_map.mp old
    have above := issued.below other atOther
    rw [List.mem_singleton.mp new] at above
    exact Nat.not_succ_le_self _ above
  below := List.forall_mem_append.mpr
    ⟨fun other member => Nat.le_succ_of_le (issued.below other member), List.forall_mem_singleton.mpr (Nat.le_refl _)⟩

theorem process (action : Option Nat) (task : LeasedTask) : (s.process action task).2.Issued := by
  rcases s.process_cases action task with ⟨outcome, t, finished, bypasses⟩ | ⟨registration, subject, calling⟩
  · rw [finished]
    exact issued.bypass bypasses
  · rw [calling]
    exact issued.callProcessor action registration _ subject

theorem respond (task : String) (input : Json) : (s.respond task input).2.Issued := by
  have acts : s.ActsAnyhow (s.ask (.findTask task)).2 := Acts.done.ask trivial
  have asked := issued.bypass acts.bypasses
  unfold System.respond
  simp only
  split
  · next reason t result =>
    rw [result] at asked
    exact asked
  · next found t result =>
    rw [result] at asked
    split
    · exact asked
    · split
      · exact asked
      · split
        · exact asked
        · exact asked.callProcessor _ _ _ _

theorem runAction (action : Nat) : (s.runAction action).2.Issued := by
  have done {t : System} (bypasses : s.Bypasses t) : (t.finishAction action).Issued :=
    (issued.bypass bypasses).finishAction action
  unfold System.runAction
  split
  · exact issued
  · split
    · exact done ⟨⟨rfl, rfl, rfl, rfl⟩, rfl, rfl, rfl⟩
    · next registration _ => exact done (s.acts_leaseLogged registration).bypasses
    · exact done ⟨⟨rfl, rfl, rfl, rfl⟩, rfl, rfl, rfl⟩
    · next tasks _ => exact done (s.bypasses_runAsyncs "process" tasks)
    · next task _ =>
      have processed := issued.process (some action) task
      split
      · next outcome t result =>
        rw [result] at processed
        exact processed.finishAction action
      · next call t result =>
        rw [result] at processed
        exact processed
    · exact done (s.acts_compensate _ _ _ _).bypasses

theorem endCall (number : Nat) (kind : CallKind) (attempt : Attempt kind.Value) :
    (s.endCall number kind attempt).2.Issued := by
  have done {t : System} (call : ProcessorCall) (bypasses : (s.dropCall number).Bypasses t) :
      (t.finishCall call).Issued := ((issued.dropCall number).bypass bypasses).finishCall call
  unfold System.endCall
  split
  · exact issued
  · next call _ =>
    simp only
    split
    · next task ended _ => exact done call ((s.dropCall number).acts_endProcess call task ended).bypasses
    · next task ended _ => exact done call ((s.dropCall number).acts_endRequest call task ended).bypasses
    · next task _ ended _ => exact done call ((s.dropCall number).acts_endRespond call task ended).bypasses
    · exact issued

/-- Whatever moves, no two calls have one number. -/
theorem step (move : Move) : (s.step move).2.Issued := by
  cases move with
  | operate kind operation => exact issued.bypass (s.bypasses_operate operation)
  | register definitionKey topic lockTimeout vars contract =>
    exact issued.bypass (s.bypasses_register definitionKey topic lockTimeout vars contract)
  | sweep => exact issued.bypass s.acts_sweep.bypasses
  | dispatch key => exact issued.bypass (s.bypasses_dispatch key)
  | process task =>
    rw [step_process]
    exact issued.process none task
  | respond task input =>
    rw [step_respond]
    exact issued.respond task input
  | fireWatchdog payload => exact issued.bypass (s.acts_fireWatchdog payload).bypasses
  | setLockTimeout timeout =>
    simp only [System.step]
    split <;> exact issued.of_eq rfl rfl
  | answer number kind attempt => exact issued.endCall number kind attempt
  | start action =>
    simp only [System.step]
    split
    · have started : Issued { s with host := s.host.start action } := issued.of_eq rfl rfl
      exact started.runAction action
    · exact issued
  | resume action =>
    simp only [System.step]
    split
    · have resumed : Issued { s with host := s.host.resume action } := issued.of_eq rfl rfl
      exact resumed.runAction action
    · exact issued
  | wake action =>
    simp only [System.step]
    split <;> exact issued.of_eq rfl rfl
  | commit => exact issued.bypass s.bypasses_commit
  | runJob job => exact issued.bypass (s.bypasses_runJob job)
  | _ => exact issued.of_eq rfl rfl

end Issued

end TaskLeasing.System
