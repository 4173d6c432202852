import TaskLeasing.Proofs.System.Queuing

namespace TaskLeasing

/-- A delayed action whose time has come. -/
def DelayedAction.Rested {α : Type} (d : DelayedAction α) (now : Instant) : Prop := ∃ due ∈ d.due, due ≤ now

instance {α : Type} (d : DelayedAction α) (now : Instant) : Decidable (d.Rested now) :=
  inferInstanceAs (Decidable (∃ due ∈ d.due, due ≤ now))

theorem DelayedAction.Rested.mono {α : Type} {d : DelayedAction α} {now time : Instant} (rested : d.Rested now)
    (later : now ≤ time) : d.Rested time := by
  obtain ⟨due, known, come⟩ := rested
  exact ⟨due, known, Instant.le_trans come later⟩

namespace Host

variable {α : Type}

/-- Only what has rested is woken. -/
theorem wake_delayed (h : Host α) (now : Instant) (number : Nat) : h.wake now number = h ∨
    ∃ d ∈ h.delayed, d.number = number ∧ d.Rested now ∧
      (h.wake now number).delayed = h.delayed.filter fun other => other.number ≠ d.number := by
  cases found : h.delayed.find? fun d => d.number = number ∧ d.due.any (· ≤ now) with
  | none => exact .inl (by simp only [Host.wake, found])
  | some d =>
    have fits := List.find?_some found
    obtain ⟨rfl, due⟩ : d.number = number ∧ d.due.any (· ≤ now) := of_decide_eq_true fits
    obtain ⟨time, known, come⟩ := (Option.any_eq_true _ _).mp due
    refine .inr ⟨d, List.mem_of_find?_eq_some found, rfl, ⟨time, known, of_decide_eq_true come⟩, ?_⟩
    simp only [Host.wake, found]
    rfl

end Host

namespace System

/-- What the running of work delays: the lease of a retry. -/
def delayedBy (s : System) : Work → List (DelayedAction Work)
  | .deferRetry registration delay => [⟨s.host.issued, "retry", s.now.plus? delay, .lease registration⟩]
  | _ => []

/-- The leases of retries that a move delays, each under the number it gets. -/
def delayedIn (s : System) (move : Move) : List (DelayedAction Work) :=
  (s.taken? move).toList.flatMap s.delayedBy

variable {s : System} {move : Move}

/-- No act delays anything. -/
theorem Acts.delayed {after : System} {asks : (kind : AnswerKind) → Operation kind → Prop} {works : Work → Prop}
    {counts : Prop} (acts : s.Acts asks works counts after) : after.host.delayed = s.host.delayed := by
  have enqueues : s.Enqueues after fun _ => True := Acts.enqueues (fun _ _ => trivial) acts fun _ _ => trivial
  exact enqueues.delayed

theorem delayed_finishAction (s : System) (action : Nat) : (s.finishAction action).host.delayed = s.host.delayed := by
  have enqueues : s.Enqueues (s.finishAction action) fun _ => True := s.enqueues_finishAction action
  exact enqueues.delayed

theorem delayed_runAsyncs (s : System) (label : String) (tasks : List LeasedTask) :
    (tasks.foldl (fun s task => s.runAsync label (.process task)) s).host.delayed = s.host.delayed := by
  induction tasks generalizing s with
  | nil => rfl
  | cons first rest ih => exact ih (s.runAsync label (.process first))

theorem delayed_runAction {action : Nat} {a : HostAction Work} (runs : s.host.running? action = some a) :
    (s.runAction action).2.host.delayed = s.host.delayed ++ s.delayedBy a.work := by
  have plain {t : System} (same : t.host.delayed = s.host.delayed) :
      (t.finishAction action).host.delayed = s.host.delayed ++ [] := by
    rw [List.append_nil, delayed_finishAction, same]
  unfold System.runAction
  simp only [runs]
  cases a.work with
  | deferLease registration => exact plain rfl
  | lease registration => exact plain (s.acts_leaseLogged registration).delayed
  | deferRetry registration delay => exact delayed_finishAction _ action
  | handOut tasks => exact plain (s.delayed_runAsyncs "process" tasks)
  | process task =>
    have enqueues : s.Enqueues (s.process (some action) task).2 fun _ => True :=
      enqueues_process (fun _ _ => trivial) (some action) task
    have processed := enqueues.delayed
    simp only
    split
    · next outcome t result =>
      rw [result] at processed
      exact plain processed
    · next call t result =>
      rw [result] at processed
      exact processed.trans (List.append_nil _).symm
  | compensate task worker vars error => exact plain (s.acts_compensate task worker vars error).delayed

/-- Leases of retries are delayed when their turn comes after commit, and each one until its time has come. -/
theorem delayed_step (numbered : s.host.Numbered) (move : Move) :
    (s.step move).2.host.delayed = s.host.delayed ++ s.delayedIn move ∨
      s.delayedIn move = [] ∧ ∃ d : DelayedAction Work, d.Rested s.now ∧ move = .wake d.number ∧
        s.host.delayed.Perm (d :: (s.step move).2.host.delayed) := by
  have still (same : (s.step move).2.host.delayed = s.host.delayed) (untaken : s.taken? move = none) :
      (s.step move).2.host.delayed = s.host.delayed ++ s.delayedIn move := by
    rw [same, delayedIn, untaken]
    exact (List.append_nil _).symm
  have takes {action : Nat} (up : move = .start action ∨ move = .resume action) :
      (s.step move).2.host.delayed = s.host.delayed ++ s.delayedIn move := by
    rcases s.takeUp_cases up with ⟨host, a, taken, runs, _, ⟨delayed, issued⟩, stepped⟩ |
      ⟨untaken, _, host, ⟨delayed, _⟩, stepped⟩
    · rw [stepped, delayedIn, taken, delayed_runAction (s := { s with host := host }) runs, Option.toList_some,
        List.flatMap_singleton]
      simp only [delayed]
      cases a.work <;> simp [delayedBy, issued]
    · exact still (by rw [stepped]; exact delayed) untaken
  cases move with
  | start action => exact .inl (takes (.inl rfl))
  | resume action => exact .inl (takes (.inr rfl))
  | wake action =>
    simp only [System.step]
    split
    · exact .inl (List.append_nil _).symm
    · next submitted =>
      rcases s.host.wake_delayed s.now action with same | ⟨d, member, rfl, rested, delayed⟩
      · exact absurd (by rw [same]) submitted
      · refine .inr ⟨rfl, d, rested, rfl, ?_⟩
        change s.host.delayed.Perm (d :: (s.host.wake s.now d.number).delayed)
        rw [delayed]
        exact perm_cons_filter numbered.delayed member
  | _ => exact .inl (still (s.enqueues_step (by simp)).delayed rfl)

/-- Of the retries whose turn has come after commit, those are still delayed whose time has not come. -/
theorem delayed_run (numbered : s.host.Numbered) {moves : List Move} (forward : s.Forward moves) :
    ∃ woken : List (DelayedAction Work),
      (s.host.delayed ++ s.gather delayedIn moves).Perm ((s.run moves).host.delayed ++ woken) ∧
        ∀ d ∈ woken, d.Rested (s.run moves).now := by
  induction moves generalizing s with
  | nil => exact ⟨[], by simp [gather, System.run], by simp⟩
  | cons move rest ih =>
    obtain ⟨_, passes⟩ := passes_step numbered move
    obtain ⟨woken, later, rested⟩ := ih passes.numbered forward.2
    rcases delayed_step numbered move with same | ⟨none', d, come, _, delayed⟩
    · refine ⟨woken, ?_, rested⟩
      rw [gather, ← List.append_assoc, ← same]
      exact later
    · refine ⟨d :: woken, ?_, List.forall_mem_cons.mpr ⟨come.mono forward.now_le, rested⟩⟩
      rw [gather, none', List.nil_append]
      exact ((delayed.append_right _).trans (later.cons d)).trans List.perm_middle.symm

end System

end TaskLeasing
