import TaskLeasing.Host
import TaskLeasing.Proofs.Keyed
import Mathlib.Data.List.Nodup

namespace TaskLeasing

variable {α : Type}

namespace Host

variable {h : Host α}

/-- The numbers of all actions that a host has and has not ended. -/
def numbers (h : Host α) : List Nat :=
  h.queued.map HostAction.number ++ (h.waiting.map HostAction.number ++ (h.granted.map HostAction.number ++
    (h.running.map HostAction.number ++ h.delayed.map DelayedAction.number)))

theorem count_numbers (h : Host α) (k : Nat) :
    h.numbers.count k = (h.queued.map HostAction.number).count k + (h.waiting.map HostAction.number).count k +
      (h.granted.map HostAction.number).count k + (h.running.map HostAction.number).count k +
      (h.delayed.map DelayedAction.number).count k := by
  simp only [numbers, List.count_append]
  omega

/-- No two actions of a host have the same number, and none has one that is yet to be issued. -/
structure Numbered (h : Host α) : Prop where
  distinct : h.numbers.Nodup
  issued : ∀ number ∈ h.numbers, number < h.issued

/-- Actions may be taken away, and those that stay may be moved about. -/
theorem Numbered.of_count {other : Host α} (numbered : h.Numbered)
    (fewer : ∀ k, other.numbers.count k ≤ h.numbers.count k) (issued : other.issued = h.issued) :
    other.Numbered where
  distinct := List.nodup_iff_count_le_one.mpr fun k =>
    Nat.le_trans (fewer k) (List.nodup_iff_count_le_one.mp numbered.distinct k)
  issued := by
    intro number member
    rw [issued]
    exact numbered.issued number 
      (List.count_pos_iff.mp (Nat.lt_of_lt_of_le (List.count_pos_iff.mpr member) (fewer number)))

/-- A host numbers what it is given next as no action is numbered yet. -/
theorem Numbered.of_next {other : Host α} (numbered : h.Numbered)
    (next : other.numbers.Perm (h.issued :: h.numbers)) (issued : other.issued = h.issued + 1) :
    other.Numbered where
  distinct := by
    refine next.nodup_iff.mpr (List.nodup_cons.mpr ⟨fun member => ?_, numbered.distinct⟩)
    exact Nat.lt_irrefl _ (numbered.issued h.issued member)
  issued := by
    intro number member
    rw [issued]
    rcases List.mem_cons.mp (next.subset member) with rfl | old
    · exact Nat.lt_succ_self _
    · exact Nat.lt_succ_of_lt (numbered.issued number old)

theorem numbered_idle (permits : Nat) : (idle permits : Host α).Numbered where
  distinct := .nil
  issued := by simp [numbers, idle]

theorem Numbered.submit (numbered : h.Numbered) (label : String) (bounded : Bool) (work : α) :
    (h.submit label bounded work).Numbered := by
  refine numbered.of_next ?_ rfl
  simp only [numbers, Host.submit, List.map_append, List.map_cons, List.map_nil, List.append_assoc,
    List.singleton_append]
  exact List.perm_middle

theorem Numbered.defer (numbered : h.Numbered) (label : String) (due : Option Instant) (work : α) :
    (h.defer label due work).Numbered := by
  refine numbered.of_next ?_ rfl
  simp only [numbers, Host.defer, List.map_append, List.map_cons, List.map_nil, ← List.append_assoc]
  exact List.perm_append_singleton _ _

theorem Numbered.queued (numbered : h.Numbered) : (h.queued.map HostAction.number).Nodup :=
  (List.nodup_append.mp numbered.distinct).1

theorem Numbered.granted (numbered : h.Numbered) : (h.granted.map HostAction.number).Nodup := by
  have waiting := (List.nodup_append.mp numbered.distinct).2.1
  exact (List.nodup_append.mp (List.nodup_append.mp waiting).2.1).1

theorem Numbered.delayed (numbered : h.Numbered) : (h.delayed.map DelayedAction.number).Nodup := by
  have waiting := (List.nodup_append.mp numbered.distinct).2.1
  have granted := (List.nodup_append.mp waiting).2.1
  exact (List.nodup_append.mp (List.nodup_append.mp granted).2.1).2.1

/-- An action that is queued or granted its permit is not running yet. -/
theorem Numbered.idle_of_count (numbered : h.Numbered) {number : Nat}
    (elsewhere : 0 < (h.queued.map HostAction.number).count number +
      (h.granted.map HostAction.number).count number) : h.running? number = none := by
  refine List.find?_eq_none.mpr fun other member same => ?_
  have running : 0 < (h.running.map HostAction.number).count number :=
    List.count_pos_iff.mpr (List.mem_map.mpr ⟨other, member, by simpa using same⟩)
  have once := List.nodup_iff_count_le_one.mp numbered.distinct number
  rw [count_numbers] at once
  omega

theorem running?_append {number : Nat} (none' : h.running? number = none) (a : HostAction α)
    (same : a.number = number) {other : Host α} (running : other.running = h.running ++ [a]) :
    other.running? number = some a := by
  unfold Host.running? at none' ⊢
  simp [running, List.find?_append, none', same]

/-- An action that starts is found running, or has to wait for a permit; no other action is touched. -/
theorem Numbered.start (numbered : h.Numbered) {a : HostAction α} (member : a ∈ h.queued) :
    (h.start a.number).Numbered ∧ h.queued.Perm (a :: (h.start a.number).queued) ∧
      (h.start a.number).granted = h.granted ∧ (h.start a.number).delayed = h.delayed ∧
      ((h.start a.number).waiting = h.waiting ∧ (h.start a.number).running? a.number = some a ∨
        (h.start a.number).waiting = h.waiting ++ [a] ∧ (h.start a.number).running? a.number = none) := by
  have found := find?_key numbered.queued member
  have apart := perm_cons_filter numbered.queued member
  have counted := fun k => (apart.map HostAction.number).count_eq k
  have absent : h.running? a.number = none :=
    numbered.idle_of_count (Nat.add_pos_left (List.count_pos_iff.mpr (List.mem_map_of_mem member)) _)
  unfold Host.start
  simp only [found]
  have runs (other : Host α) (queued : other.queued = h.queued.filter fun b => b.number ≠ a.number)
      (waiting : other.waiting = h.waiting) (granted : other.granted = h.granted)
      (running : other.running = h.running ++ [a]) (delayed : other.delayed = h.delayed)
      (issued : other.issued = h.issued) : other.Numbered := by
    refine numbered.of_count (fun k => ?_) issued
    have := counted k
    simp only [count_numbers, queued, waiting, granted, running, delayed, List.map_append, List.map_cons,
      List.map_nil, List.count_append, List.count_cons, List.count_nil] at this ⊢
    omega
  split
  · exact ⟨runs _ rfl rfl rfl rfl rfl rfl, apart, rfl, rfl, .inl ⟨rfl, running?_append absent a rfl rfl⟩⟩
  · split
    · exact ⟨runs _ rfl rfl rfl rfl rfl rfl, apart, rfl, rfl, .inl ⟨rfl, running?_append absent a rfl rfl⟩⟩
    · refine ⟨numbered.of_count (fun k => ?_) rfl, apart, rfl, rfl, .inr ⟨rfl, absent⟩⟩
      have := counted k
      simp only [count_numbers, List.map_append, List.map_cons, List.map_nil, List.count_append,
        List.count_cons, List.count_nil] at this ⊢
      omega

/-- An action that has its permit runs when it is taken up. -/
theorem Numbered.resume (numbered : h.Numbered) {a : HostAction α} (member : a ∈ h.granted) :
    (h.resume a.number).Numbered ∧ h.granted.Perm (a :: (h.resume a.number).granted) ∧
      (h.resume a.number).queued = h.queued ∧ (h.resume a.number).waiting = h.waiting ∧
      (h.resume a.number).delayed = h.delayed ∧ (h.resume a.number).running? a.number = some a := by
  have found := find?_key numbered.granted member
  have apart := perm_cons_filter numbered.granted member
  have counted := fun k => (apart.map HostAction.number).count_eq k
  have absent : h.running? a.number = none :=
    numbered.idle_of_count (Nat.add_pos_right _ (List.count_pos_iff.mpr (List.mem_map_of_mem member)))
  have resumed : h.resume a.number = { h with
      granted := h.granted.filter fun other => other.number ≠ a.number
      running := h.running ++ [a] } := by
    simp only [Host.resume, found]
  rw [resumed]
  refine ⟨numbered.of_count (fun k => ?_) rfl, apart, rfl, rfl, rfl, running?_append absent a rfl rfl⟩
  have := counted k
  simp only [count_numbers, List.map_append, List.map_cons, List.map_nil, List.count_append, List.count_cons,
    List.count_nil] at this ⊢
  omega

/-- What starts or goes on was not delayed, and is given no number. -/
theorem start_delayed (h : Host α) (number : Nat) :
    (h.start number).delayed = h.delayed ∧ (h.start number).issued = h.issued := by
  unfold Host.start
  split
  · exact ⟨rfl, rfl⟩
  · simp only
    split
    · exact ⟨rfl, rfl⟩
    · split <;> exact ⟨rfl, rfl⟩

theorem resume_delayed (h : Host α) (number : Nat) :
    (h.resume number).delayed = h.delayed ∧ (h.resume number).issued = h.issued := by
  unfold Host.resume
  split <;> exact ⟨rfl, rfl⟩

theorem finish_queued (h : Host α) (number : Nat) : (h.finish number).queued = h.queued := by
  unfold Host.finish
  split
  · rfl
  · split
    · rfl
    · split <;> rfl

theorem finish_delayed (h : Host α) (number : Nat) : (h.finish number).delayed = h.delayed := by
  unfold Host.finish
  split
  · rfl
  · split
    · rfl
    · split <;> rfl

/-- When an action ends, the first that waits may be granted its permit. -/
theorem Numbered.finish (numbered : h.Numbered) (number : Nat) :
    (h.finish number).Numbered ∧
      ((h.finish number).waiting ++ (h.finish number).granted).Perm (h.waiting ++ h.granted) := by
  unfold Host.finish
  split
  · exact ⟨numbered, .refl _⟩
  · have fewer := fun k => ((List.filter_sublist (p := fun other => other.number ≠ number)
      (l := h.running)).map HostAction.number).count_le k
    split
    · refine ⟨numbered.of_count (fun k => ?_) rfl, .refl _⟩
      have := fewer k
      simp only [count_numbers]
      omega
    · split
      · next waits =>
        refine ⟨numbered.of_count (fun k => ?_) rfl, by simp [waits]⟩
        have := fewer k
        simp only [count_numbers]
        omega
      · next next' rest waits =>
        refine ⟨numbered.of_count (fun k => ?_) rfl, ?_⟩
        · have := fewer k
          simp only [count_numbers, waits, List.map_append, List.map_cons, List.map_nil, List.count_append,
            List.count_cons, List.count_nil] at this ⊢
          omega
        · simp only [waits, List.cons_append, ← List.append_assoc]
          exact List.perm_append_singleton _ _

/-- A delayed action whose time has come is queued; before that nothing happens. -/
theorem Numbered.wake (numbered : h.Numbered) (now : Instant) (number : Nat) :
    h.wake now number = h ∨ ∃ d, d.due.any (· ≤ now) ∧ (h.wake now number).Numbered ∧
      h.delayed.Perm (d :: (h.wake now number).delayed) ∧
      (h.wake now number).queued = h.queued ++ [⟨h.issued, d.label, true, d.work⟩] ∧
      (h.wake now number).waiting = h.waiting ∧ (h.wake now number).granted = h.granted := by
  cases found : h.delayed.find? fun d => d.number = number ∧ d.due.any (· ≤ now) with
  | none => exact .inl (by simp only [Host.wake, found])
  | some d =>
    have member := List.mem_of_find?_eq_some found
    obtain ⟨same, due⟩ : d.number = number ∧ d.due.any (· ≤ now) := by
      have fits := List.find?_some found
      exact of_decide_eq_true fits
    subst same
    have apart := perm_cons_filter numbered.delayed member
    have counted := fun k => (apart.map DelayedAction.number).count_eq k
    refine .inr ⟨d, due, ?_, ?_⟩
    · simp only [Host.wake, found]
      refine Numbered.submit ?_ d.label true d.work
      refine numbered.of_count (fun k => ?_) rfl
      have := counted k
      simp only [count_numbers, List.map_cons, List.count_cons] at this ⊢
      omega
    · simp only [Host.wake, found]
      exact ⟨apart, rfl, rfl, rfl⟩

theorem Numbered.woken (numbered : h.Numbered) (now : Instant) (number : Nat) : (h.wake now number).Numbered := by
  rcases numbered.wake now number with same | ⟨_, _, woken, _⟩
  · rw [same]
    exact numbered
  · exact woken

end Host

end TaskLeasing
