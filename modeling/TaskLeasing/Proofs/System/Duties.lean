import TaskLeasing.System.Step
import TaskLeasing.Proofs.System.Deferral

namespace TaskLeasing

/-- Work, and the time from which it can be done. -/
abbrev Duty := Work × Instant

/-- The leased task that a call is an attempt at. -/
def CallSubject.attempt? : CallSubject → Option LeasedTask
  | .process task => some task
  | .request task => some task
  | .respond .. => none

/-- What a system has still to do: the works its host has not begun, and attempts that have not ended. -/
def System.duties (s : System) : List Duty :=
  (s.deferred ++ s.awaiting).map (fun work => (work, s.now)) ++
    (s.host.delayed.map (fun d => (d.work, d.due.getD .last)) ++
      s.calls.filterMap fun call => call.subject.attempt?.map fun lease => (.process lease, s.now))

/-- Duties may go and others come; all else stays. -/
structure System.Shifts (s after : System) (gone come : List Duty) : Prop extends System.Stays s after where
  new : ∀ duty ∈ after.duties, duty ∈ s.duties ∨ duty ∈ come
  kept : ∀ duty ∈ s.duties, duty ∈ gone ∨ duty ∈ after.duties
  come : ∀ duty ∈ come, duty ∈ after.duties

namespace System

variable {s middle after : System} {gone come : List Duty}

theorem mem_duties {duty : Duty} :
    duty ∈ s.duties ↔ ((duty.1 ∈ s.deferred ∨ duty.1 ∈ s.awaiting) ∧ duty.2 = s.now) ∨
      (∃ d ∈ s.host.delayed, duty = (d.work, d.due.getD .last)) ∨
      ∃ call ∈ s.calls, ∃ lease, call.subject.attempt? = some lease ∧ duty = (.process lease, s.now) := by
  obtain ⟨work, time⟩ := duty
  simp only [duties, List.mem_append, List.mem_map, List.mem_filterMap, Option.map_eq_some_iff, Prod.mk.injEq]
  constructor
  · rintro (⟨other, among, rfl, rfl⟩ | ⟨d, member, rfl, rfl⟩ | ⟨call, member, lease, attempt, rfl, rfl⟩)
    · exact .inl ⟨among, rfl⟩
    · exact .inr (.inl ⟨d, member, rfl, rfl⟩)
    · exact .inr (.inr ⟨call, member, lease, attempt, rfl, rfl⟩)
  · rintro (⟨among, rfl⟩ | ⟨d, member, rfl, rfl⟩ | ⟨call, member, lease, attempt, rfl, rfl⟩)
    · exact .inl ⟨work, among, rfl, rfl⟩
    · exact .inr (.inl ⟨d, member, rfl, rfl⟩)
    · exact .inr (.inr ⟨call, member, lease, attempt, rfl, rfl⟩)

/-- Whether works are held back makes no difference for what there is to do. -/
theorem mem_ready {work : Work} :
    work ∈ s.deferred ∨ work ∈ s.awaiting ↔ work ∈ (s.gate.getD []).map Prod.snd ∨
      work ∈ s.host.queued.map HostAction.work ∨ work ∈ s.host.waiting.map HostAction.work ∨
        work ∈ s.host.granted.map HostAction.work := by
  unfold deferred awaiting
  cases s.gate with
  | none => simp
  | some held => simp

/-- Duties shift as the works do that can be taken up, or are delayed. -/
theorem Stays.shifts (stays : s.Stays after)
    (ready : ∀ work, work ∈ after.deferred ∨ work ∈ after.awaiting →
      (work ∈ s.deferred ∨ work ∈ s.awaiting) ∨ (work, s.now) ∈ come)
    (delayed : ∀ d ∈ after.host.delayed, d ∈ s.host.delayed ∨ (d.work, d.due.getD .last) ∈ come)
    (kept : ∀ work, work ∈ s.deferred ∨ work ∈ s.awaiting →
      (work, s.now) ∈ gone ∨ work ∈ after.deferred ∨ work ∈ after.awaiting)
    (keptDelayed : ∀ d ∈ s.host.delayed, (d.work, d.due.getD .last) ∈ gone ∨ d ∈ after.host.delayed)
    (comes : ∀ duty ∈ come, duty ∈ after.duties) : s.Shifts after gone come where
  toStays := stays
  new := by
    intro duty member
    rcases mem_duties.mp member with ⟨among, time⟩ | ⟨d, atD, rfl⟩ | ⟨call, atCall, attempt⟩
    · rcases ready duty.1 among with old | new
      · exact .inl (mem_duties.mpr (.inl ⟨old, time.trans stays.now⟩))
      · refine .inr ?_
        rw [stays.now] at time
        rw [← time] at new
        exact new
    · rcases delayed d atD with old | new
      · exact .inl (mem_duties.mpr (.inr (.inl ⟨d, old, rfl⟩)))
      · exact .inr new
    · rw [stays.calls] at atCall
      rw [stays.now] at attempt
      exact .inl (mem_duties.mpr (.inr (.inr ⟨call, atCall, attempt⟩)))
  kept := by
    intro duty member
    rcases mem_duties.mp member with ⟨among, time⟩ | ⟨d, atD, rfl⟩ | ⟨call, atCall, attempt⟩
    · rcases kept duty.1 among with goes | stay
      · rw [← time] at goes
        exact .inl goes
      · exact .inr (mem_duties.mpr (.inl ⟨stay, time.trans stays.now.symm⟩))
    · rcases keptDelayed d atD with goes | stay
      · exact .inl goes
      · exact .inr (mem_duties.mpr (.inr (.inl ⟨d, stay, rfl⟩)))
    · rw [← stays.calls] at atCall
      rw [← stays.now] at attempt
      exact .inr (mem_duties.mpr (.inr (.inr ⟨call, atCall, attempt⟩)))
  come := comes

theorem Shifts.refl (s : System) : s.Shifts s [] [] where
  toStays := .refl s
  new := fun _ member => .inl member
  kept := fun _ member => .inr member
  come := by simp

theorem Shifts.trans {more : List Duty} (first : s.Shifts middle gone come)
    (second : middle.Shifts after [] more) : s.Shifts after gone (come ++ more) where
  toStays := first.toStays.trans second.toStays
  new := by
    intro duty member
    rcases second.new duty member with early | late
    · exact (first.new duty early).imp_right (List.mem_append_left _)
    · exact .inr (List.mem_append_right _ late)
  kept := by
    intro duty member
    refine (first.kept duty member).imp_right fun stays => ?_
    exact (second.kept duty stays).resolve_left (by simp)
  come := by
    intro duty member
    rcases List.mem_append.mp member with early | late
    · exact (second.kept duty (first.come duty early)).resolve_left (by simp)
    · exact second.come duty late

theorem Defers.shifts {works : List Work} (defers : s.Defers after works) :
    s.Shifts after [] (works.map fun work => (work, s.now)) := by
  refine defers.toStays.shifts ?_ ?_ ?_ ?_ ?_
  · intro work among
    rw [defers.deferred, defers.awaiting, List.mem_append] at among
    rcases among with (old | new) | old
    · exact .inl (.inl old)
    · exact .inr (List.mem_map.mpr ⟨work, new, rfl⟩)
    · exact .inl (.inr old)
  · rw [defers.delayed]
    exact fun d member => .inl member
  · intro work among
    rw [defers.deferred, defers.awaiting, List.mem_append]
    exact .inr (among.imp_left .inl)
  · rw [defers.delayed]
    exact fun d member => .inr member
  · intro duty member
    obtain ⟨work, among, rfl⟩ := List.mem_map.mp member
    refine mem_duties.mpr (.inl ⟨.inl ?_, defers.now.symm⟩)
    rw [defers.deferred]
    exact List.mem_append_right _ among

theorem stays_host (s : System) {host : Host Work} (numbered : s.host.Numbered → host.Numbered) :
    s.Stays { s with host := host } := { Stays.refl s with numbered := numbered }

theorem shifts_submit (s : System) (label : String) (bounded : Bool) (work : Work) :
    s.Shifts (s.submit label bounded work) [] [(work, s.now)] := by
  have submitted : s.Shifts { s with host := s.host.submit label bounded work } [] [(work, s.now)] := by
    refine (s.stays_host fun numbered => numbered.submit label bounded work).shifts ?_ ?_ ?_ ?_ ?_
    · intro other among
      rw [mem_ready] at among ⊢
      simp only [Host.submit, List.map_append, List.map_cons, List.map_nil, List.mem_append,
        List.mem_singleton] at among
      rcases among with held | (queued | rfl) | others
      · exact .inl (.inl held)
      · exact .inl (.inr (.inl queued))
      · exact .inr (List.mem_singleton_self _)
      · exact .inl (.inr (.inr others))
    · exact fun d member => .inl member
    · intro other among
      rw [mem_ready] at among ⊢
      refine .inr (among.imp_right (Or.imp_left fun queued => ?_))
      simp only [Host.submit, List.map_append, List.mem_append]
      exact .inl queued
    · exact fun d member => .inr member
    · intro duty member
      rw [List.mem_singleton.mp member]
      refine mem_duties.mpr (.inl ⟨mem_ready.mpr (.inr (.inl ?_)), rfl⟩)
      simp [Host.submit]
  exact submitted.trans (defers_note _ (.submitted s.host.issued) rfl).shifts

theorem shifts_runAsync (s : System) (label : String) (work : Work) :
    s.Shifts (s.runAsync label work) [] [(work, s.now)] :=
  (s.defers_note (.runAsync label) rfl).shifts.trans (shifts_submit _ label true work)

theorem shifts_defer (s : System) (label : String) (due : Option Instant) (work : Work) :
    s.Shifts { s with host := s.host.defer label due work } [] [(work, due.getD .last)] := by
  refine (s.stays_host fun numbered => numbered.defer label due work).shifts ?_ ?_ ?_ ?_ ?_
  · exact fun other among => .inl among
  · intro d member
    rcases List.mem_append.mp member with old | new
    · exact .inl old
    · rw [List.mem_singleton.mp new]
      exact .inr (List.mem_singleton_self _)
  · exact fun other among => .inr among
  · exact fun d member => .inr (List.mem_append_left _ member)
  · intro duty member
    rw [List.mem_singleton.mp member]
    exact mem_duties.mpr (.inr (.inl ⟨_, List.mem_append_right _ (List.mem_singleton_self _), rfl⟩))

theorem shifts_runAfter (s : System) (label : String) (delay : Span) (work : Work) :
    s.Shifts (s.runAfter label delay work) [] [(work, (s.now.plus? delay).getD .last)] :=
  (s.defers_note (.runAfter label delay) rfl).shifts.trans
    ((shifts_defer (s.note (.runAfter label delay)) label (s.now.plus? delay) work).trans
      (defers_note _ _ rfl).shifts)

theorem finishAction_cases (s : System) (action : Nat) :
    s.finishAction action = { s with host := s.host.finish action } ∨
      ∃ next, s.finishAction action = System.note { s with host := s.host.finish action } (.granted next) := by
  unfold finishAction
  cases s.host.successor? action with
  | none => exact .inl rfl
  | some next => exact .inr ⟨next, rfl⟩

/-- An action that ends leaves everything to do that there was: at most a permit changes hands. -/
theorem shifts_finishAction (s : System) (numbered : s.host.Numbered) (action : Nat) :
    s.Shifts (s.finishAction action) [] [] := by
  have granted : ∀ work, work ∈ (s.host.finish action).waiting.map HostAction.work ∨
      work ∈ (s.host.finish action).granted.map HostAction.work ↔
        work ∈ s.host.waiting.map HostAction.work ∨ work ∈ s.host.granted.map HostAction.work := by
    intro work
    rw [← List.mem_append, ← List.mem_append, ← List.map_append, ← List.map_append]
    exact ((numbered.finish action).2.map HostAction.work).mem_iff
  have finished : s.Shifts { s with host := s.host.finish action } [] [] := by
    refine (s.stays_host fun _ => (numbered.finish action).1).shifts ?_ ?_ ?_ ?_ (by simp)
    · intro work among
      rw [mem_ready] at among ⊢
      simp only [Host.finish_queued, granted] at among
      exact .inl among
    · simp only [Host.finish_delayed]
      exact fun d member => .inl member
    · intro work among
      rw [mem_ready] at among ⊢
      simp only [Host.finish_queued, granted]
      exact .inr among
    · simp only [Host.finish_delayed]
      exact fun d member => .inr member
  rcases s.finishAction_cases action with same | ⟨next, same⟩
  · rw [same]
    exact finished
  · rw [same]
    exact finished.trans (defers_note _ (.granted next) rfl).shifts

theorem shifts_finishCall (s : System) (numbered : s.host.Numbered) (call : ProcessorCall) :
    s.Shifts (s.finishCall call) [] [] := by
  unfold finishCall
  cases call.action with
  | none => exact .refl s
  | some action => exact s.shifts_finishAction numbered action

/-- Works that are given to the host one after the other. -/
theorem shifts_submits (held : List (String × Work)) (t : System) :
    t.Shifts (held.foldl (fun s (entry : String × Work) => s.submit entry.1 false entry.2) t) []
      (held.map fun entry => (entry.2, t.now)) := by
  induction held generalizing t with
  | nil => exact .refl t
  | cons first rest ih =>
    exact (t.shifts_submit first.1 false first.2).trans (ih (t.submit first.1 false first.2))

/-- A commit changes who holds the works, not what there is to do. -/
theorem shifts_commit (s : System) : s.Shifts s.commit.2 [] [] := by
  unfold commit
  cases gate : s.gate with
  | none => exact .refl s
  | some held =>
    have opened : s.Stays { s with gate := some [] } := { Stays.refl s with }
    have submitted := shifts_submits held { s with gate := some [] }
    refine ⟨opened.trans submitted.toStays, fun duty member => .inl ?_, fun duty member => .inr ?_, by simp⟩
    · rcases submitted.new duty member with old | released
      · rw [mem_duties, mem_ready] at old ⊢
        simp only [Option.getD_some, List.map_nil, List.not_mem_nil, false_or] at old
        rcases old with ⟨among, time⟩ | others
        · exact .inl ⟨.inr among, time⟩
        · exact .inr others
      · obtain ⟨entry, atEntry, rfl⟩ := List.mem_map.mp released
        refine mem_duties.mpr (.inl ⟨mem_ready.mpr (.inl ?_), rfl⟩)
        simp only [gate, Option.getD_some]
        exact List.mem_map_of_mem atEntry
    · rcases mem_duties.mp member with ⟨among, time⟩ | others
      · rcases mem_ready.mp among with inGate | atHost
        · simp only [gate, Option.getD_some] at inGate
          obtain ⟨entry, atEntry, same⟩ := List.mem_map.mp inGate
          refine submitted.come duty (List.mem_map.mpr ⟨entry, atEntry, ?_⟩)
          rw [same, ← time]
        · refine (submitted.kept duty (mem_duties.mpr (.inl ⟨mem_ready.mpr ?_, time⟩))).resolve_left (by simp)
          exact .inr atHost
      · exact (submitted.kept duty (mem_duties.mpr (.inr others))).resolve_left (by simp)

/-- An action that is taken up leaves the works to do, unless it has to wait for a permit. -/
theorem shifts_start (s : System) (numbered : s.host.Numbered) {a : HostAction Work}
    (member : a ∈ s.host.queued) :
    (s.Shifts { s with host := s.host.start a.number } [(a.work, s.now)] [] ∧
        (s.host.start a.number).running? a.number = some a) ∨
      (s.Shifts { s with host := s.host.start a.number } [] [] ∧
        (s.host.start a.number).running? a.number = none) := by
  obtain ⟨numbered', queued, granted, delayed, taken⟩ := numbered.start member
  have works (work : Work) := (queued.map HostAction.work).mem_iff (a := work)
  simp only [List.map_cons, List.mem_cons] at works
  have stays := s.stays_host fun _ => numbered'
  rcases taken with ⟨waiting, runs⟩ | ⟨waiting, waits⟩
  · refine .inl ⟨stays.shifts ?_ ?_ ?_ ?_ (by simp), runs⟩
    · intro work among
      rw [mem_ready] at among ⊢
      simp only [waiting, granted] at among
      rw [works]
      exact .inl (among.imp_right (Or.imp_left .inr))
    · simp only [delayed]
      exact fun d atD => .inl atD
    · intro work among
      rw [mem_ready] at among ⊢
      simp only [waiting, granted]
      rw [works] at among
      rcases among with held | (rfl | others) | rest
      · exact .inr (.inl held)
      · exact .inl (List.mem_singleton_self _)
      · exact .inr (.inr (.inl others))
      · exact .inr (.inr (.inr rest))
    · simp only [delayed]
      exact fun d atD => .inr atD
  · refine .inr ⟨stays.shifts ?_ ?_ ?_ ?_ (by simp), waits⟩
    · intro work among
      rw [mem_ready] at among ⊢
      simp only [waiting, granted, List.map_append, List.map_cons, List.map_nil, List.mem_append,
        List.mem_singleton] at among
      rw [works]
      rcases among with held | queued' | (old | rfl) | rest
      · exact .inl (.inl held)
      · exact .inl (.inr (.inl (.inr queued')))
      · exact .inl (.inr (.inr (.inl old)))
      · exact .inl (.inr (.inl (.inl rfl)))
      · exact .inl (.inr (.inr (.inr rest)))
    · simp only [delayed]
      exact fun d atD => .inl atD
    · intro work among
      rw [mem_ready] at among ⊢
      simp only [waiting, granted, List.map_append, List.map_cons, List.map_nil, List.mem_append,
        List.mem_singleton]
      rw [works] at among
      rcases among with held | (rfl | others) | old | rest
      · exact .inr (.inl held)
      · exact .inr (.inr (.inr (.inl (.inr rfl))))
      · exact .inr (.inr (.inl others))
      · exact .inr (.inr (.inr (.inl (.inl old))))
      · exact .inr (.inr (.inr (.inr rest)))
    · simp only [delayed]
      exact fun d atD => .inr atD

theorem shifts_resume (s : System) (numbered : s.host.Numbered) {a : HostAction Work}
    (member : a ∈ s.host.granted) :
    s.Shifts { s with host := s.host.resume a.number } [(a.work, s.now)] [] ∧
      (s.host.resume a.number).running? a.number = some a := by
  obtain ⟨numbered', granted, queued, waiting, delayed, runs⟩ := numbered.resume member
  have works (work : Work) := (granted.map HostAction.work).mem_iff (a := work)
  simp only [List.map_cons, List.mem_cons] at works
  refine ⟨(s.stays_host fun _ => numbered').shifts ?_ ?_ ?_ ?_ (by simp), runs⟩
  · intro work among
    rw [mem_ready] at among ⊢
    simp only [queued, waiting] at among
    rw [works]
    exact .inl (among.imp_right (Or.imp_right (Or.imp_right .inr)))
  · simp only [delayed]
    exact fun d atD => .inl atD
  · intro work among
    rw [mem_ready] at among ⊢
    simp only [queued, waiting]
    rw [works] at among
    rcases among with held | queued' | waiting' | rfl | rest
    · exact .inr (.inl held)
    · exact .inr (.inr (.inl queued'))
    · exact .inr (.inr (.inr (.inl waiting')))
    · exact .inl (List.mem_singleton_self _)
    · exact .inr (.inr (.inr (.inr rest)))
  · simp only [delayed]
    exact fun d atD => .inr atD

/-- A delayed work whose time has come is there to be taken up at once. -/
theorem shifts_wake (s : System) (numbered : s.host.Numbered) (action : Nat) :
    s.host.wake s.now action = s.host ∨ ∃ d ∈ s.host.delayed, d.due.getD .last ≤ s.now ∧
      s.Shifts { s with host := s.host.wake s.now action } [(d.work, d.due.getD .last)] [(d.work, s.now)] := by
  rcases numbered.wake s.now action with same | ⟨d, due, numbered', delayed, queued, waiting, granted⟩
  · exact .inl same
  · have rest (other : DelayedAction Work) := delayed.mem_iff (a := other)
    simp only [List.mem_cons] at rest
    obtain ⟨time, known, come⟩ := (Option.any_eq_true _ _).mp due
    have due : d.due.getD .last ≤ s.now := by
      rw [known]
      exact of_decide_eq_true come
    refine .inr ⟨d, (rest d).mpr (.inl rfl), due, (s.stays_host fun _ => numbered').shifts ?_ ?_ ?_ ?_ ?_⟩
    · intro work among
      rw [mem_ready] at among ⊢
      simp only [queued, waiting, granted, List.map_append, List.map_cons, List.map_nil, List.mem_append,
        List.mem_singleton] at among
      rcases among with held | (queued' | rfl) | others
      · exact .inl (.inl held)
      · exact .inl (.inr (.inl queued'))
      · exact .inr (List.mem_singleton_self _)
      · exact .inl (.inr (.inr others))
    · exact fun other member => .inl ((rest other).mpr (.inr member))
    · intro work among
      rw [mem_ready] at among ⊢
      simp only [queued, waiting, granted, List.map_append, List.mem_append]
      exact .inr (among.imp_right (Or.imp_left .inl))
    · intro other member
      rcases (rest other).mp member with rfl | stays
      · exact .inl (List.mem_singleton_self _)
      · exact .inr stays
    · intro duty member
      rw [List.mem_singleton.mp member]
      refine mem_duties.mpr (.inl ⟨mem_ready.mpr (.inr (.inl ?_)), rfl⟩)
      simp [queued]

end System

end TaskLeasing
