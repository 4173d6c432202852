import TaskLeasing.Proofs.Host.Numbering
import Mathlib.Data.List.Perm.Subperm

namespace TaskLeasing

/-- What can happen to a host: work is given to it, at once or for a later time, a time has come, or one of its
actions is taken up, goes on with its permit, or ends, by itself or in a panic. -/
inductive HostMove (α : Type)
  | submit (label : String) (bounded : Bool) (work : α)
  | defer (label : String) (due : Option Instant) (work : α)
  | wake (now : Instant) (number : Nat)
  | start (number : Nat)
  | resume (number : Nat)
  | finish (number : Nat) (panic : Option String)

variable {α : Type}

/-- The work that a move gives to a host, to be done at once or later. -/
def HostMove.given : HostMove α → List α
  | .submit _ _ work => [work]
  | .defer _ _ work => [work]
  | _ => []

namespace Host

/-- A host after a move. What an action's end was like makes no difference to it. -/
def take (h : Host α) : HostMove α → Host α
  | .submit label bounded work => h.submit label bounded work
  | .defer label due work => h.defer label due work
  | .wake now number => h.wake now number
  | .start number => h.start number
  | .resume number => h.resume number
  | .finish number _ => h.finish number

/-- The host after moves one after the other. -/
def run (h : Host α) (moves : List (HostMove α)) : Host α := moves.foldl take h

/-- What moves bring along, each seen from the host that it finds. -/
def along {β : Type} (brings : Host α → HostMove α → List β) : Host α → List (HostMove α) → List β
  | _, [] => []
  | h, move :: rest => brings h move ++ (h.take move).along brings rest

/-- The delayed action whose time has come in a move. -/
def due? (h : Host α) (now : Instant) (number : Nat) : Option (DelayedAction α) :=
  h.delayed.find? fun d => d.number = number ∧ d.due.any (· ≤ now)

/-- The action that is submitted in a move: work that was given to be done at once, or work given for a later time
once that has come. -/
def submits (h : Host α) : HostMove α → List (HostAction α)
  | .submit label bounded work => [⟨h.issued, label, bounded, work⟩]
  | .wake now number => ((h.due? now number).map fun d => ⟨h.issued, d.label, true, d.work⟩).toList
  | _ => []

/-- The actions that run after a move and did not run before it. -/
def begins (h : Host α) (move : HostMove α) : List (HostAction α) :=
  (h.take move).running.filter fun a => (h.running? a.number).isNone

/-- The action that ends in a move. -/
def ends (h : Host α) : HostMove α → List (HostAction α)
  | .finish number _ => (h.running? number).toList
  | _ => []

/-- The actions of a host that were submitted and have not ended. -/
def held (h : Host α) : List (HostAction α) := h.queued ++ (h.waiting ++ (h.granted ++ h.running))

/-- The books of a host: its permits, each free, set aside for an action, or held by one that runs; and what came of
all work that was given to it, submitted, begun and ended. -/
structure Accounts (h : Host α) (permits : Nat) (given : List α) (submitted begun ended : List (HostAction α)) :
    Prop where
  numbered : h.Numbered
  permits : h.free + h.granted.length + h.running.countP HostAction.bounded = max 1 permits
  needed : ∀ a ∈ h.waiting ++ h.granted, a.bounded = true
  full : h.waiting ≠ [] → h.free = 0
  inFlight : h.inFlight = h.held.length
  works : given.Perm (submitted.map HostAction.work ++ h.delayed.map DelayedAction.work)
  whole : submitted.Perm (ended ++ h.held)
  distinct : (submitted.map HostAction.number).Nodup
  issued : ∀ a ∈ submitted, a.number < h.issued
  runs : begun.Perm (ended ++ h.running)

variable {h : Host α} {permits : Nat} {given : List α} {submitted begun ended : List (HostAction α)}

theorem accounts_idle (permits : Nat) : (idle permits : Host α).Accounts permits [] [] [] [] where
  numbered := numbered_idle permits
  permits := by simp [idle]
  needed := by simp [idle]
  full := by simp [idle]
  inFlight := by simp [idle, held]
  works := by simp [idle]
  whole := by simp [idle, held]
  distinct := .nil
  issued := by simp
  runs := by simp [idle]

/-- Where no more than before runs, nothing begins. -/
theorem begins_nil {move : HostMove α} (fewer : (h.take move).running ⊆ h.running) : h.begins move = [] := by
  refine List.filter_eq_nil_iff.mpr fun a member absent => ?_
  have none' := List.find?_eq_none.mp (Option.isNone_iff_eq_none.mp absent) a (fewer member)
  simp at none'

/-- An action that comes to run in a move has begun in it. -/
theorem begins_one {move : HostMove α} {a : HostAction α} (idle : h.running? a.number = none)
    (running : (h.take move).running = h.running ++ [a]) : h.begins move = [a] := by
  have others : h.running.filter (fun b => (h.running? b.number).isNone) = [] := by
    refine List.filter_eq_nil_iff.mpr fun b member absent => ?_
    have none' := List.find?_eq_none.mp (Option.isNone_iff_eq_none.mp absent) b member
    simp at none'
  rw [begins, running, List.filter_append, others, List.nil_append]
  simp [idle]

theorem Numbered.running (numbered : h.Numbered) : (h.running.map HostAction.number).Nodup := by
  have waiting := (List.nodup_append.mp numbered.distinct).2.1
  have granted := (List.nodup_append.mp waiting).2.1
  exact (List.nodup_append.mp (List.nodup_append.mp granted).2.1).1

theorem find?_number {l : List (HostAction α)} {number : Nat} {a : HostAction α}
    (found : l.find? (fun b => b.number = number) = some a) : a ∈ l ∧ a.number = number :=
  ⟨List.mem_of_find?_eq_some found, by simpa using List.find?_some found⟩

/-- An action that is taken up runs, with a permit if it needs one, or waits because none is free. -/
theorem start_cases (h : Host α) (number : Nat) :
    h.queued.find? (fun a => a.number = number) = none ∧ h.start number = h ∨
      ∃ a, h.queued.find? (fun a => a.number = number) = some a ∧
        ((a.bounded → 0 < h.free) ∧ h.start number = { h with
            queued := h.queued.filter fun other => other.number ≠ number
            free := h.free - a.bounded.toNat
            running := h.running ++ [a] } ∨
          a.bounded ∧ h.free = 0 ∧ h.start number = { h with
            queued := h.queued.filter fun other => other.number ≠ number
            waiting := h.waiting ++ [a] }) := by
  cases found : h.queued.find? fun a => a.number = number with
  | none => exact .inl ⟨rfl, by simp only [Host.start, found]⟩
  | some a =>
    refine .inr ⟨a, rfl, ?_⟩
    by_cases bounded : a.bounded
    · by_cases free : 0 < h.free
      · exact .inl ⟨fun _ => free, by simp [Host.start, found, bounded, free]⟩
      · exact .inr ⟨bounded, by omega, by simp [Host.start, found, bounded, free]⟩
    · exact .inl ⟨fun needs => absurd needs bounded, by simp [Host.start, found, bounded]⟩

/-- An action that ends gives its permit, if it has one, to the first that waits, or else back. -/
theorem finish_cases (h : Host α) (number : Nat) :
    h.running? number = none ∧ h.finish number = h ∨
      ∃ a, h.running? number = some a ∧
        ((a.bounded → h.waiting = []) ∧ h.finish number = { h with
            inFlight := h.inFlight - 1
            running := h.running.filter fun other => other.number ≠ number
            free := h.free + a.bounded.toNat } ∨
          a.bounded ∧ ∃ next rest, h.waiting = next :: rest ∧ h.finish number = { h with
            inFlight := h.inFlight - 1
            running := h.running.filter fun other => other.number ≠ number
            waiting := rest
            granted := h.granted ++ [next] }) := by
  cases found : h.running? number with
  | none => exact .inl ⟨rfl, by simp only [Host.running?] at found; simp only [Host.finish, found]⟩
  | some a =>
    refine .inr ⟨a, rfl, ?_⟩
    unfold Host.running? at found
    by_cases bounded : a.bounded
    · cases waits : h.waiting with
      | nil => exact .inl ⟨fun _ => rfl, by simp [Host.finish, found, bounded, waits]⟩
      | cons next rest => exact .inr ⟨bounded, next, rest, rfl, by simp [Host.finish, found, bounded, waits]⟩
    · exact .inl ⟨fun needs => absurd needs bounded, by simp [Host.finish, found, bounded]⟩

namespace Accounts

variable (accounts : h.Accounts permits given submitted begun ended)
include accounts

/-- A new action is queued, for work that was given now or earlier. -/
theorem submit (later : List (DelayedAction α)) (more : List α) (numbered : Numbered { h with delayed := later })
    (label : String) (bounded : Bool) (work : α)
    (works : (given ++ more).Perm (submitted.map HostAction.work ++ work :: later.map DelayedAction.work)) :
    (Host.submit { h with delayed := later } label bounded work).Accounts permits (given ++ more)
      (submitted ++ [⟨h.issued, label, bounded, work⟩]) begun ended where
  numbered := numbered.submit label bounded work
  permits := accounts.permits
  needed := accounts.needed
  full := accounts.full
  inFlight := by
    have := accounts.inFlight
    simp only [held, Host.submit, List.length_append, List.length_singleton] at this ⊢
    omega
  works := by simpa [Host.submit] using works
  whole := by
    have queued := accounts.whole.append_right [⟨h.issued, label, bounded, work⟩]
    refine queued.trans ?_
    simp only [held, Host.submit, List.append_assoc, List.singleton_append]
    refine (List.Perm.append_left _ ?_).append_left _
    simpa only [List.append_assoc] using List.perm_append_singleton _ (h.waiting ++ (h.granted ++ h.running))
  distinct := by
    rw [List.map_append, List.nodup_append]
    refine ⟨accounts.distinct, List.nodup_singleton _, ?_⟩
    intro number member other new same
    obtain ⟨a, atA, rfl⟩ := List.mem_map.mp member
    have before := accounts.issued a atA
    simp only [List.map_cons, List.map_nil, List.mem_singleton] at new
    omega
  issued := by
    intro a member
    simp only [Host.submit]
    rcases List.mem_append.mp member with old | new
    · have before := accounts.issued a old
      omega
    · rw [List.mem_singleton.mp new]
      exact Nat.lt_succ_self _
  runs := accounts.runs

theorem defer (label : String) (due : Option Instant) (work : α) :
    (h.defer label due work).Accounts permits (given ++ [work]) submitted begun ended :=
  { accounts with
    numbered := accounts.numbered.defer label due work
    works := by simpa [Host.defer, ← List.append_assoc] using accounts.works.append_right [work]
    issued := fun a member => Nat.lt_succ_of_lt (accounts.issued a member) }

/-- Delayed work whose time has come leaves the delayed for the queue. -/
theorem wake (now : Instant) (number : Nat) :
    (h.wake now number).Accounts permits given (submitted ++ h.submits (.wake now number)) begun ended := by
  simp only [submits, due?]
  cases found : h.delayed.find? fun d => d.number = number ∧ d.due.any (· ≤ now) with
  | none =>
    simp only [Host.wake, found, Option.map_none, Option.toList_none, List.append_nil]
    exact accounts
  | some d =>
    have apart := perm_cons_filter accounts.numbered.delayed (List.mem_of_find?_eq_some found)
    have same : d.number = number := by
      have fits := List.find?_some found
      exact (of_decide_eq_true fits).1
    rw [same] at apart
    have counted := fun k => (apart.map DelayedAction.number).count_eq k
    have queued := accounts.submit (h.delayed.filter fun other => other.number ≠ number) []
      (accounts.numbered.of_count (fun k => by
        have := counted k
        simp only [count_numbers, List.map_cons, List.count_cons] at this ⊢
        omega) rfl) d.label true d.work
    rw [List.append_nil] at queued
    simp only [Host.wake, found]
    exact queued (accounts.works.trans ((apart.map DelayedAction.work).append_left _))

/-- What is left to prove where a host takes actions up or ends them: that its actions are those from before but for
the ended, and those that run likewise; and the books of its permits. -/
theorem moved {other : Host α} {new left : List (HostAction α)} (numbered : other.Numbered)
    (issued : other.issued = h.issued) (delayed : other.delayed = h.delayed)
    (whole : h.held.Perm (left ++ other.held)) (runs : (h.running ++ new).Perm (left ++ other.running))
    (inFlight : other.inFlight = h.inFlight - left.length)
    (permits' : other.free + other.granted.length + other.running.countP HostAction.bounded = max 1 permits)
    (needed : ∀ a ∈ other.waiting ++ other.granted, a.bounded = true) (full : other.waiting ≠ [] → other.free = 0) :
    other.Accounts permits given submitted (begun ++ new) (ended ++ left) where
  numbered := numbered
  permits := permits'
  needed := needed
  full := full
  inFlight := by
    have sizes := whole.length_eq
    rw [List.length_append] at sizes
    rw [inFlight, accounts.inFlight]
    omega
  works := delayed ▸ accounts.works
  whole := by
    rw [List.append_assoc]
    exact accounts.whole.trans (whole.append_left _)
  distinct := accounts.distinct
  issued := issued ▸ accounts.issued
  runs := by
    have begun' := accounts.runs.append_right new
    rw [List.append_assoc] at begun'
    rw [List.append_assoc]
    exact begun'.trans (runs.append_left _)

theorem start (number : Nat) :
    (h.start number).Accounts permits given submitted (begun ++ h.begins (.start number)) (ended ++ []) := by
  rcases h.start_cases number with ⟨-, same⟩ | ⟨a, found, way⟩
  · rw [begins_nil (by simp [take, same]), same]
    simpa using accounts
  · obtain ⟨member, rfl⟩ := find?_number found
    have apart := perm_cons_filter accounts.numbered.queued member
    have numbered := (accounts.numbered.start member).1
    have absent : h.running? a.number = none :=
      accounts.numbered.idle_of_count (Nat.add_pos_left (List.count_pos_iff.mpr (List.mem_map_of_mem member)) _)
    have balance := accounts.permits
    rcases way with ⟨free, started⟩ | ⟨bounded, full, started⟩
    · rw [begins_one absent (by simp [take, started])]
      rw [started] at numbered ⊢
      refine accounts.moved numbered rfl rfl ?_ ?_ rfl ?_ accounts.needed ?_
      · classical
        refine List.perm_iff_count.mpr fun b => ?_
        have := apart.count_eq b
        simp only [held, List.count_append, List.count_cons, List.count_nil] at this ⊢
        omega
      · simp
      · cases bounded : a.bounded
        · simpa [bounded] using balance
        · have := free bounded
          simp [bounded]
          omega
      · intro waits
        simp [accounts.full waits]
    · rw [begins_nil (by simp [take, started])]
      rw [started] at numbered ⊢
      refine accounts.moved numbered rfl rfl ?_ ?_ rfl balance ?_ ?_
      · classical
        refine List.perm_iff_count.mpr fun b => ?_
        have := apart.count_eq b
        simp only [held, List.count_append, List.count_cons, List.count_nil] at this ⊢
        omega
      · simp
      · intro b member'
        simp only [List.append_assoc, List.mem_append, List.mem_singleton] at member'
        rcases member' with waits | rfl | granted
        · exact accounts.needed b (List.mem_append_left _ waits)
        · exact bounded
        · exact accounts.needed b (List.mem_append_right _ granted)
      · exact fun _ => full

/-- An action that was granted its permit takes it up, and with it runs. -/
theorem resume (number : Nat) :
    (h.resume number).Accounts permits given submitted (begun ++ h.begins (.resume number)) (ended ++ []) := by
  cases found : h.granted.find? fun a => a.number = number with
  | none =>
    have same : h.resume number = h := by simp only [Host.resume, found]
    rw [begins_nil (by simp [take, same]), same]
    simpa using accounts
  | some a =>
    obtain ⟨member, rfl⟩ := find?_number found
    have apart := perm_cons_filter accounts.numbered.granted member
    have numbered := (accounts.numbered.resume member).1
    have absent : h.running? a.number = none :=
      accounts.numbered.idle_of_count (Nat.add_pos_right _ (List.count_pos_iff.mpr (List.mem_map_of_mem member)))
    have bounded := accounts.needed a (List.mem_append_right _ member)
    have balance := accounts.permits
    have resumed : h.resume a.number = { h with
        granted := h.granted.filter fun other => other.number ≠ a.number
        running := h.running ++ [a] } := by
      simp only [Host.resume, found]
    rw [begins_one absent (by simp [take, resumed])]
    rw [resumed] at numbered ⊢
    refine accounts.moved numbered rfl rfl ?_ ?_ rfl ?_ ?_ accounts.full
    · classical
      refine List.perm_iff_count.mpr fun b => ?_
      have := apart.count_eq b
      simp only [held, List.count_append, List.count_cons, List.count_nil] at this ⊢
      omega
    · simp
    · have := apart.length_eq
      simp only [List.length_cons, List.countP_append, List.countP_singleton, bounded, if_true] at this ⊢
      omega
    · intro b member'
      refine accounts.needed b ?_
      rcases List.mem_append.mp member' with waits | granted
      · exact List.mem_append_left _ waits
      · exact List.mem_append_right _ (List.mem_of_mem_filter granted)

/-- An action that ends leaves, and its permit is taken over or free again. -/
theorem finish (number : Nat) (panic : Option String) :
    (h.finish number).Accounts permits given submitted (begun ++ []) (ended ++ h.ends (.finish number panic)) := by
  rcases h.finish_cases number with ⟨none', same⟩ | ⟨a, found, way⟩
  · simpa [ends, none', same] using accounts
  · obtain ⟨member, rfl⟩ := find?_number found
    have apart := perm_cons_filter accounts.numbered.running member
    have numbered := (accounts.numbered.finish a.number).1
    have balance := accounts.permits
    rw [apart.countP_eq, List.countP_cons] at balance
    simp only [ends, found, Option.toList_some]
    rcases way with ⟨idle, finished⟩ | ⟨bounded, next, rest, waits, finished⟩
    · rw [finished] at numbered ⊢
      refine accounts.moved numbered rfl rfl ?_ ?_ rfl ?_ accounts.needed ?_
      · classical
        refine List.perm_iff_count.mpr fun b => ?_
        have := apart.count_eq b
        simp only [held, List.count_append, List.count_cons, List.count_nil] at this ⊢
        omega
      · simpa using apart
      · cases bounded : a.bounded <;> simp [bounded] at balance ⊢ <;> omega
      · intro waits
        cases bounded : a.bounded
        · simpa [bounded] using accounts.full waits
        · exact absurd (idle bounded) waits
    · rw [finished] at numbered ⊢
      refine accounts.moved numbered rfl rfl ?_ ?_ rfl ?_ ?_ ?_
      · classical
        refine List.perm_iff_count.mpr fun b => ?_
        have := apart.count_eq b
        simp only [held, waits, List.count_append, List.count_cons, List.count_nil] at this ⊢
        omega
      · simpa using apart
      · simp only [bounded, if_true, List.length_append, List.length_singleton] at balance ⊢
        omega
      · intro b member'
        refine accounts.needed b ?_
        rw [waits]
        simp only [List.mem_append, List.mem_cons, List.not_mem_nil, or_false] at member' ⊢
        tauto
      · intro _
        exact accounts.full (by simp [waits])

theorem take (move : HostMove α) :
    (h.take move).Accounts permits (given ++ move.given) (submitted ++ h.submits move) (begun ++ h.begins move)
      (ended ++ h.ends move) := by
  have idle (fewer : (h.take move).running ⊆ h.running) : h.begins move = [] := begins_nil fewer
  cases move with
  | submit label bounded work =>
    rw [idle (List.Subset.refl _)]
    have works := (accounts.works.append_right [work]).trans
      ((List.perm_append_singleton work _).trans List.perm_middle.symm)
    simpa [HostMove.given, submits, ends, Host.take] using
      accounts.submit h.delayed _ accounts.numbered label bounded work works
  | defer label due work =>
    rw [idle (List.Subset.refl _)]
    simpa [HostMove.given, submits, ends, Host.take] using accounts.defer label due work
  | wake now number =>
    rw [idle ?_]
    · simpa [HostMove.given, ends, Host.take] using accounts.wake now number
    · simp only [Host.take, Host.wake]
      split <;> exact List.Subset.refl _
  | start number => simpa [HostMove.given, submits, ends, Host.take] using accounts.start number
  | resume number => simpa [HostMove.given, submits, ends, Host.take] using accounts.resume number
  | finish number panic =>
    rw [idle ?_]
    · simpa [HostMove.given, submits, Host.take] using accounts.finish number panic
    · rcases h.finish_cases number with ⟨-, same⟩ | ⟨a, -, ⟨-, finished⟩ | ⟨-, next, rest, -, finished⟩⟩
      · simp [Host.take, same]
      all_goals
        simp only [Host.take, finished]
        exact List.filter_subset_self _

/-- By induction on the moves: each is booked as it is made. -/
theorem run (moves : List (HostMove α)) :
    (h.run moves).Accounts permits (given ++ moves.flatMap HostMove.given) (submitted ++ h.along submits moves)
      (begun ++ h.along begins moves) (ended ++ h.along ends moves) := by
  induction moves generalizing h given submitted begun ended with
  | nil => simpa [Host.run, along] using accounts
  | cons move rest ih =>
    have later := ih (accounts.take move)
    simpa only [Host.run, List.foldl_cons, along, List.flatMap_cons, List.append_assoc] using later

end Accounts

/-- Whatever a host is given and in whatever order its actions go on and end: bounded ones never run more at once
than there are permits, wait only while all permits are taken, and unbounded ones run as soon as they are taken up;
what is in flight is what was submitted and has not ended; all work given is delayed or was submitted, once, and
runs once; and when all that was submitted has ended, nothing is in flight and all permits are free. -/
theorem run_accounted (permits : Nat) (moves : List (HostMove α)) :
    let h : Host α := (idle permits).run moves
    let submitted := (idle permits).along submits moves
    let begun := (idle permits).along begins moves
    let ended := (idle permits).along ends moves
    h.running.countP HostAction.bounded ≤ max 1 permits ∧
      (h.waiting ≠ [] → h.granted.length + h.running.countP HostAction.bounded = max 1 permits) ∧
      (∀ a ∈ h.waiting ++ h.granted, a.bounded = true) ∧
      (∀ a ∈ h.queued, a.bounded = false → a ∈ (h.start a.number).running) ∧
      h.inFlight + ended.length = submitted.length ∧
      (moves.flatMap HostMove.given).Perm (submitted.map HostAction.work ++ h.delayed.map DelayedAction.work) ∧
      (submitted.map HostAction.number).Nodup ∧
      submitted.Perm (ended ++ h.held) ∧
      begun.Perm (ended ++ h.running) ∧
      (submitted ⊆ ended → h.inFlight = 0 ∧ h.free = max 1 permits ∧ begun.Perm submitted) := by
  intro h submitted begun ended
  have accounts := (accounts_idle (α := α) permits).run moves
  simp only [List.nil_append] at accounts
  change h.Accounts permits (moves.flatMap HostMove.given) submitted begun ended at accounts
  have balance := accounts.permits
  have sizes := accounts.whole.length_eq
  have flying := accounts.inFlight
  rw [List.length_append] at sizes
  refine ⟨by omega, ?_, accounts.needed, ?_, by omega, accounts.works, accounts.distinct, accounts.whole,
    accounts.runs, ?_⟩
  · intro waits
    have := accounts.full waits
    omega
  · intro a queued unbounded
    have found := find?_key accounts.numbered.queued queued
    rcases h.start_cases a.number with ⟨none', -⟩ | ⟨b, found', way⟩
    · rw [none'] at found
      cases found
    · obtain rfl : b = a := by simpa using found'.symm.trans found
      rcases way with ⟨-, started⟩ | ⟨bounded, -⟩
      · simp [started]
      · rw [bounded] at unbounded
        cases unbounded
  · intro all
    have once : submitted.Nodup := accounts.distinct.of_map _
    have fewer := (List.subperm_of_subset once all).length_le
    have none' : h.held.length = 0 := by omega
    have held : h.held = [] := List.length_eq_zero_iff.mp none'
    simp only [Host.held, List.append_eq_nil_iff] at held
    obtain ⟨-, -, granted, running⟩ := held
    refine ⟨by omega, ?_, ?_⟩
    · simpa [granted, running] using balance
    · have whole := accounts.whole
      have runs := accounts.runs
      rw [List.length_eq_zero_iff.mp none'] at whole
      rw [running] at runs
      exact runs.trans whole.symm

/-- The permit of an action that panics goes to the one that waits for it. -/
example :
    let given : List (HostMove Unit) := [.submit "first" true (), .submit "second" true (), .start 0, .start 1]
    let panicked := given ++ [.finish 0 (some "boom"), .resume 1]
    ((idle 1).run given).waiting.map HostAction.label = ["second"] ∧
      ((idle 1).run panicked).running.map HostAction.label = ["second"] ∧
      ((idle 1).run (panicked ++ [.finish 1 none])).free = 1 := by
  decide

end Host

end TaskLeasing
