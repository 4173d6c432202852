import TaskLeasing.Proofs.System.Becoming
import TaskLeasing.Proofs.System.Turns

namespace TaskLeasing

/-- An engine in order, in which the record of a task has a property as long as the task is open. The task was
opened at some time, so no other will have its name. -/
structure Engine.Keeps (e : Engine) (names : Naming) (task : String) (P : TaskRecord → Prop) : Prop where
  orderly : e.Orderly names
  issued : e.Issued names task
  records : ∀ record ∈ e.tasks, record.task.id = task → P record

namespace Engine.Keeps

variable {e : Engine} {names : Naming} {task : String} {P Q : TaskRecord → Prop}

theorem imp (keeps : e.Keeps names task P) (weaker : ∀ record, P record → Q record) : e.Keeps names task Q :=
  ⟨keeps.orderly, keeps.issued, fun record member id => weaker record (keeps.records record member id)⟩

theorem markExecuted (keeps : e.Keeps names task P) (job : String) : (e.markExecuted job).Keeps names task P :=
  ⟨keeps.orderly.of_eq rfl rfl rfl rfl, keeps.issued, keeps.records⟩

/-- A call keeps what becomes of records keep. -/
theorem hear (keeps : e.Keeps names task P) (apart : names.Distinct) {now : Instant} {ask : Asked}
    (heard : ask.result = (e.step now (names.next e) ask.operation).result)
    (becomes : ∀ old record, old.task.id = task → P old → old.Becomes now ask record → Q record) :
    (e.step now (names.next e) ask.operation).engine.Keeps names task Q where
  orderly := keeps.orderly.step apart now ask.operation
  issued := keeps.issued.step now (names.next e) ask.operation
  records := by
    rintro record member rfl
    obtain ⟨old, atOld, became⟩ := keeps.orderly.becomes apart heard member keeps.issued
    exact becomes old record became.id.symm (keeps.records old atOld became.id.symm) became

end Engine.Keeps

/-- The record of a task as a lease has left it, in the name of the worker that leased it. -/
structure TaskRecord.LeasedAs (lease : LeasedTask) (worker : String) (record : TaskRecord) : Prop where
  locked : record.task.lockExpiry = some lease.lockExpiry
  owner : record.task.worker = some worker
  given : record.task.leased lease.lockExpiry lease.vars = lease

/-- A task that was just leased is as the lease left it, in the name of the request. -/
theorem Engine.Orderly.keeps_leased {e : Engine} {names : Naming} {now : Instant} {ask : Asked} {lease : LeasedTask}
    (orderly : e.Orderly names) (apart : names.Distinct)
    (heard : ask.result = (e.step now (names.next e) ask.operation).result) (member : lease ∈ ask.leased) :
    ∃ request, ask.request? = some request ∧ deadline now request.lock = .ok lease.lockExpiry ∧
      (e.step now (names.next e) ask.operation).engine.Keeps names lease.id
        (TaskRecord.LeasedAs lease request.worker) := by
  obtain ⟨request, asked, record, atRecord, _, accepted, given⟩ := Engine.leased_from heard member
  have id : lease.id = record.task.id := congrArg LeasedTask.id given
  have before : e.Keeps names lease.id fun _ => True :=
    ⟨orderly, id ▸ orderly.issued atRecord, fun _ _ _ => trivial⟩
  refine ⟨request, asked, accepted, before.hear apart heard fun old record sameId _ became => ?_⟩
  cases became with
  | kept spared unfailed => exact absurd sameId.symm (spared lease member)
  | failed reported accepted =>
    rw [Asked.failure?_leased member] at reported
    cases reported
  | @leased other expiry another asked' fits accepted' among given' once =>
    rw [asked] at asked'
    cases asked'
    rw [once lease member sameId.symm, given']
    exact ⟨rfl, rfl, rfl⟩

namespace System

/-- The clock goes on in the course of moves, or stands. -/
def Forward : System → List Move → Prop
  | _, [] => True
  | s, move :: rest => s.now ≤ (s.step move).2.now ∧ (s.step move).2.Forward rest

instance decidableForward : (s : System) → (moves : List Move) → Decidable (s.Forward moves)
  | _, [] => .isTrue trivial
  | s, move :: rest =>
    have := decidableForward (s.step move).2 rest
    inferInstanceAs (Decidable (s.now ≤ (s.step move).2.now ∧ (s.step move).2.Forward rest))

variable {s after : System} {task : String}

theorem Forward.append {before rest : List Move} (forward : s.Forward (before ++ rest)) :
    s.Forward before ∧ (s.run before).Forward rest := by
  induction before generalizing s with
  | nil => exact ⟨trivial, forward⟩
  | cons move moves ih =>
    obtain ⟨first, later⟩ := ih forward.2
    exact ⟨⟨forward.1, first⟩, later⟩

theorem Forward.now_le {moves : List Move} (forward : s.Forward moves) : s.now ≤ (s.run moves).now := by
  induction moves generalizing s with
  | nil => exact Instant.le_refl _
  | cons move rest ih => exact Instant.le_trans forward.1 (ih forward.2)

/-- What each call of a move keeps, and what the end of a job does not touch, the move keeps. -/
theorem Turns.keeps {made : List Asked} {P : Engine → Prop} (turns : s.Turns after made) (holds : P s.engine)
    (marked : ∀ e job, P e → P (e.markExecuted job))
    (each : ∀ e, P e → ∀ ask ∈ made, ask.result = (e.step s.now (s.names.next e) ask.operation).result →
      P (e.step s.now (s.names.next e) ask.operation).engine) : P after.engine := by
  obtain ⟨_, ⟨e, hears, engine⟩, _⟩ := turns
  have heard : P e := hears.keeps holds each
  rcases engine with same | ⟨job, same⟩
  · exact same ▸ heard
  · exact same ▸ marked e job heard

theorem names_run (s : System) (moves : List Move) : (s.run moves).names = s.names := by
  induction moves generalizing s with
  | nil => rfl
  | cons move rest ih => exact (ih _).trans (s.turns_step move).names

/-- What each call keeps, and what the end of a job does not touch, is kept in the course of moves. -/
theorem run_keeps {moves : List Move} {P : Engine → Prop} (holds : P s.engine)
    (marked : ∀ e job, P e → P (e.markExecuted job))
    (each : ∀ e now, P e → ∀ ask ∈ s.asksOf moves, ask.result = (e.step now (s.names.next e) ask.operation).result →
      P (e.step now (s.names.next e) ask.operation).engine) : P (s.run moves).engine := by
  induction moves generalizing s with
  | nil => exact holds
  | cons move rest ih =>
    have stepped : P (s.step move).2.engine := (s.turns_step move).keeps holds marked fun e holds ask member =>
      each e s.now holds ask (List.mem_append_left _ member)
    refine ih stepped fun e now holds ask member heard => ?_
    rw [(s.turns_step move).names] at heard ⊢
    exact each e now holds ask (List.mem_append_right _ member) heard

theorem orderly_run (apart : s.names.Distinct) (orderly : s.engine.Orderly s.names) (moves : List Move) :
    (s.run moves).engine.Orderly s.names :=
  run_keeps (P := fun e => e.Orderly s.names) orderly (fun _ _ orderly => orderly.of_eq rfl rfl rfl rfl)
    fun _ now orderly ask _ _ => orderly.step apart now ask.operation

/-- A property of the record of a task is kept by moves whose calls keep it, whatever the clock does. -/
theorem keeps_run {P : TaskRecord → Prop} (apart : s.names.Distinct) (keeps : s.engine.Keeps s.names task P)
    {moves : List Move} (becomes : ∀ now, ∀ ask ∈ s.asksOf moves, ∀ old record, old.task.id = task → P old →
      old.Becomes now ask record → P record) : (s.run moves).engine.Keeps s.names task P :=
  run_keeps (P := fun e => e.Keeps s.names task P) keeps (fun _ job keeps => keeps.markExecuted job)
    fun _ now keeps ask member heard => keeps.hear apart heard (becomes now ask member)

/-- Moves leave names distinct and the engine in the order that they make. -/
theorem in_order_run (apart : s.names.Distinct) (orderly : s.engine.Orderly s.names) (moves : List Move) :
    (s.run moves).names.Distinct ∧ (s.run moves).engine.Orderly (s.run moves).names := by
  rw [names_run]
  exact ⟨apart, orderly_run apart orderly moves⟩

theorem in_order_created {names : Naming} (distinct : names.Distinct) (now : Instant) (settings : Settings)
    (gated : Bool) (moves : List Move) :
    ((create names now settings gated).run moves).names.Distinct ∧
      ((create names now settings gated).run moves).engine.Orderly
        ((create names now settings gated).run moves).names :=
  in_order_run distinct (Engine.orderly_empty names) moves

end System

/-- A property of a task's record that lasts while the clock goes on and calls of a kind are made. -/
structure Lasting (task : String) (Q : Asked → Prop) (P : Instant → TaskRecord → Prop) : Prop where
  later : ∀ {now time record}, now ≤ time → P now record → P time record
  becomes : ∀ {now ask old record}, now.leap = false → Q ask → old.task.id = task → P now old →
    old.Becomes now ask record → P now record

namespace Lasting

variable {task : String} {Q : Asked → Prop} {P : Instant → TaskRecord → Prop} (lasting : Lasting task Q P)
include lasting

theorem hear {e : Engine} {names : Naming} {now : Instant} {ask : Asked} (apart : names.Distinct)
    (ordinary : now.leap = false) (keeps : e.Keeps names task (P now)) (allowed : Q ask)
    (heard : ask.result = (e.step now (names.next e) ask.operation).result) :
    (e.step now (names.next e) ask.operation).engine.Keeps names task (P now) :=
  keeps.hear apart heard fun _ _ id holds became => lasting.becomes ordinary allowed id holds became

variable {s : System} (apart : s.names.Distinct) (keeps : s.engine.Keeps s.names task (P s.now))
include apart keeps

theorem step {move : Move} (onward : s.now ≤ (s.step move).2.now) (allowed : ∀ ask ∈ s.asksIn move, Q ask) :
    (s.step move).2.engine.Keeps s.names task (P (s.step move).2.now) := by
  have stepped : (s.step move).2.engine.Keeps s.names task (P s.now) :=
    (s.turns_step move).keeps (P := fun e => e.Keeps s.names task (P s.now)) keeps
      (fun _ job keeps => keeps.markExecuted job) fun _ keeps ask member same =>
        lasting.hear apart s.ordinary keeps (allowed ask member) same
  exact stepped.imp fun record => lasting.later onward

theorem run {moves : List Move} (forward : s.Forward moves) (allowed : ∀ ask ∈ s.asksOf moves, Q ask) :
    (s.run moves).engine.Keeps s.names task (P (s.run moves).now) := by
  induction moves generalizing s with
  | nil => exact keeps
  | cons move rest ih =>
    have stepped := lasting.step apart keeps forward.1 fun ask member => allowed ask (List.mem_append_left _ member)
    have names := (s.turns_step move).names
    rw [← names] at apart stepped ⊢
    exact ih apart stepped forward.2 fun ask member => allowed ask (List.mem_append_right _ member)

/-- Each call finds a record that still has the property. -/
theorem heard {moves : List Move} (forward : s.Forward moves) (allowed : ∀ ask ∈ s.asksOf moves, Q ask) {ask : Asked}
    (member : ask ∈ s.asksOf moves) : ∃ (e : Engine) (now : Instant), now ≤ (s.run moves).now ∧
      e.Keeps s.names task (P now) ∧ ask.result = (e.step now (s.names.next e) ask.operation).result := by
  induction moves generalizing s with
  | nil => cases member
  | cons move rest ih =>
    rcases List.mem_append.mp member with now | later
    · obtain ⟨_, ⟨_, hears, _⟩, _⟩ := s.turns_step move
      obtain ⟨e, found, same⟩ := hears.during (P := fun e => e.Keeps s.names task (P s.now)) keeps
        (fun _ keeps other among same =>
          lasting.hear apart s.ordinary keeps (allowed other (List.mem_append_left _ among)) same)
        now
      exact ⟨e, s.now, forward.now_le, found, same⟩
    · have stepped := lasting.step apart keeps forward.1 fun ask member => allowed ask (List.mem_append_left _ member)
      have names := (s.turns_step move).names
      rw [← names] at apart stepped ⊢
      exact ih apart stepped forward.2 (fun ask member => allowed ask (List.mem_append_right _ member)) later

end Lasting

end TaskLeasing
