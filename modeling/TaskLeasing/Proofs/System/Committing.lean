import TaskLeasing.Proofs.System.Delaying
import TaskLeasing.Proofs.System.Grounds

namespace TaskLeasing

/-- The leased tasks that work hands out. -/
def Work.handsOut : Work → List LeasedTask
  | .handOut tasks => tasks
  | _ => []

/-- The registration that work leases for as soon as it is run after commit. -/
def Work.leasesOnCommit? : Work → Option Registration
  | .deferLease registration => some registration
  | _ => none

namespace System

variable {s after : System} {moves : List Move} {move : Move}

/-- The works that the host has taken up in the course of moves, in order. -/
def ran (s : System) (moves : List Move) : List Work := s.gather (fun s move => (s.taken? move).toList) moves

theorem mem_ran {work : Work} : work ∈ s.ran moves ↔
    ∃ first taking last, moves = first ++ taking :: last ∧ (s.run first).taken? taking = some work := by
  simp only [ran, mem_gather, Option.mem_toList]

theorem toDo_create (names : Naming) (now : Instant) (settings : Settings) (gated : Bool) :
    (create names now settings gated).toDo = [] := by cases gated <;> rfl

/-- What is to be done was queued for after commit by a move, or follows what was taken up in one. -/
theorem toDo_origin (numbered : s.host.Numbered) {work : Work} (member : work ∈ (s.run moves).toDo) :
    work ∈ s.toDo ∨ ∃ first other last, moves = first ++ other :: last ∧ ((s.run first).Queues other work ∨
      ∃ earlier, (s.run first).taken? other = some earlier ∧ work ∈ earlier.follow) := by
  induction moves using List.reverseRecOn with
  | nil => exact .inl member
  | append_singleton moves other ih =>
    have old (among : work ∈ (s.run moves).toDo) : work ∈ s.toDo ∨ ∃ first other' last,
        moves ++ [other] = first ++ other' :: last ∧ ((s.run first).Queues other' work ∨
          ∃ earlier, (s.run first).taken? other' = some earlier ∧ work ∈ earlier.follow) := by
      rcases ih among with first | ⟨first, other', last, rfl, origin⟩
      · exact .inl first
      · exact .inr ⟨first, other', last ++ [other], by simp, origin⟩
    rw [run_append] at member
    obtain ⟨works, toDo, queued⟩ := queues_step (numbered_run numbered moves) other
    have among := toDo.mem_iff.mp (List.mem_append_left _ member)
    rcases List.mem_append.mp among with there | new
    · exact old there
    · refine .inr ⟨moves, other, [], rfl, ?_⟩
      rcases List.mem_append.mp new with follows | left
      · obtain ⟨earlier, taken, member⟩ := List.mem_flatMap.mp follows
        exact .inr ⟨earlier, Option.mem_toList.mp taken, member⟩
      · exact .inl (queued work left)

/-- Work that a move takes up was queued for after commit before, unless it is run asynchronously. -/
theorem queued_origin (numbered : s.host.Numbered) (idle : s.toDo = []) {work : Work}
    (taken : (s.run moves).taken? move = some work) (waits : work.isAsync = false) :
    ∃ first queuing last, moves = first ++ queuing :: last ∧ (s.run first).Queues queuing work := by
  have member := taken?_mem (numbered_run numbered moves) taken
  rcases toDo_origin numbered member with there | ⟨first, queuing, last, split, queues | ⟨_, _, follows⟩⟩
  · rw [idle] at there
    cases there
  · exact ⟨first, queuing, last, split, queues⟩
  · rw [Work.isAsync_follow follows] at waits
    cases waits

/-- Work that is run asynchronously follows work that was run after commit before. -/
theorem async_origin (numbered : s.host.Numbered) (idle : s.toDo = []) {work : Work}
    (taken : (s.run moves).taken? move = some work) (async : work.isAsync = true) :
    ∃ first running last earlier, moves = first ++ running :: last ∧ (s.run first).taken? running = some earlier ∧
      work ∈ earlier.follow := by
  have member := taken?_mem (numbered_run numbered moves) taken
  rcases toDo_origin numbered member with there | ⟨first, other, last, split, queues | ⟨earlier, taken, follows⟩⟩
  · rw [idle] at there
    cases there
  · rw [queues.notAsync] at async
    cases async
  · exact ⟨first, other, last, earlier, split, taken, follows⟩

theorem Queues.handOut_eq {tasks : List LeasedTask} (queues : s.Queues move (.handOut tasks)) :
    tasks = s.leasedIn move := by
  generalize same : Work.handOut tasks = work at queues
  cases queues with
  | lease => cases same
  | retry _ _ _ retries =>
    obtain ⟨_, _, rfl⟩ := retries
    cases same
  | handOut leases =>
    rw [leasedIn, leases]
    cases same
    rfl
  | compensation _ _ makesUp =>
    obtain ⟨_, _, _, rfl⟩ := makesUp
    cases same

/-- The registrations of the retries that were delayed in the course of moves and whose time has come by their end. -/
def ripe (s : System) (moves : List Move) : List Registration :=
  ((s.gather delayedIn moves).filter fun d => d.Rested (s.run moves).now).filterMap fun d => d.work.leasesFor?

/-- The order in which things come after commit, in a move after others. The engine is led on by the calls that belong
to the move alone, and each of these has its grounds. Work that is taken up was queued before. A leased task is given to
a processor after the tasks that its own lease gave were handed out, unless a caller brings it along; this happens no
more often than tasks are handed out, and that no more often than they are leased. While the clock does not go back, a
retry is delayed, from its own turn after commit, until its delay is over, and leases are made no more often than works
that defer them were run, among them retries whose delay is over. -/
structure InCommitOrder (s : System) (before : List Move) (move : Move) : Prop where
  engine : ∃ e, (s.run before).engine.Hears (s.run before).now (s.run before).names ((s.run before).asksIn move) e ∧
    ((s.run (before ++ [move])).engine = e ∨ ∃ job, (s.run (before ++ [move])).engine = e.markExecuted job)
  grounds : ∀ ask ∈ (s.run before).asksIn move, (s.run before).Grounds (s.ran before) move ask
  queued : ∀ work, (s.run before).taken? move = some work → work.isAsync = false →
    ∃ first queuing later, before = first ++ queuing :: later ∧ (s.run first).Queues queuing work
  processed : ∀ call lease, ((s.run before).step move).1.call? = some call → call.subject.attempt? = some lease →
    move = .process lease ∨ ∃ first leasing later, before = first ++ leasing :: later ∧
      lease ∈ (s.run first).leasedIn leasing ∧
        .handOut ((s.run first).leasedIn leasing) ∈ (s.run (first ++ [leasing])).ran later
  handed : ((s.ran before).flatMap Work.handsOut).Subperm (s.gather leasedIn before)
  begun : ((s.ran (before ++ [move])).flatMap Work.begun).Subperm ((s.ran before).flatMap Work.handsOut)
  delayed : s.Forward before → ∀ d ∈ s.gather delayedIn before,
    d ∈ (s.run before).host.delayed ∨ d.Rested (s.run before).now
  leased : s.Forward before → ((s.ran (before ++ [move])).filterMap Work.leasesFor?).Subperm
    ((s.ran before).filterMap Work.leasesOnCommit? ++ s.ripe before)

theorem ran_append (s : System) (before : List Move) (move : Move) :
    s.ran (before ++ [move]) = s.ran before ++ ((s.run before).taken? move).toList := by
  rw [ran, gather_append, gather, gather, List.append_nil]
  rfl

/-- What is taken up is not delayed. -/
theorem toDo_split (numbered : s.host.Numbered) (move : Move) : ∃ rest : List Work,
    s.toDo.Perm ((s.taken? move).toList ++ (s.host.delayed.map DelayedAction.work ++ rest)) := by
  have whole : s.toDo.Perm (s.host.delayed.map DelayedAction.work ++ (s.deferred ++ s.awaiting)) := by
    rw [toDo, ← List.append_assoc]
    exact List.perm_append_comm
  cases taken : s.taken? move with
  | none => exact ⟨_, whole⟩
  | some work =>
    have ready : work ∈ s.deferred ∨ work ∈ s.awaiting := by
      obtain ⟨a, rfl, ⟨_, member, _⟩ | ⟨_, member⟩⟩ := taken?_cases numbered taken
      · exact mem_ready.mpr (.inr (.inl (List.mem_map_of_mem member)))
      · exact mem_ready.mpr (.inr (.inr (.inr (List.mem_map_of_mem member))))
    obtain ⟨front, back, split⟩ := List.append_of_mem (List.mem_append.mpr ready)
    rw [split, ← List.append_assoc] at whole
    refine ⟨front ++ back, whole.trans ?_⟩
    rw [← List.append_assoc (s.host.delayed.map DelayedAction.work)]
    exact List.perm_middle

/-- Works that are run asynchronously are still to be done or were run, each for one that was run after commit. -/
theorem async_run (numbered : s.host.Numbered) (moves : List Move) :
    ((s.run moves).toDo.filter Work.isAsync ++ (s.ran moves).filter Work.isAsync).Perm
      (s.toDo.filter Work.isAsync ++ (s.ran moves).flatMap Work.follow) := by
  rw [ran, gather_comp _ (List.filter Work.isAsync) rfl fun _ _ => List.filter_append ..,
    gather_comp _ (List.flatMap Work.follow) rfl fun _ _ => List.flatMap_append]
  refine balance_run (fun s => s.host.Numbered) (fun s => s.toDo.filter Work.isAsync) numbered ?_
  intro s numbered move _
  obtain ⟨_, passes⟩ := passes_step numbered move
  refine ⟨passes.numbered, ?_⟩
  obtain ⟨works, toDo, queued⟩ := queues_step numbered move
  have late : works.filter Work.isAsync = [] :=
    List.filter_eq_nil_iff.mpr fun work member => by simp [(queued work member).notAsync]
  have next : ((s.taken? move).toList.flatMap Work.follow).filter Work.isAsync =
      (s.taken? move).toList.flatMap Work.follow := by
    refine List.filter_eq_self.mpr fun work member => ?_
    obtain ⟨earlier, _, follows⟩ := List.mem_flatMap.mp member
    exact Work.isAsync_follow follows
  have balance := toDo.filter Work.isAsync
  rwa [List.filter_append, List.filter_append, List.filter_append, late, next, List.append_nil] at balance

theorem flatMap_filter_async {α : Type} {tell : Work → List α} (late : ∀ work, work.isAsync = false → tell work = [])
    (works : List Work) : (works.filter Work.isAsync).flatMap tell = works.flatMap tell := by
  induction works with
  | nil => rfl
  | cons work rest ih =>
    cases async : work.isAsync with
    | true => rw [List.filter_cons_of_pos async, List.flatMap_cons, List.flatMap_cons, ih]
    | false => rw [List.filter_cons_of_neg (by simp [async]), ih, List.flatMap_cons, late work async, List.nil_append]

/-- What works that are run asynchronously tell of is told of, too, by what follows those run after commit. -/
theorem told_run {α : Type} (numbered : s.host.Numbered) (idle : s.toDo = []) {tell : Work → List α}
    (late : ∀ work, work.isAsync = false → tell work = []) (moves : List Move) :
    ((s.run moves).toDo.flatMap tell ++ (s.ran moves).flatMap tell).Perm
      ((s.ran moves).flatMap fun work => work.follow.flatMap tell) := by
  have account := (async_run numbered moves).flatMap_right tell
  rwa [idle, List.filter_nil, List.nil_append, List.flatMap_append, flatMap_filter_async late,
    flatMap_filter_async late, List.flatMap_assoc] at account

/-- What is told of works that are run asynchronously, one that is taken up now and all those that are delayed among
them, was told of by what follows those run after commit. -/
theorem told_taken {α : Type} (numbered : s.host.Numbered) (idle : s.toDo = []) {tell : Work → List α}
    (late : ∀ work, work.isAsync = false → tell work = []) (before : List Move) (move : Move) : ∃ rest : List α,
      ((s.ran (before ++ [move])).flatMap tell ++
        (((s.run before).host.delayed.map DelayedAction.work).flatMap tell ++ rest)).Perm
          ((s.ran before).flatMap fun work => work.follow.flatMap tell) := by
  obtain ⟨others, split⟩ := toDo_split (numbered_run numbered before) move
  have told := told_run numbered idle late before
  refine ⟨others.flatMap tell, .trans ?_ told⟩
  have parts := split.flatMap_right tell
  rw [List.flatMap_append, List.flatMap_append] at parts
  rw [ran_append, List.flatMap_append]
  refine .trans ?_ (parts.symm.append_right _)
  rw [List.append_assoc]
  exact List.perm_append_comm

theorem begun_follow (work : Work) : work.follow.flatMap Work.begun = work.handsOut := by
  cases work with
  | handOut tasks => simp [Work.follow, Work.handsOut, Work.begun, List.flatMap_map]
  | _ => rfl

theorem begun_late (work : Work) (waits : work.isAsync = false) : work.begun = [] := by
  cases work with
  | process lease => cases waits
  | _ => rfl

/-- Processing begins for tasks that have been handed out, once for each time. -/
theorem begun_run (numbered : s.host.Numbered) (idle : s.toDo = []) (before : List Move) (move : Move) :
    ((s.ran (before ++ [move])).flatMap Work.begun).Subperm ((s.ran before).flatMap Work.handsOut) := by
  obtain ⟨rest, told⟩ := told_taken numbered idle begun_late before move
  simp only [begun_follow] at told
  exact (List.sublist_append_left _ _).subperm.trans told.subperm

theorem begun_sublist (works : List Work) : (works.flatMap Work.begun).Sublist (works.flatMap Work.leases) := by
  induction works with
  | nil => exact .slnil
  | cons work rest ih =>
    rw [List.flatMap_cons, List.flatMap_cons, leases_follow work]
    exact (List.sublist_append_left _ _).append ih

/-- Tasks are handed out that have been leased, once for each time. -/
theorem handed_run (numbered : s.host.Numbered) (idle : s.toDo = []) (moves : List Move) :
    ((s.ran moves).flatMap Work.handsOut).Subperm (s.gather leasedIn moves) := by
  have told := told_run numbered idle begun_late moves
  simp only [begun_follow] at told
  have account : ((s.run moves).handed ++ (s.ran moves).flatMap Work.begun).Perm
      (s.handed ++ s.gather leasedIn moves) := by
    rw [ran, gather_comp _ (List.flatMap Work.begun) rfl fun _ _ => List.flatMap_append]
    refine balance_run (fun s => s.host.Numbered) handed numbered fun s numbered move _ => ?_
    obtain ⟨_, passes⟩ := passes_step numbered move
    exact ⟨passes.numbered, handed_step numbered move⟩
  rw [handed_eq s, idle, List.flatMap_nil, List.nil_append] at account
  exact told.symm.subperm.trans (((begun_sublist _).append_right _).subperm.trans account.subperm)

/-- The registrations that follow the running of work: at once, and after a delay. -/
theorem leasesFor?_follow (s : System) (work : Work) : (work.follow.flatMap fun next => next.leasesFor?.toList) =
    work.leasesOnCommit?.toList ++ (s.delayedBy work).flatMap fun d => d.work.leasesFor?.toList := by
  cases work with
  | handOut tasks => simp [Work.follow, Work.leasesOnCommit?, delayedBy, List.flatMap_map, Work.leasesFor?]
  | _ => rfl

theorem leasesFor?_late (work : Work) (waits : work.isAsync = false) : work.leasesFor?.toList = [] := by
  cases work with
  | lease registration => cases waits
  | _ => rfl

theorem leasesFor?_run (s : System) (moves : List Move) :
    ((s.ran moves).flatMap fun work => work.follow.flatMap fun next => next.leasesFor?.toList).Perm
      ((s.ran moves).flatMap (fun work => work.leasesOnCommit?.toList) ++
        (s.gather delayedIn moves).flatMap fun d => d.work.leasesFor?.toList) := by
  induction moves generalizing s with
  | nil => exact .refl _
  | cons move rest ih =>
    have first : ((s.taken? move).toList.flatMap fun work => work.follow.flatMap fun next => next.leasesFor?.toList) =
        (s.taken? move).toList.flatMap (fun work => work.leasesOnCommit?.toList) ++
          (s.delayedIn move).flatMap fun d => d.work.leasesFor?.toList := by
      unfold delayedIn
      cases s.taken? move with
      | none => rfl
      | some work => simpa only [Option.toList_some, List.flatMap_singleton] using s.leasesFor?_follow work
    have later := Multiset.coe_eq_coe.mpr (ih (s.step move).2)
    refine Multiset.coe_eq_coe.mp ?_
    unfold ran at later ⊢
    simp only [gather, List.flatMap_append, first, ← Multiset.coe_add] at later ⊢
    rw [later]
    abel

/-- Leases are made for those whose deferral was run after commit, at once or when the delay of a retry is over, once
for each time. -/
theorem leased_run (numbered : s.host.Numbered) (idle : s.toDo = []) (undelayed : s.host.delayed = [])
    {before : List Move} (move : Move) (forward : s.Forward before) :
    ((s.ran (before ++ [move])).filterMap Work.leasesFor?).Subperm
      ((s.ran before).filterMap Work.leasesOnCommit? ++ s.ripe before) := by
  obtain ⟨rest, told⟩ := told_taken numbered idle leasesFor?_late before move
  obtain ⟨woken, delayed, rested⟩ := delayed_run numbered forward
  rw [undelayed, List.nil_append] at delayed
  -- those that are delayed still are counted on both sides
  have cancel {made still rest given come more : Multiset Registration}
      (account : made + (still + rest) = given + (still + come)) : made ≤ given + (more + come) := by
    have same : made + rest = given + come := by
      refine add_left_cancel (a := still) ?_
      rw [add_left_comm, account, add_left_comm]
    refine Multiset.le_iff_exists_add.mpr ⟨more + rest, ?_⟩
    rw [add_left_comm, ← same, add_left_comm]
  have account := told.trans (s.leasesFor?_run before)
  have retries := delayed.flatMap_right fun d => d.work.leasesFor?.toList
  have come := (delayed.filter fun d => decide (d.Rested (s.run before).now)).flatMap_right fun d =>
    d.work.leasesFor?.toList
  have all : (woken.filter fun d => decide (d.Rested (s.run before).now)) = woken :=
    List.filter_eq_self.mpr fun d member => decide_eq_true (rested d member)
  rw [List.filter_append, all] at come
  simp only [List.flatMap_append, List.flatMap_map] at retries come account
  simp only [List.filterMap_eq_flatMap_toList, ripe]
  refine Multiset.coe_le.mp ?_
  have account := Multiset.coe_eq_coe.mpr account
  have retries := Multiset.coe_eq_coe.mpr retries
  have come := Multiset.coe_eq_coe.mpr come
  simp only [← Multiset.coe_add] at account retries come ⊢
  rw [retries] at account
  rw [come]
  exact cancel account

/-- Tasks that a processor is called for by the host have been handed out before, after the lease that gave them. -/
theorem processed_run (numbered : s.host.Numbered) (idle : s.toDo = []) {before : List Move} {move : Move}
    {lease : LeasedTask} (taken : (s.run before).taken? move = some (.process lease)) :
    ∃ first leasing later, before = first ++ leasing :: later ∧ lease ∈ (s.run first).leasedIn leasing ∧
      .handOut ((s.run first).leasedIn leasing) ∈ (s.run (first ++ [leasing])).ran later := by
  obtain ⟨early, handing, late, earlier, rfl, runs, follows⟩ := async_origin numbered idle taken rfl
  obtain ⟨tasks, rfl, member⟩ : ∃ tasks, earlier = .handOut tasks ∧ lease ∈ tasks := by
    cases earlier with
    | handOut tasks =>
      obtain ⟨_, member, same⟩ := List.mem_map.mp follows
      cases same
      exact ⟨tasks, rfl, member⟩
    | deferLease registration | deferRetry registration delay => cases List.mem_singleton.mp follows
    | _ => cases follows
  obtain ⟨first, leasing, last, rfl, queues⟩ := queued_origin numbered idle runs rfl
  rw [queues.handOut_eq] at runs member
  refine ⟨first, leasing, last ++ handing :: late, by simp, member, mem_ran.mpr ⟨last, handing, late, rfl, ?_⟩⟩
  rw [← run_append, List.append_assoc, List.singleton_append]
  exact runs

/-- A lease is made asynchronously after work that defers it has been run. -/
theorem deferred_run (numbered : s.host.Numbered) (idle : s.toDo = []) {before : List Move} {move : Move}
    {registration : Registration} (taken : (s.run before).taken? move = some (.lease registration)) :
    .deferLease registration ∈ s.ran before ∨ ∃ delay, .deferRetry registration delay ∈ s.ran before := by
  obtain ⟨early, running, late, earlier, rfl, runs, follows⟩ := async_origin numbered idle taken rfl
  have ran : earlier ∈ s.ran (early ++ running :: late) := mem_ran.mpr ⟨early, running, late, rfl, runs⟩
  cases earlier with
  | deferLease other =>
    cases List.mem_singleton.mp follows
    exact .inl ran
  | deferRetry other delay =>
    cases List.mem_singleton.mp follows
    exact .inr ⟨delay, ran⟩
  | handOut tasks =>
    obtain ⟨_, _, same⟩ := List.mem_map.mp follows
    cases same
  | _ => cases follows

/-- After commit things go in order, whatever the host does and when. -/
theorem run_in_commit_order (names : Naming) (now : Instant) (settings : Settings) (gated : Bool) (before : List Move)
    (move : Move) : (create names now settings gated).InCommitOrder before move := by
  have numbered : (create names now settings gated).host.Numbered := Host.numbered_idle _
  have idle := toDo_create names now settings gated
  constructor
  case engine =>
    rw [run_append]
    exact (turns_step _ move).engine
  case grounds => exact grounds_step _ fun registration taken => deferred_run numbered idle taken
  case queued => exact fun work taken waits => queued_origin numbered idle taken waits
  case processed =>
    intro call lease calling attempt
    exact (call?_taken calling attempt).imp_right fun taken => processed_run numbered idle taken
  case handed => exact handed_run numbered idle before
  case begun => exact begun_run numbered idle before move
  case delayed =>
    intro forward d member
    obtain ⟨woken, delayed, rested⟩ := delayed_run numbered forward
    have among := delayed.mem_iff.mp (List.mem_append_right _ member)
    exact (List.mem_append.mp among).imp_right (rested d)
  case leased => exact leased_run numbered idle rfl move

/-- Under a host that holds back what is to be done after commit, a task is leased. -/
def heldLease : List Move :=
  [.register "order" "money" none .all .sync,
    .operate .done (.deploy ⟨"order", [⟨"pay", .serviceTask, some "money", none⟩]⟩),
    .operate .name (.start "order" none .empty), .dispatch ⟨"order", "money"⟩]

/-- After the commit the task is processed, and fails. After another commit its retry is delayed for five seconds. -/
def heldRetry : List Move :=
  heldLease ++ [.commit, .start 0, .start 1, .answer 1 .process (.failed (.retryable ⟨"busy", 3, [], none⟩)), .commit,
    .start 2]

/-- Before the commit there is no move in which the task is processed, and until the delay is over none in which the
retry leases; then there is. -/
theorem run_in_commit_order_held :
    let s := create unaryNames .epoch (Settings.defaults "w") true
    let later := (Instant.epoch.plus? (.ofSeconds 5)).getD .epoch
    (∀ move lease, (s.run heldLease).taken? move ≠ some (.process lease)) ∧
      (∀ move registration, (s.run (heldRetry ++ [.wake 3])).taken? move ≠ some (.lease registration)) ∧
      (s.run (heldRetry ++ [.passTo later, .wake 3])).taken? (.start 4) =
        some (.lease ⟨⟨"order", "money"⟩, none, .all, .sync⟩) := by
  refine ⟨fun move lease taken => ?_, fun move registration taken => ?_, rfl⟩
  · have order := run_in_commit_order unaryNames .epoch (Settings.defaults "w") true heldLease move
    have begun := order.begun
    rw [ran_append, taken] at begun
    have member : lease ∈ ([] : List LeasedTask) :=
      begun.subset (List.mem_flatMap.mpr ⟨.process lease, by simp, List.mem_singleton_self lease⟩)
    cases member
  · have order := run_in_commit_order unaryNames .epoch (Settings.defaults "w") true (heldRetry ++ [.wake 3]) move
    have leased := order.leased (by decide +kernel)
    rw [ran_append, taken] at leased
    have member : registration ∈ ([] : List Registration) :=
      leased.subset (List.mem_filterMap.mpr ⟨.lease registration, by simp, rfl⟩)
    cases member

end System

end TaskLeasing
