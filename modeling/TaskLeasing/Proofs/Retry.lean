import TaskLeasing.Retry
import Mathlib.Data.List.Basic

namespace TaskLeasing

theorem wordMinus_toNat (a b : UInt32) : (wordMinus a b).toNat = a.toNat - b.toNat := by
  unfold wordMinus
  split
  · next below =>
    have := UInt32.le_iff_toNat_le.mp below
    have none' : (0 : UInt32).toNat = 0 := rfl
    omega
  · next above => rw [UInt32.toNat_sub_of_le _ _ (UInt32.le_of_lt (UInt32.not_le.mp above))]

theorem wordSucc_toNat (a : UInt32) : (wordSucc a).toNat = min (a.toNat + 1) 4294967295 := by
  have bound := a.toNat_lt
  unfold wordSucc
  split
  · next greatest =>
    subst greatest
    rfl
  · next less =>
    have : a.toNat ≠ 4294967295 := fun same => less (UInt32.toNat_inj.mp same)
    rw [UInt32.toNat_add]
    have one : (1 : UInt32).toNat = 1 := rfl
    omega

section

variable {budget left : UInt32} {backoff : List Span} {retries : Option UInt32}

theorem RetryDecision.willRetry_iff {decision : RetryDecision} :
    decision.willRetry = true ↔ 0 < decision.retriesLeft.toNat :=
  decide_eq_true_iff.trans UInt32.lt_iff_toNat_lt

/-- What is left is what the budget is worth beyond the attempt. -/
theorem nextRetry_retriesLeft (budget : UInt32) (retries : Option UInt32) (backoff : List Span) :
    (nextRetry budget retries backoff).retriesLeft.toNat =
      budget.toNat - (nextRetry budget retries backoff).attempt.toNat := wordMinus_toNat ..

/-- A decision that leaves no retries has no wait either. -/
theorem nextRetry_exhausted (exhausted : (nextRetry budget retries backoff).retriesLeft = 0) :
    (nextRetry budget retries backoff).delay = .zero := by
  unfold nextRetry at exhausted ⊢
  exact if_pos exhausted

theorem nextRetry_delay (more : (nextRetry budget retries backoff).retriesLeft ≠ 0) :
    (nextRetry budget retries backoff).delay =
      delayForAttempt (nextRetry budget retries backoff).attempt backoff := by
  unfold nextRetry at more ⊢
  exact if_neg more

/-- The first failure leaves what its budget is worth beyond the one attempt. -/
theorem nextRetry_first (budget : UInt32) (backoff : List Span) :
    (nextRetry budget none backoff).retriesLeft.toNat = budget.toNat - 1 := nextRetry_retriesLeft budget none backoff

/-- With retries on record the attempt is counted from the end of the budget, without an overflow. -/
theorem nextRetry_attempt (positive : 1 ≤ left) (budget : UInt32) (backoff : List Span) :
    (nextRetry budget (some left) backoff).attempt.toNat = budget.toNat - left.toNat + 1 := by
  have positive : 1 ≤ left.toNat := UInt32.le_iff_toNat_le.mp positive
  have bound := budget.toNat_lt
  change (wordSucc (wordMinus budget left)).toNat = _
  rw [wordSucc_toNat, wordMinus_toNat]
  omega

/-- Whatever budget a later failure names, it leaves one less than the smaller of the budget and what there was. -/
theorem nextRetry_left (positive : 1 ≤ left) (budget : UInt32) (backoff : List Span) :
    (nextRetry budget (some left) backoff).retriesLeft.toNat = min budget.toNat left.toNat - 1 := by
  rw [nextRetry_retriesLeft, nextRetry_attempt positive]
  have positive : 1 ≤ left.toNat := UInt32.le_iff_toNat_le.mp positive
  omega

theorem nextRetry_later (positive : 1 ≤ left) (budget : UInt32) (backoff : List Span) :
    (nextRetry budget (some left) backoff).retriesLeft < left := by
  rw [UInt32.lt_iff_toNat_lt, nextRetry_left positive]
  have positive : 1 ≤ left.toNat := UInt32.le_iff_toNat_le.mp positive
  omega

/-- What is decided on the failure of the attempt of a number, counted from one: how many attempts the budget still
holds, and a wait before the next one if there is one, the delay at the number's place in the sequence or else the
last. -/
structure RetryDecision.DecidesOn (decision : RetryDecision) (number : Nat) (budget : UInt32) (backoff : List Span) :
    Prop where
  attempt : decision.attempt.toNat = number
  left : decision.retriesLeft.toNat = budget.toNat - number
  again : decision.willRetry = true ↔ number < budget.toNat
  delay : number < budget.toNat → backoff ≠ [] → backoff[min number backoff.length - 1]? = some decision.delay
  usual : number < budget.toNat → backoff = [] → decision.delay = .ofMillis 5000
  last : budget.toNat ≤ number → decision.delay = .zero

/-- The record of retries after so many failed attempts of a budget that holds more. -/
def SpentBy (failed : Nat) (budget : UInt32) (retries : Option UInt32) : Prop :=
  (failed = 0 ∧ retries = none) ∨
    0 < failed ∧ failed < budget.toNat ∧ ∃ left, retries = some left ∧ left.toNat = budget.toNat - failed

/-- Each failure is decided on as that of the attempt after those before it. -/
theorem SpentBy.decides {failed : Nat} (spent : SpentBy failed budget retries) (backoff : List Span) :
    (nextRetry budget retries backoff).DecidesOn (failed + 1) budget backoff := by
  have attempt : (nextRetry budget retries backoff).attempt.toNat = failed + 1 := by
    rcases spent with ⟨rfl, rfl⟩ | ⟨some', within, left, rfl, rest⟩
    · rfl
    · have positive : 1 ≤ left := UInt32.le_iff_toNat_le.mpr (show 1 ≤ left.toNat by omega)
      rw [nextRetry_attempt positive]
      omega
  have left := nextRetry_retriesLeft budget retries backoff
  rw [attempt] at left
  have more (within : failed + 1 < budget.toNat) : (nextRetry budget retries backoff).retriesLeft ≠ 0 := by
    intro none'
    rw [none', UInt32.toNat_zero] at left
    omega
  have place : min (max (failed + 1) 1) backoff.length = min (failed + 1) backoff.length := by omega
  refine ⟨attempt, left, ?_, fun within given => ?_, fun within empty => ?_, fun finished => ?_⟩
  · rw [RetryDecision.willRetry_iff, left]
    omega
  · have positive := List.length_pos_iff.mpr given
    have inside : min (failed + 1) backoff.length - 1 < backoff.length := by omega
    rw [nextRetry_delay (more within), delayForAttempt, attempt, place, List.getD_eq_getElem?_getD,
      List.getElem?_eq_getElem inside, Option.getD_some]
  · rw [nextRetry_delay (more within), delayForAttempt, empty]
    rfl
  · exact nextRetry_exhausted (UInt32.toNat_inj.mp (show _ = 0 by omega))

/-- A decision to go on leaves one failed attempt more on record. -/
theorem SpentBy.next {failed : Nat} (spent : SpentBy failed budget retries)
    (again : (nextRetry budget retries backoff).willRetry = true) :
    SpentBy (failed + 1) budget (some (nextRetry budget retries backoff).retriesLeft) := by
  have decides := spent.decides backoff
  exact .inr ⟨Nat.succ_pos _, decides.again.mp again, _, rfl, decides.left⟩

/-- From any attempt of a budget on there are as many decisions as attempts remain, within the limit. -/
theorem SpentBy.chain {failed : Nat} (spent : SpentBy failed budget retries) (limit : Nat) :
    (retryChain budget backoff limit retries).length = min limit (max 1 budget.toNat - failed) ∧
      ∀ (i : Nat) (decision : RetryDecision), (retryChain budget backoff limit retries)[i]? = some decision →
        decision.DecidesOn (failed + i + 1) budget backoff := by
  induction limit generalizing failed retries with
  | zero => simp [retryChain]
  | succ limit ih =>
    have decides := spent.decides backoff
    rw [retryChain]
    by_cases again : (nextRetry budget retries backoff).willRetry = true
    · obtain ⟨length, rest⟩ := ih (spent.next again)
      have within := decides.again.mp again
      simp only [again, if_true]
      refine ⟨?_, fun i decision found => ?_⟩
      · rw [List.length_cons, length]
        omega
      · cases i with
        | zero =>
          obtain rfl := Option.some.inj found
          exact decides
        | succ i =>
          have later := rest i decision found
          rwa [show failed + 1 + i + 1 = failed + (i + 1) + 1 by omega] at later
    · have last : budget.toNat ≤ failed + 1 := Nat.not_lt.mp fun within => again (decides.again.mpr within)
      have first : failed < max 1 budget.toNat := by
        rcases spent with ⟨rfl, _⟩ | ⟨_, within, _⟩ <;> omega
      simp only [again]
      refine ⟨?_, fun i decision found => ?_⟩
      · rw [if_neg Bool.false_ne_true, List.length_singleton]
        omega
      · cases i with
        | zero =>
          obtain rfl := Option.some.inj found
          exact decides
        | succ i => cases found

/-- The decisions on failures one after another, each worth its own number of attempts with its own delays and counting
on from the retries the one before it left, until one grants no more. -/
def decisionsOn : List (UInt32 × List Span) → Option UInt32 → List RetryDecision
  | [], _ => []
  | (budget, backoff) :: rest, retries =>
    let decision := nextRetry budget retries backoff
    decision :: if decision.willRetry then decisionsOn rest (some decision.retriesLeft) else []

/-- A chain of retries are the decisions on failures that are all worth the same. -/
theorem retryChain_eq (budget : UInt32) (backoff : List Span) (limit : Nat) (retries : Option UInt32) :
    retryChain budget backoff limit retries = decisionsOn (List.replicate limit (budget, backoff)) retries := by
  induction limit generalizing retries with
  | zero => rfl
  | succ limit ih => rw [retryChain, List.replicate_succ, decisionsOn, ih]

/-- Whatever the failures are worth, what they leave goes down from one to the next. -/
theorem decisionsOn_decreasing (failures : List (UInt32 × List Span)) (remains : retries ≠ some 0) :
    (retries.toList ++ (decisionsOn failures retries).map RetryDecision.retriesLeft).Pairwise (· > ·) := by
  induction failures generalizing retries with
  | nil => cases retries <;> simp [decisionsOn]
  | cons failure rest ih =>
    obtain ⟨budget, backoff⟩ := failure
    have later : (((nextRetry budget retries backoff).retriesLeft) ::
        (if (nextRetry budget retries backoff).willRetry then
          decisionsOn rest (some (nextRetry budget retries backoff).retriesLeft) else []).map
            RetryDecision.retriesLeft).Pairwise (· > ·) := by
      by_cases again : (nextRetry budget retries backoff).willRetry = true
      · have more : some (nextRetry budget retries backoff).retriesLeft ≠ some 0 := fun none' => by
          have positive := RetryDecision.willRetry_iff.mp again
          rw [Option.some.inj none'] at positive
          exact absurd positive (by decide)
        rw [if_pos again]
        exact ih more
      · rw [if_neg again]
        exact List.pairwise_singleton _ _
    cases retries with
    | none => exact later
    | some left =>
      have positive : 1 ≤ left := UInt32.le_iff_toNat_le.mpr
        (Nat.pos_of_ne_zero fun zero => remains (congrArg some (UInt32.toNat_inj.mp zero)))
      have less := nextRetry_later positive budget backoff
      refine List.pairwise_cons.mpr ⟨fun other member => ?_, later⟩
      rcases List.mem_cons.mp member with rfl | further
      · exact less
      · exact UInt32.lt_trans ((List.pairwise_cons.mp later).1 other further) less

/-- Attempts that fail one after another count down from their budget: there are as many decisions as the budget has
attempts, and one at least, the last of them alone not to go on, and each is that on the attempt of its number. With
retries on record a failure leaves one less than the smaller of these and the budget, counted without an overflow; so
what is left goes down also where each failure names another budget. -/
theorem retries_count_down :
    (∀ (budget : UInt32) (backoff : List Span) (limit : Nat),
      (retryChain budget backoff limit none).length = min limit (max 1 budget.toNat) ∧
      ∀ (i : Nat) (decision : RetryDecision), (retryChain budget backoff limit none)[i]? = some decision →
        decision.DecidesOn (i + 1) budget backoff) ∧
    (∀ (budget left : UInt32) (backoff : List Span), 1 ≤ left →
      (nextRetry budget (some left) backoff).attempt.toNat = budget.toNat - left.toNat + 1 ∧
      (nextRetry budget (some left) backoff).retriesLeft.toNat = min budget.toNat left.toNat - 1) ∧
    ∀ (failures : List (UInt32 × List Span)) (retries : Option UInt32), retries ≠ some 0 →
      (retries.toList ++ (decisionsOn failures retries).map RetryDecision.retriesLeft).Pairwise (· > ·) := by
  refine ⟨fun budget backoff limit => ?_, fun budget left backoff positive => ?_, fun failures retries remains => ?_⟩
  · have spent : SpentBy 0 budget none := .inl ⟨rfl, rfl⟩
    obtain ⟨length, decides⟩ := spent.chain limit
    exact ⟨length, fun i decision found => Nat.zero_add i ▸ decides i decision found⟩
  · exact ⟨nextRetry_attempt positive budget backoff, nextRetry_left positive budget backoff⟩
  · exact decisionsOn_decreasing failures remains

/-- Three attempts with two delays; seven retries on record that a budget of two cuts down; and failures that name four,
then nine, then two attempts. -/
theorem retries_count_down_cut :
    retryChain 3 [.ofMillis 100, .ofMillis 200] 10 none =
      [⟨1, 2, .ofMillis 100⟩, ⟨2, 1, .ofMillis 200⟩, ⟨3, 0, .zero⟩] ∧
    (retryChain 3 [.ofMillis 100, .ofMillis 200] 10 none).length = min 10 (max 1 (3 : UInt32).toNat) ∧
    (nextRetry 2 (some 7) []).retriesLeft.toNat = min (2 : UInt32).toNat (7 : UInt32).toNat - 1 ∧
    decisionsOn [(4, []), (9, []), (2, [])] none =
      [⟨1, 3, .ofMillis 5000⟩, ⟨7, 2, .ofMillis 5000⟩, ⟨1, 1, .ofMillis 5000⟩] ∧
    ((decisionsOn [(4, []), (9, []), (2, [])] none).map RetryDecision.retriesLeft).Pairwise (· > ·) := by
  refine ⟨by decide, (retries_count_down.1 3 _ 10).1, (retries_count_down.2.1 2 7 [] (by decide)).2, by decide, ?_⟩
  exact retries_count_down.2.2 [(4, []), (9, []), (2, [])] none (by decide)

end

end TaskLeasing
