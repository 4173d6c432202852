import TaskLeasing.Time.Span

namespace TaskLeasing

/-- What follows a failed attempt: its number, the retries that remain and how long to wait before
the next. -/
structure RetryDecision where
  attempt : UInt32
  retriesLeft : UInt32
  delay : Span
deriving DecidableEq

def RetryDecision.willRetry (decision : RetryDecision) : Bool := 0 < decision.retriesLeft

/-- What one number leaves of another, nothing if it is greater. -/
def wordMinus (a b : UInt32) : UInt32 := if a ≤ b then 0 else a - b

/-- The next number; the greatest one is its own. -/
def wordSucc (a : UInt32) : UInt32 := if a = 0xFFFFFFFF then a else a + 1

/-- The wait used where no sequence of delays is given. -/
def defaultRetryDelay : Span := .ofMillis 5000

/-- The delay at an attempt's place in a sequence, counted from one; the last delay serves all
attempts beyond it. -/
def delayForAttempt (attempt : UInt32) (backoff : List Span) : Span :=
  backoff.getD (min (max attempt.toNat 1) backoff.length - 1) defaultRetryDelay

/-- The decision on a failed attempt. Without a recorded number of retries the attempt was the first;
otherwise it is read off the budget. -/
def nextRetry (maxAttempts : UInt32) (retries : Option UInt32) (backoff : List Span) : RetryDecision :=
  let attempt := match retries with
    | none => 1
    | some left => wordSucc (wordMinus maxAttempts left)
  let left := wordMinus maxAttempts attempt
  ⟨attempt, left, if left = 0 then .zero else delayForAttempt attempt backoff⟩

/-- The decisions of attempts that fail one after another, each counting on from the retries the one
before it left, until one grants no more or the limit is reached. -/
def retryChain (maxAttempts : UInt32) (backoff : List Span) :
    (limit : Nat) → Option UInt32 → List RetryDecision
  | 0, _ => []
  | limit + 1, retries =>
    let decision := nextRetry maxAttempts retries backoff
    decision :: if decision.willRetry then retryChain maxAttempts backoff limit (some decision.retriesLeft)
      else []

end TaskLeasing
