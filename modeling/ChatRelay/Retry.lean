import ChatRelay.Time.Span

/-!
# Retry policies

A failed task runs again after a delay that doubles with every attempt, up to a limit, and varies
by a random factor so that tasks that failed together do not return together. A delay is doubled as
a span of whole nanoseconds, which stops at the longest span; a varied delay is an exact fraction.
-/

namespace ChatRelay

structure RetryPolicy where
  maxAttempts : Nat
  baseMillis : Nat
  maxMillis : Nat
deriving DecidableEq, Repr, Inhabited

namespace RetryPolicy

/-- A single attempt. -/
def none : RetryPolicy := ⟨1, 0, 0⟩

def standard : RetryPolicy := ⟨3, 1000, 30000⟩

def maxDoublings : Nat := 16

/-- What the first delay is multiplied by after a failed attempt; attempts count from one. -/
def factor (attempt : Nat) : UInt32 := 1 <<< UInt32.ofNat (min (attempt - 1) maxDoublings)

/-- The delay after a failed attempt, before it is varied. -/
def capped (p : RetryPolicy) (attempt : Nat) : Span :=
  let raw := (Span.ofMillis p.baseMillis).times (factor attempt)
  ⟨min raw.nanos (Span.ofMillis p.maxMillis).nanos⟩

def cappedMillis (p : RetryPolicy) (attempt : Nat) : Nat := (p.capped attempt).nanos / 1000000

/-- The random factor lies between these two. -/
def leastJitter : Rat := 4 / 5
def greatestJitter : Rat := 6 / 5

/-- The delay after a failed attempt, in nanoseconds; the limit holds for the varied delay too. No
delay is not varied. There is none if the varied delay cannot be told. -/
def backoffNanos? (p : RetryPolicy) (attempt : Nat) (jitter : Rat) : Option Rat :=
  let capped := p.capped attempt
  let limit : Rat := (Span.ofMillis p.maxMillis).nanos
  if capped.nanos = 0 then some 0
  else (capped.scale? jitter).map fun varied => if varied ≤ limit then varied else limit

/-- The delay in milliseconds. Every delay of a policy whose limit is a word of milliseconds can be
told. -/
def backoff (p : RetryPolicy) (attempt : Nat) (jitter : Rat) : Rat :=
  (p.backoffNanos? attempt jitter).getD 0 / 1000000

/-- Whether a run is the last one that the policy allows. -/
def isFinal (p : RetryPolicy) (attempt : Nat) : Bool := p.maxAttempts ≤ attempt

/-! ## The spread of random delays -/

/-- How many of many draws are meant. -/
inductive Share where
  | all
  | some
  | none
deriving DecidableEq, Repr

/-- The least and the greatest delay, in whole microseconds rounded down, that a factor drawn
evenly from its range gives with positive probability. The greatest factor is never met, but every
factor that exceeds the limit gives the limit. -/
def spreadMicros (p : RetryPolicy) (attempt : Nat) : Nat × Nat :=
  let c := p.cappedMillis attempt
  if c = 0 then (0, 0)
  else if 6 * c ≤ 5 * p.maxMillis then (800 * c, 1200 * c - 1)
  else (800 * c, 1000 * p.maxMillis)

/-- How many of the delays lie between two bounds, both included. -/
def shareWithin (p : RetryPolicy) (attempt low high : Nat) : Share :=
  let spread := p.spreadMicros attempt
  if low ≤ spread.1 ∧ spread.2 ≤ high then .all
  else if spread.2 < low ∨ high < spread.1 then .none
  else .some

def isConstant (p : RetryPolicy) (attempt : Nat) : Bool := p.cappedMillis attempt = 0

end RetryPolicy
end ChatRelay
