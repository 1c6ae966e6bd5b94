import ChatRelay.Error
import ChatRelay.Retry
import ChatRelay.Table
import ChatRelay.Timer.Task

/-!
# The timer queue

A scheduled task becomes a firing, which sleeps until it is due, claims its timer, waits for the
lock of its dedup id, runs its handler under the lock, and afterwards clears up and may arm a retry.
The table of timers holds, for every dedup id that is pending, the generation of the firing that may
claim it; arming an id again replaces the entry. The table of locks holds a lock for every dedup id
that is at work; a firing removes it when no other holds a handle of it. Every step of a firing is
an event of its own, so that firings may take their steps in any order.

The generation of a firing is its place in the list of all firings, which keeps those that are over.
Times are in milliseconds.
-/

namespace ChatRelay.Timer

/-- How a firing came to its end. -/
inductive Ending where
  /-- A later timer took its place while it slept, or the queue was shut down. -/
  | replaced
  /-- Its timer was no longer its own when it woke up. -/
  | overtaken
  /-- There is no handler for the key of its task. -/
  | unhandled
  /-- The handler ran; the retry that it was given, if any, is named by its generation. -/
  | ran (outcome : Except RelayError Unit) (retry : Option Nat)
deriving DecidableEq, Repr

inductive Phase where
  | sleeping
  /-- It has woken up, and has not claimed its timer yet. -/
  | awake
  /-- The timer is claimed, and the lock not yet looked up. -/
  | claimed
  /-- It holds a handle of the lock and waits for the lock itself. -/
  | waiting (lock : Nat)
  /-- It has the lock, and its handler runs. -/
  | running (lock : Nat)
  /-- The handler is through, and the lock still held. -/
  | ended (lock : Nat) (outcome : Except RelayError Unit)
  /-- The lock is released, and its table not yet tidied. -/
  | unlocked (lock : Nat) (outcome : Except RelayError Unit)
  /-- The table is tidied, and the handle of the lock still held. -/
  | tidied (lock : Nat) (outcome : Except RelayError Unit)
  /-- What remains is to see whether the task is tried again. -/
  | settling (outcome : Except RelayError Unit)
  | over (ending : Ending)
deriving DecidableEq, Repr

/-- The lock whose handle a firing in this phase holds. -/
def Phase.handle? : Phase → Option Nat
  | .waiting lock | .running lock | .ended lock _ | .unlocked lock _ | .tidied lock _ => some lock
  | _ => none

/-- The lock that a firing in this phase has taken. -/
def Phase.lock? : Phase → Option Nat
  | .running lock | .ended lock _ => some lock
  | _ => none

/-- Whether the handler is at work. -/
def Phase.isRunning : Phase → Bool
  | .running _ => true
  | _ => false

/-- Whether the timer may still be claimed. -/
def Phase.isUnclaimed : Phase → Bool
  | .sleeping | .awake => true
  | _ => false

structure Firing where
  task : Task
  /-- Which attempt at the task it is, from one. -/
  attempt : Nat
  /-- The generation of the schedule that it goes back to through retries. -/
  origin : Nat
  due : Nat
  phase : Phase := .sleeping
deriving DecidableEq, Repr

structure Queue where
  policy : RetryPolicy
  /-- The keys for which there is a handler. -/
  handlers : List String := []
  closed : Bool := false
  now : Nat := 0
  firings : List Firing := []
  /-- Pending timers: the generation that may claim each dedup id. -/
  timers : Table String Nat := []
  locks : Table String Nat := []
  nextLock : Nat := 0
deriving DecidableEq, Repr

namespace Queue

def firing? (q : Queue) (g : Nat) : Option Firing := q.firings[g]?

def phase? (q : Queue) (g : Nat) : Option Phase := (q.firing? g).map (·.phase)

def setPhase (q : Queue) (g : Nat) (phase : Phase) : Queue :=
  { q with firings := q.firings.modify g fun f => { f with phase } }

def isPending (q : Queue) (dedupId : String) : Bool := Table.has q.timers dedupId

/-- What the handler of a firing is told. -/
def attempt (q : Queue) (f : Firing) : Attempt :=
  ⟨f.task.dedupId, f.attempt, q.policy.maxAttempts⟩

/-! ## Arming -/

/-- A sleeping firing is called off at once; one that is awake will find its timer taken. -/
def callOff (f : Firing) : Firing :=
  match f.phase with
  | .sleeping => { f with phase := .over .replaced }
  | _ => f

/-- Call off the pending firing of a dedup id, if there is one. -/
def displace (q : Queue) (dedupId : String) : Queue :=
  match Table.get? q.timers dedupId with
  | some g => { q with firings := q.firings.modify g callOff }
  | none => q

/-- Arm a timer in the place of the one that is pending; an attempt that is not the first goes back
to an earlier schedule. -/
def arm (q : Queue) (task : Task) (delayMillis attempt : Nat) (origin : Option Nat) : Queue :=
  let g := q.firings.length
  let q := q.displace task.dedupId
  { q with
    firings := q.firings ++ [{ task, attempt, origin := origin.getD g, due := q.now + delayMillis }]
    timers := Table.put q.timers task.dedupId g }

/-- Accept a task, unless the queue is shut down or nothing handles its key. -/
def schedule (q : Queue) (task : Task) : Queue × Except TaskError Unit :=
  if q.closed then (q, .error .shutdown)
  else if task.key ∉ q.handlers then (q, .error (.noHandler task.key))
  else (q.arm task task.delayMillis 1 none, .ok ())

/-! ## The steps of a firing -/

/-- Wake up when due. -/
def wake (q : Queue) (g : Nat) : Queue :=
  match q.firing? g with
  | some f => if f.phase = .sleeping ∧ f.due ≤ q.now then q.setPhase g .awake else q
  | none => q

/-- Claim the timer, if it is still one's own, and look for the handler. -/
def claim (q : Queue) (g : Nat) : Queue :=
  match q.firing? g with
  | some f =>
    if f.phase ≠ .awake then q
    else if Table.get? q.timers f.task.dedupId ≠ some g then q.setPhase g (.over .overtaken)
    else
      let q := { q with timers := Table.remove q.timers f.task.dedupId }
      if f.task.key ∈ q.handlers then q.setPhase g .claimed else q.setPhase g (.over .unhandled)
  | none => q

/-- Take a handle of the lock of the dedup id, making the lock if there is none. -/
def takeHandle (q : Queue) (g : Nat) : Queue :=
  match q.firing? g with
  | some f =>
    if f.phase ≠ .claimed then q
    else
      match Table.get? q.locks f.task.dedupId with
      | some lock => q.setPhase g (.waiting lock)
      | none =>
        { q with
          locks := Table.put q.locks f.task.dedupId q.nextLock
          nextLock := q.nextLock + 1 }.setPhase g (.waiting q.nextLock)
  | none => q

def isLocked (q : Queue) (lock : Nat) : Bool := q.firings.any fun f => f.phase.lock? = some lock

/-- Take the lock when it is free; the handler starts. -/
def acquire (q : Queue) (g : Nat) : Queue :=
  match q.phase? g with
  | some (.waiting lock) => if q.isLocked lock then q else q.setPhase g (.running lock)
  | _ => q

/-- The handler is through. -/
def finish (q : Queue) (g : Nat) (outcome : Except RelayError Unit) : Queue :=
  match q.phase? g with
  | some (.running lock) => q.setPhase g (.ended lock outcome)
  | _ => q

def unlock (q : Queue) (g : Nat) : Queue :=
  match q.phase? g with
  | some (.ended lock outcome) => q.setPhase g (.unlocked lock outcome)
  | _ => q

/-- How many handles of a lock there are: those of firings and that of the table. -/
def handles (q : Queue) (lock : Nat) : Nat :=
  q.firings.countP (fun f => f.phase.handle? = some lock) + q.locks.countP (·.2 = lock)

/-- Remove the lock from the table if the only other handle of it is one's own. -/
def tidy (q : Queue) (g : Nat) : Queue :=
  match q.firing? g with
  | some f =>
    match f.phase with
    | .unlocked lock outcome =>
      let q := q.setPhase g (.tidied lock outcome)
      if Table.get? q.locks f.task.dedupId = some lock ∧ q.handles lock = 2 then
        { q with locks := Table.remove q.locks f.task.dedupId }
      else q
    | _ => q
  | none => q

def dropHandle (q : Queue) (g : Nat) : Queue :=
  match q.phase? g with
  | some (.tidied _ outcome) => q.setPhase g (.settling outcome)
  | _ => q

/-- Whether a failed run is to be tried again. -/
def wantsRetry (q : Queue) (f : Firing) : Except RelayError Unit → Bool
  | .ok () => false
  | .error cause => cause.isRetryable && !(q.attempt f).isFinal && !q.closed

/-- The delay before a retry, in whole milliseconds rounded up. -/
def retryMillis (q : Queue) (attempt : Nat) (jitter : Rat) : Nat :=
  (q.policy.backoff attempt jitter).ceil.toNat

/-- Arm a retry if the run failed and may be tried again, unless a newer timer is pending. -/
def settle (q : Queue) (g : Nat) (jitter : Rat) : Queue :=
  match q.firing? g with
  | some f =>
    match f.phase with
    | .settling outcome =>
      if q.wantsRetry f outcome && !q.isPending f.task.dedupId then
        (q.setPhase g (.over (.ran outcome (some q.firings.length)))).arm f.task
          (q.retryMillis f.attempt jitter) (f.attempt + 1) (some f.origin)
      else q.setPhase g (.over (.ran outcome none))
    | _ => q
  | none => q

/-! ## The queue as a whole -/

/-- Refuse tasks from now on, and call off every pending timer. -/
def shutdown (q : Queue) : Queue :=
  { q with closed := true, firings := q.firings.map callOff, timers := [] }

/-- Let time go by. -/
def wait (q : Queue) (millis : Nat) : Queue := { q with now := q.now + millis }

/-- Have a handler for a key. -/
def handle (q : Queue) (key : String) : Queue :=
  if key ∈ q.handlers then q else { q with handlers := q.handlers ++ [key] }

inductive Event where
  | schedule (task : Task)
  | wait (millis : Nat)
  | wake (g : Nat)
  | claim (g : Nat)
  | takeHandle (g : Nat)
  | acquire (g : Nat)
  | finish (g : Nat) (outcome : Except RelayError Unit)
  | unlock (g : Nat)
  | tidy (g : Nat)
  | dropHandle (g : Nat)
  | settle (g : Nat) (jitter : Rat)
  | shutdown
deriving DecidableEq, Repr

/-- One event; a firing that is not at the step in question stays as it is. -/
def step (q : Queue) : Event → Queue
  | .schedule task => (q.schedule task).1
  | .wait millis => q.wait millis
  | .wake g => q.wake g
  | .claim g => q.claim g
  | .takeHandle g => q.takeHandle g
  | .acquire g => q.acquire g
  | .finish g outcome => q.finish g outcome
  | .unlock g => q.unlock g
  | .tidy g => q.tidy g
  | .dropHandle g => q.dropHandle g
  | .settle g jitter => q.settle g jitter
  | .shutdown => q.shutdown

/-- The firings of a dedup id whose handlers are at work. -/
def running (q : Queue) (dedupId : String) : Nat :=
  q.firings.countP fun f => f.task.dedupId = dedupId && f.phase.isRunning

end Queue
end ChatRelay.Timer
