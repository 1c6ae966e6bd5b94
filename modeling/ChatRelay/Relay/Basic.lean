import ChatRelay.Batch.Run
import ChatRelay.Leases
import ChatRelay.Timer.Queue

/-!
# The relay

A relay accepts messages, lets them gather for a while, and answers those of a user together. It
owns a timer queue and the leases of its runs; the store may be shared with other relays. What
callers, firings, runs, engines, outputs and notices do are events, in any order that comes about:
`Relay.step` says what each event changes. An event for which the time has not come changes nothing.

Deposits and runs are named by their places in the lists of all of them, which keep those that are
finished.
-/

namespace ChatRelay

/-- What becomes of the tasks that a relay schedules. -/
inductive Scheduler where
  /-- The relay's own timer queue takes them. -/
  | timers
  /-- They are handed to somebody else. -/
  | handedOver
  /-- They are refused. -/
  | refused
deriving DecidableEq, Repr, Inhabited

structure Relay.Setup where
  channels : ChannelRegistry := []
  /-- The channel that answers batches. -/
  primary : String := "assistant"
  /-- What the user is told when a batch is given up. -/
  fallback : String
  debounceMillis : Nat
  scheduler : Scheduler := .timers

structure Relay where
  queue : Timer.Queue
  leases : Leases := {}
  deposits : List Deposit := []
  runs : List BatchRun := []
  /-- The tasks that were handed to somebody else. -/
  handedOver : List Timer.Task := []
  /-- Whether combine tasks are handled by runs of batches. -/
  combines : Bool := true

namespace Relay

/-- What may happen in a run of a batch. -/
inductive RunEvent where
  /-- The next access to the store succeeds, or meets a failure. -/
  | access (fault : Option StoreError)
  /-- A lease is taken and the execution begins. -/
  | lease
  | enriched (slot : Nat) (outcome : EnricherOutcome)
  | compose
  | generated (outcome : Except EngineError Provider.Reply)
  | delivered (slot : Nat) (success : Bool)
  /-- The lease is given back after the execution. -/
  | release
  /-- The task of a batch that was called off is armed again. -/
  | arm
  | notified (slot : Nat) (success : Bool)

inductive Event where
  /-- A message is accepted from a user. -/
  | enqueue (ticket : Ticket) (text sourceId : String) (enqueuedAt : Int)
  /-- Messages are put back on behalf of somebody else. -/
  | requeue (ticket : Ticket) (messages : List Pending)
  /-- A deposit puts its next message into the list. -/
  | push (deposit : Nat) (fault : Option StoreError)
  /-- A deposit arms the task. -/
  | arm (deposit : Nat)
  /-- A notice arrives that a user has written again. -/
  | notice (user : String)
  /-- Something happens in the timer queue. -/
  | timer (e : Timer.Queue.Event)
  /-- The handler of a task is run at once, for somebody other than the timer queue. -/
  | handle (payload : Json) (attempt : Timer.Attempt)
  | run (run : Nat) (e : RunEvent)
  /-- A finished run returns to the firing that it belongs to. -/
  | return (run : Nat)
  /-- Every live lease is cancelled. -/
  | cancelAll

def schedule (setup : Setup) (relay : Relay) (task : Timer.Task) :
    Relay × Except TaskError Unit :=
  match setup.scheduler with
  | .timers =>
    let (queue, outcome) := relay.queue.schedule task
    ({ relay with queue }, outcome)
  | .handedOver => ({ relay with handedOver := relay.handedOver ++ [task] }, .ok ())
  | .refused => (relay, .error .shutdown)

def modifyRun (relay : Relay) (i : Nat) (f : BatchRun → BatchRun) : Relay :=
  { relay with runs := relay.runs.modify i f }

def isCalledOff (relay : Relay) (run : BatchRun) : Bool :=
  match run.lease? with
  | some lease => relay.leases.isCancelled lease
  | none => false

def armDeposit (setup : Setup) (relay : Relay) (i : Nat) : Relay :=
  match relay.deposits[i]? with
  | some d =>
    if d.phase = .arming then
      let (relay, outcome) := relay.schedule setup (d.ticket.task setup.debounceMillis)
      { relay with deposits := relay.deposits.modify i (·.armed outcome) }
    else relay
  | none => relay

/-- Arm the task of a run whose batch is back in the list. -/
def armRun (setup : Setup) (relay : Relay) (i : Nat) : Relay :=
  match relay.runs[i]? with
  | some run =>
    match run.phase with
    | .requeuing _ deposit =>
      if deposit.phase = .arming then
        let (relay, outcome) := relay.schedule setup (run.ticket.task setup.debounceMillis)
        relay.modifyRun i (·.armed outcome)
      else relay
    | _ => relay
  | none => relay

/-- Take a lease for a run that has its batch. -/
def leaseRun (setup : Setup) (relay : Relay) (i : Nat) : Relay :=
  match relay.runs[i]? with
  | some run =>
    match run.phase with
    | .leasing _ =>
      let (leases, lease) := relay.leases.register run.ticket.user
      { relay with leases }.modifyRun i (·.leased setup.channels setup.primary lease)
    | _ => relay
  | none => relay

/-- Give the lease of a run back whose execution is finished. -/
def releaseRun (setup : Setup) (relay : Relay) (i : Nat) : Relay :=
  match relay.runs[i]? with
  | some run =>
    match run.phase with
    | .executing _ lease (.finished _) =>
      { relay with leases := relay.leases.release run.ticket.user lease }.modifyRun i
        (·.concluded (BatchRun.noticeOutputs setup.channels setup.primary))
    | _ => relay
  | none => relay

def returnRun (relay : Relay) (i : Nat) : Relay :=
  match relay.runs[i]? with
  | some run =>
    match run.firing, run.result? with
    | some g, some result => { relay with queue := relay.queue.finish g result }
    | _, _ => relay
  | none => relay

/-- The firing of a combine task has got its lock, and its handler starts. -/
def startRun (relay : Relay) (g : Nat) : Relay :=
  match relay.queue.firing? g with
  | some f =>
    if f.task.key = Ticket.taskKey ∧ relay.combines then
      { relay with
        runs := relay.runs ++ [.ofPayload f.task.payload (relay.queue.attempt f) (some g)] }
    else relay
  | none => relay

/-- Whether a firing is at work on a batch. -/
def isBatch (relay : Relay) (g : Nat) : Bool := relay.runs.any (·.firing = some g)

/-- Something happens in the timer queue. A run starts with its handler, and only the run itself
says when the handler is through. -/
def timerStep (relay : Relay) (e : Timer.Queue.Event) : Relay :=
  let next := { relay with queue := relay.queue.step e }
  match e with
  | .acquire g =>
    if (relay.queue.phase? g).any (·.isRunning) then relay
    else if (next.queue.phase? g).any (·.isRunning) then next.startRun g
    else next
  | .finish g _ => if relay.isBatch g then relay else next
  | _ => next

variable {σ : Type} [Store σ]

def runStep (setup : Setup) (s : σ) (relay : Relay) (i : Nat) : RunEvent → σ × Relay
  | .access fault =>
    match relay.runs[i]? with
    | some run =>
      let outputs := BatchRun.noticeOutputs setup.channels setup.primary
      let (s, run) := run.access outputs fault s
      (s, { relay with runs := relay.runs.set i run })
    | none => (s, relay)
  | .lease => (s, relay.leaseRun setup i)
  | .enriched slot outcome => (s, relay.modifyRun i (·.mapExecution (·.enriched slot outcome)))
  | .compose =>
    (s, relay.modifyRun i fun run => run.mapExecution (·.compose (relay.isCalledOff run)))
  | .generated outcome =>
    (s, relay.modifyRun i fun run =>
      run.mapExecution (·.generated (relay.isCalledOff run) outcome))
  | .delivered slot success => (s, relay.modifyRun i (·.mapExecution (·.delivered slot success)))
  | .release => (s, relay.releaseRun setup i)
  | .arm => (s, relay.armRun setup i)
  | .notified slot success => (s, relay.modifyRun i (·.notified slot success))

def step (setup : Setup) (s : σ) (relay : Relay) : Event → σ × Relay
  | .enqueue ticket text sourceId enqueuedAt =>
    (s, { relay with
      deposits := relay.deposits ++
        [.start ticket [{ text, sourceId, enqueuedAt, label := ticket.label }]] })
  | .requeue ticket messages =>
    (s, { relay with deposits := relay.deposits ++ [.start ticket messages] })
  | .push i fault =>
    match relay.deposits[i]? with
    | some d =>
      let (s, d) := d.push fault s
      (s, { relay with deposits := relay.deposits.set i d })
    | none => (s, relay)
  | .arm i => (s, relay.armDeposit setup i)
  | .notice user => (s, { relay with leases := (relay.leases.cancel user).1 })
  | .timer e => (s, relay.timerStep e)
  | .handle payload attempt =>
    (s, { relay with runs := relay.runs ++ [.ofPayload payload attempt none] })
  | .run i e => relay.runStep setup s i e
  | .return i => (s, relay.returnRun i)
  | .cancelAll => (s, { relay with leases := relay.leases.cancelAll })

def fresh (policy : RetryPolicy) : Relay :=
  { queue := { policy, handlers := [Ticket.taskKey] } }

end Relay
end ChatRelay
