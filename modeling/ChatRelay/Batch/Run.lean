import ChatRelay.Batch.Deposit
import ChatRelay.Batch.Merge
import ChatRelay.Channel.Execution

/-!
# Runs of the combine task

A run takes the messages that wait for a user, leaves out those that have been answered, and passes
the merged batch through the primary channel under a lease.

* A batch that newer input called off goes back into the list and the task is armed again.
* A batch that failed goes back into the list, and the failure is reported so that the task is tried
  again. At the last attempt, for failures that trying again does not mend, and if the batch cannot
  be put back, the user gets the fallback notice instead.
* The source ids of an answered batch are marked.

Each step is given the failure of the store that it meets, if it meets one.
-/

namespace ChatRelay

/-- How a run ended, and with which messages. -/
inductive BatchRun.Ending where
  /-- The payload of the task is not a ticket. -/
  | unreadable (fault : Json.Fault)
  /-- The list could not be read. -/
  | unavailable (cause : StoreError)
  /-- Nothing waited. -/
  | idle
  /-- Only answered messages waited. -/
  | stale (drained : List Pending)
  | answered (batch : List Pending)
  /-- Newer input called the batch off; `requeued` is what came of putting it back. -/
  | superseded (batch : List Pending) (requeued : Except RelayError Unit)
  /-- The batch is back in the list, to be tried again. -/
  | restored (batch : List Pending) (cause : PipelineError)
  /-- The user got the fallback notice. -/
  | dismissed (batch : List Pending) (cause : PipelineError)
  /-- The batch could not be put back, and the user got the fallback notice. -/
  | abandoned (batch : List Pending) (cause : StoreError)
deriving DecidableEq, Repr

def BatchRun.Ending.result (dedupId : String) : BatchRun.Ending → Except RelayError Unit
  | .unreadable fault => .error (.task (.invalidPayload dedupId fault.message))
  | .unavailable cause => .error (.store cause)
  | .idle | .stale _ | .answered _ | .superseded _ _ => .ok ()
  | .restored _ cause | .dismissed _ cause => .error (.pipeline cause)
  | .abandoned _ cause =>
    .error (.task (.abandoned dedupId ("batch could not be restored: " ++ cause.message)))

inductive BatchRun.Phase where
  | draining
  /-- The answered ones among the drained messages are to be found. -/
  | checking (drained : List Pending)
  | leasing (batch : List Pending)
  | executing (batch : List Pending) (lease : Nat) (execution : Execution)
  | marking (batch : List Pending)
  | requeuing (batch : List Pending) (deposit : Deposit)
  | restoring (batch left : List Pending) (cause : PipelineError)
  /-- The fallback notice is on its way to the outputs. -/
  | notifying (slots : List (Option Bool)) (ending : BatchRun.Ending)
  | finished (ending : BatchRun.Ending)

structure BatchRun where
  /-- The firing whose handler the run is, if it is one. -/
  firing : Option Nat
  attempt : Timer.Attempt
  ticket : Ticket
  /-- The messages that were taken and left out, as repeats or because they had been answered. -/
  leftOut : List Pending := []
  phase : BatchRun.Phase

namespace BatchRun

def ofPayload (payload : Json) (attempt : Timer.Attempt) (firing : Option Nat) : BatchRun :=
  match Ticket.ofPayload payload with
  | .ok ticket => { firing, attempt, ticket, phase := .draining }
  | .error fault => { firing, attempt, ticket := default, phase := .finished (.unreadable fault) }

/-- The outputs that get the fallback notice: those of the primary channel, if there is one. -/
def noticeOutputs (channels : ChannelRegistry) (primary : String) : List Output :=
  match channels.find? primary with
  | some channel => channel.outputs
  | none => []

def notice (r : BatchRun) (primary text : String) : Dispatch where
  text := text
  user := r.ticket.user
  channel := primary
  chat := r.ticket.chat
  incoming := ""

/-- Wait for the outputs before the run ends. -/
def Phase.ofNotice (slots : List (Option Bool)) (ending : Ending) : Phase :=
  match filled? slots with
  | some _ => .finished ending
  | none => .notifying slots ending

/-- Send the fallback notice to outputs before the run ends. -/
def Phase.notify (outputs : List Output) (ending : Ending) : Phase :=
  .ofNotice (Execution.emptySlots outputs) ending

/-- The batch of the messages that have not been answered, if there are any. -/
def ofFresh (r : BatchRun) (answered drained fresh : List Pending) : BatchRun :=
  { r with
    leftOut := answered ++ Batch.repeats [] fresh
    phase := match Batch.normalize fresh with
      | [] => .finished (.stale drained)
      | batch => .leasing batch }

def ofDrained (r : BatchRun) (drained : List Pending) : BatchRun :=
  if drained.isEmpty then { r with phase := .finished .idle }
  else if (Batch.sourceIds drained).isEmpty then r.ofFresh [] drained drained
  else { r with phase := .checking drained }

def request (r : BatchRun) (batch : List Pending) : Request where
  message := Batch.merge batch
  user := r.ticket.user
  chat := r.ticket.chat

/-- Whether a failed batch is put back for another attempt. -/
def putsBack (r : BatchRun) (cause : PipelineError) : Bool :=
  !r.attempt.isFinal && cause.isRetryable

def Phase.concluded (r : BatchRun) (outputs : List Output) (batch : List Pending) :
    Except PipelineError Completion → Phase
  | .ok _ => if (Batch.sourceIds batch).isEmpty then .finished (.answered batch) else .marking batch
  | .error .cancelled => .requeuing batch (.start r.ticket batch)
  | .error cause =>
    if r.putsBack cause then .restoring batch batch cause
    else .notify outputs (.dismissed batch cause)

def Phase.restored (batch : List Pending) (cause : PipelineError) : List Pending → Phase
  | [] => .finished (.restored batch cause)
  | left => .restoring batch left cause

/-- The next access to the store. The outputs are those of the primary channel. -/
def access {σ : Type} [Store σ] (outputs : List Output) (fault : Option StoreError) (s : σ)
    (r : BatchRun) : σ × BatchRun :=
  let user := r.ticket.user
  match r.phase, fault with
  | .draining, none =>
    let (drained, s) := Pending.takeAll s user
    (s, r.ofDrained drained)
  | .draining, some cause =>
    let ending := .unavailable cause
    (s, { r with
      phase := if r.attempt.isFinal then .notify outputs ending else .finished ending })
  | .checking drained, none =>
    let answered := AnsweredIds.seen s user (Batch.sourceIds drained)
    (s, r.ofFresh (Batch.onlyAnswered answered drained) drained
      (Batch.dropAnswered answered drained))
  | .checking drained, some _ => (s, r.ofFresh [] drained drained)
  | .executing batch lease execution, fault =>
    let (s, execution) := execution.keep fault s
    (s, { r with phase := .executing batch lease execution })
  | .marking batch, none =>
    (AnsweredIds.mark s user (Batch.sourceIds batch),
      { r with phase := .finished (.answered batch) })
  | .marking batch, some _ => (s, { r with phase := .finished (.answered batch) })
  | .requeuing batch deposit, fault =>
    let (s, deposit) := deposit.push fault s
    (s, { r with
      phase := match deposit.result? with
        | some result => .finished (.superseded batch result)
        | none => .requeuing batch deposit })
  | .restoring batch (m :: left) cause, none =>
    (Pending.push s user m, { r with phase := .restored batch cause left })
  | .restoring batch (_ :: _) _, some cause =>
    (s, { r with phase := .notify outputs (.abandoned batch cause) })
  | .restoring _ [] _, _ | .leasing _, _ | .notifying _ _, _ | .finished _, _ => (s, r)

def leased (channels : ChannelRegistry) (primary : String) (lease : Nat) (r : BatchRun) :
    BatchRun :=
  match r.phase with
  | .leasing batch =>
    { r with
      phase := .executing batch lease
        (.begin channels primary (r.request batch) none false) }
  | _ => r

def mapExecution (f : Execution → Execution) (r : BatchRun) : BatchRun :=
  match r.phase with
  | .executing batch lease execution => { r with phase := .executing batch lease (f execution) }
  | _ => r

/-- The execution is finished and the lease given back. -/
def concluded (outputs : List Output) (r : BatchRun) : BatchRun :=
  match r.phase with
  | .executing batch _ (.finished result) => { r with phase := .concluded r outputs batch result }
  | _ => r

def armed (outcome : Except TaskError Unit) (r : BatchRun) : BatchRun :=
  match r.phase with
  | .requeuing batch deposit =>
    { r with
      phase := match (deposit.armed outcome).result? with
        | some result => .finished (.superseded batch result)
        | none => .requeuing batch deposit }
  | _ => r

def notified (slot : Nat) (success : Bool) (r : BatchRun) : BatchRun :=
  match r.phase with
  | .notifying slots ending => { r with phase := .ofNotice (fillSlot slots slot success) ending }
  | _ => r

def lease? (r : BatchRun) : Option Nat :=
  match r.phase with
  | .executing _ lease _ => some lease
  | _ => none

def execution? (r : BatchRun) : Option Execution :=
  match r.phase with
  | .executing _ _ execution => some execution
  | _ => none

def result? (r : BatchRun) : Option (Except RelayError Unit) :=
  match r.phase with
  | .finished ending => some (ending.result r.attempt.dedupId)
  | _ => none

end BatchRun
end ChatRelay
