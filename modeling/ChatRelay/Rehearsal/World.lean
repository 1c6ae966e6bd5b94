import ChatRelay.Rehearsal.Script
import ChatRelay.Relay.Basic
import ChatRelay.Store.Bus
import ChatRelay.Store.Either

/-!
# The world of a rehearsal

Everything that a rehearsal holds between two commands: the relays with what they share, requests
that are executed for their own sake, work that has been started and takes its time, and what has
been observed since the last answer. Time is in milliseconds and moves only when nothing else is
left to do.
-/

namespace ChatRelay.Rehearsal

/-- Who reads the bus: the listener of a relay, or a reader with a name. -/
inductive Reader where
  | listener (member : Nat)
  | named (name : String)
deriving DecidableEq, Repr

structure Member where
  relay : Relay
  /-- Whether there is a listener for notices, even one that has stopped. -/
  listens : Bool := false
  /-- Whether notices are no longer listened to. -/
  stopped : Bool := false
  /-- What is left of the scripts of handlers, by task key. -/
  scripts : Table String (List HandlerStep) := []

/-- A request that is executed for its own sake. -/
structure Direct where
  execution : Execution
  calledOff : Bool := false

/-- A text that goes straight to the outputs of a channel. -/
structure Announcement where
  outputs : List Output
  dispatch : Dispatch
  slots : List (Option Bool)

/-- On whose behalf work is done. -/
inductive Client where
  | direct (i : Nat)
  | batch (member run : Nat)
  | announcement (i : Nat)
deriving DecidableEq, Repr

/-- Work that is started at one time and finished at another. -/
inductive Work where
  | enrich (client : Client) (slot : Nat)
  | ask (client : Client)
  | send (client : Client) (slot : Nat)
  | handle (member firing : Nat)
deriving DecidableEq, Repr

/-- How a piece of work that has been started goes on. -/
inductive Course where
  | enrich
  | ask (call : Nat) (step : EngineStep)
  | send (output : Output) (dispatch : Dispatch)
  | handle (step : HandlerStep)

structure Errand where
  work : Work
  due : Nat
  course : Course

/-! ## Observations -/

structure AskedNote where
  call : Nat
  system : String
  turns : List Turn
  calledOff : Bool
  tools : List ToolDefinition

structure DeliveryNote where
  output : String
  medium : Medium
  dispatch : Dispatch

structure RunNote where
  isStart : Bool
  task : Timer.Task
  attempt : Timer.Attempt

structure Notes where
  asked : List AskedNote := []
  deliveries : List DeliveryNote := []
  handedOver : List Timer.Task := []
  runs : List RunNote := []

/-- Put an item before the first one with a greater key. -/
def insertByKey {α : Type} (key : α → String) (a : α) : List α → List α
  | [] => [a]
  | b :: rest => if key a < key b then a :: b :: rest else b :: insertByKey key a rest

/-- Items by increasing keys; those of one key keep their order. -/
def sortByKey {α : Type} (key : α → String) (items : List α) : List α :=
  items.foldl (fun sorted a => insertByKey key a sorted) []

/-! ## The world -/

structure World where
  now : Nat := 0
  store : AnyStore := .memory {}
  faults : Faults := {}
  /-- How many appends and drains have been tried. -/
  appends : Nat := 0
  drains : Nat := 0
  bus : Bus Reader := []
  setup : Relay.Setup
  members : List Member := []
  engine : List EngineStep := []
  calls : Nat := 0
  directs : List Direct := []
  announcements : List Announcement := []
  errands : List Errand := []
  /-- When direct requests are to be called off. -/
  callOffs : List (Nat × Nat) := []
  /-- The present minute, as enrichers write it. -/
  minute : String
  clock : WallClock
  /-- The time of the first message that is accepted; every later one gets a later time. -/
  firstStamp : Int
  stamps : Nat := 0
  /-- Ids for messages that come without one. -/
  freshId : Nat → String
  freshIds : Nat := 0
  drafts : Table String ChannelDraft := []
  /-- Channels that have been built and may be registered. -/
  built : Table String Channel := []
  /-- Leases that are held by name: relay, user and number. -/
  held : Table String (Nat × String × Nat) := []
  /-- The last lease that was held under each name. -/
  tokens : Table String (Nat × Nat) := []
  notes : Notes := {}

namespace World

def channels (w : World) : ChannelRegistry := w.setup.channels

def member? (w : World) (i : Nat) : Option Member := w.members[i]?

def modifyMember (w : World) (i : Nat) (f : Member → Member) : World :=
  { w with members := w.members.modify i f }

def setRelay (w : World) (i : Nat) (relay : Relay) : World :=
  w.modifyMember i fun m => { m with relay }

def relayEvent (w : World) (i : Nat) (e : Relay.Event) : World :=
  match w.member? i with
  | some m =>
    let (store, relay) := m.relay.step w.setup w.store e
    let handed := relay.handedOver.drop m.relay.handedOver.length
    { w with
      store
      notes := { w.notes with handedOver := w.notes.handedOver ++ handed } }.setRelay i relay
  | none => w

def runEvent (w : World) (i run : Nat) (e : Relay.RunEvent) : World :=
  w.relayEvent i (.run run e)

def surroundings (w : World) : Surroundings where
  minute := w.minute
  recent user limit :=
    match w.faults.onRecent with
    | some cause => .error cause
    | none => Conversations.recent w.store user limit

/-! ## Store operations with their faults -/

/-- Try an append: the fault it meets, and the world in which it has been counted. -/
def tryAppend (w : World) : Option StoreError × World :=
  (w.faults.onAppend w.appends, { w with appends := w.appends + 1 })

def tryDrain (w : World) : Option StoreError × World :=
  (w.faults.onDrain w.drains, { w with drains := w.drains + 1 })

def tryAccess (w : World) (phase : BatchRun.Phase) : Option StoreError × World :=
  match phase with
  | .draining => w.tryDrain
  | .checking _ => (w.faults.onSeen, w)
  | .executing _ _ _ => (w.faults.onAdd, w)
  | .marking _ => (w.faults.onMark, w)
  | .requeuing _ _ | .restoring _ _ _ => w.tryAppend
  | _ => (none, w)

/-! ## Clients -/

def batch? (w : World) (i run : Nat) : Option BatchRun :=
  (w.member? i).bind fun m => m.relay.runs[run]?

def execution? (w : World) : Client → Option Execution
  | .direct i => (w.directs[i]?).map (·.execution)
  | .batch i run => (w.batch? i run).bind (·.execution?)
  | .announcement _ => none

def isCalledOff (w : World) : Client → Bool
  | .direct i => (w.directs[i]?).any (·.calledOff)
  | .batch i run =>
    match w.member? i with
    | some m => (m.relay.runs[run]?).any m.relay.isCalledOff
    | none => false
  | .announcement _ => false

def modifyDirect (w : World) (i : Nat) (f : Direct → Direct) : World :=
  { w with directs := w.directs.modify i f }

/-- Call the request of a client off. The lease of a run stays where it is. -/
def callOff (w : World) : Client → World
  | .direct i => w.modifyDirect i fun d => { d with calledOff := true }
  | .batch i run =>
    match w.member? i, (w.batch? i run).bind (·.lease?) with
    | some m, some lease => w.setRelay i { m.relay with leases := m.relay.leases.trip lease }
    | _, _ => w
  | .announcement _ => w

/-- The places of the slots that are empty. -/
def openSlots {α : Type} (slots : List (Option α)) : List Nat :=
  (List.range slots.length).filter fun i => (slots[i]?).any (·.isNone)

/-- What an execution waits for. -/
def executionWork (client : Client) : Execution → List Work
  | .enriching _ _ slots => (openSlots slots).map (.enrich client)
  | .generating _ _ _ => [.ask client]
  | .delivering _ _ slots => (openSlots slots).map (.send client)
  | .keeping _ _ _ | .finished _ => []

def batchWork (client : Client) (run : BatchRun) : List Work :=
  match run.phase with
  | .executing _ _ execution => executionWork client execution
  | .notifying slots _ => (openSlots slots).map (.send client)
  | _ => []

/-- The firings of a relay whose scripted handlers are at work. -/
def handlerWork (i : Nat) (m : Member) : List Work :=
  (List.range m.relay.queue.firings.length).filterMap fun g =>
    match m.relay.queue.phase? g with
    | some (.running _) => if m.relay.isBatch g then none else some (.handle i g)
    | _ => none

def memberWork (i : Nat) (m : Member) : List Work :=
  (m.relay.runs.zipIdx.flatMap fun (run, j) => batchWork (.batch i j) run) ++ handlerWork i m

def work (w : World) : List Work :=
  (w.directs.zipIdx.flatMap fun (d, i) => executionWork (.direct i) d.execution) ++
  (w.announcements.zipIdx.flatMap fun (a, i) =>
    (openSlots a.slots).map (.send (.announcement i))) ++
  (w.members.zipIdx.flatMap fun (m, i) => memberWork i m)

end World
end ChatRelay.Rehearsal
