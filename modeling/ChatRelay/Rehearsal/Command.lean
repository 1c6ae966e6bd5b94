import ChatRelay.Rehearsal.Progress
import ChatRelay.Settings
import ChatRelay.Transport.Ingest

/-!
# Commands

What a rehearsal can be told to do: use the store and the bus, take leases, put channels together,
execute requests, hand messages to a relay, schedule tasks and let time go by. A command says what
came of it and leaves the world as it then is; work that can be done at once is done by
`World.settle` afterwards.
-/

namespace ChatRelay.Rehearsal.World

/-! ## The store -/

def append (w : World) (key value : String) : Except StoreError Unit × World :=
  match w.tryAppend with
  | (some cause, w) => (.error cause, w)
  | (none, w) => (.ok (), { w with store := KeyedLists.append w.store key value })

def drain (w : World) (key : String) : Except StoreError (List String) × World :=
  match w.tryDrain with
  | (some cause, w) => (.error cause, w)
  | (none, w) =>
    let (texts, store) := KeyedLists.drain w.store key
    (.ok texts, { w with store })

def count (w : World) (key : String) : Nat := KeyedLists.count w.store key

def addTurns (w : World) (user : String) (turns : List Turn) : Except StoreError Unit × World :=
  match w.faults.onAdd with
  | some cause => (.error cause, w)
  | none => (.ok (), { w with store := Conversations.addTurns w.store user turns })

def recent (w : World) (user : String) (limit : Nat) : Except StoreError (List Turn) :=
  w.surroundings.recent user limit

def history (w : World) (user : String) (limit : Nat) : Except PipelineError Enrichment :=
  Enricher.recollect limit w.surroundings.recent user

def mark (w : World) (user : String) (ids : List String) : Except StoreError Unit × World :=
  match w.faults.onMark with
  | some cause => (.error cause, w)
  | none => (.ok (), { w with store := AnsweredIds.mark w.store user ids })

/-- The ids that have been marked, in order and each once. -/
def seen (w : World) (user : String) (ids : List String) : Except StoreError (List String) :=
  match w.faults.onSeen with
  | some cause => .error cause
  | none => .ok (sortByKey id (AnsweredIds.seen w.store user ids).eraseDups)

/-- Put a text into the database in the place of a turn. -/
def corrupt (w : World) (user payload : String) : World :=
  match w.store with
  | .database d => { w with store := .database (d.addPayload user payload) }
  | .memory _ => w

/-! ## The pending list -/

def push (w : World) (user : String) (m : Pending) : Except StoreError Unit × World :=
  w.append (Pending.listKey user) m.encode

/-- Put messages into the list up to the first failure. -/
def restore (w : World) (user : String) : List Pending → Except StoreError Unit × World
  | [] => (.ok (), w)
  | m :: rest =>
    match w.push user m with
    | (.ok (), w) => restore w user rest
    | refused => refused

def take (w : World) (user : String) : Except StoreError (List Pending) × World :=
  match w.drain (Pending.listKey user) with
  | (.ok texts, w) => (.ok (Pending.decodeAll texts), w)
  | (.error cause, w) => (.error cause, w)

def waiting (w : World) (user : String) : Nat := w.count (Pending.listKey user)

/-! ## The bus -/

def subscribe (w : World) (name topic : String) : Except StoreError Unit × World :=
  match w.faults.onSubscribe with
  | some cause => (.error cause, w)
  | none => (.ok (), { w with bus := Bus.subscribe w.bus (.named name) topic })

def unsubscribe (w : World) (name : String) : Bool × World :=
  (Table.has w.bus (.named name), { w with bus := Bus.unsubscribe w.bus (.named name) })

def publish (w : World) (topic payload : String) : Except StoreError Unit × World :=
  match w.faults.onPublish topic with
  | some cause => (.error cause, w)
  | none => (.ok (), { w with bus := Bus.publish w.bus topic payload })

/-- Publish the numbers from zero on, as many as are asked for, up to the first failure. -/
def publishMany (w : World) (topic : String) (howMany : Nat) : Except StoreError Unit × World :=
  (List.range howMany).foldl
    (fun (outcome, w) n =>
      match outcome with
      | .ok () => publish w topic (Numeral.naturalText n)
      | .error cause => (.error cause, w))
    (.ok (), w)

def readBus (w : World) (name : String) : List String × World :=
  let (texts, bus) := Bus.read w.bus (.named name)
  (texts, { w with bus })

/-! ## Leases -/

/-- Listen for notices. A second listener is not needed, and after the end none hears anything. -/
def listen (w : World) (i : Nat) : Except StoreError Unit × World :=
  match w.member? i with
  | none => (.ok (), w)
  | some m =>
    if m.listens then (.ok (), w)
    else
      match w.faults.onSubscribe with
      | some cause => (.error cause, w)
      | none =>
        let w := w.modifyMember i fun m => { m with listens := true }
        if m.stopped then (.ok (), w)
        else (.ok (), { w with bus := Bus.subscribe w.bus (.listener i) Notice.topic })

def modifyLeases (w : World) (i : Nat) (f : Leases → Leases) : World :=
  w.modifyMember i fun m => { m with relay := { m.relay with leases := f m.relay.leases } }

/-- Give a lease back that is held by name. -/
def release (w : World) (name : String) : Bool × World :=
  match Table.get? w.held name with
  | some (i, user, lease) =>
    (true, { w with held := Table.remove w.held name }.modifyLeases i (·.release user lease))
  | none => (false, w)

/-- Take a lease by name; one that was held under the name is then given back. -/
def lease (w : World) (i : Nat) (name user : String) : Bool × World :=
  match w.member? i with
  | none => (false, w)
  | some m =>
    let (leases, number) := m.relay.leases.register user
    let w := w.setRelay i { m.relay with leases }
    let (wasHeld, w) := w.release name
    (wasHeld, { w with
      held := Table.put w.held name (i, user, number)
      tokens := Table.put w.tokens name (i, number) })

def cancel (w : World) (i : Nat) (user : String) : Bool × World :=
  match w.member? i with
  | some m =>
    let (leases, wasLive) := m.relay.leases.cancel user
    (wasLive, w.setRelay i { m.relay with leases })
  | none => (false, w)

def isLive (w : World) (i : Nat) (user : String) : Bool :=
  (w.member? i).any (·.relay.leases.isLive user)

def stopListening (w : World) (i : Nat) : World :=
  { w with bus := Bus.unsubscribe w.bus (.listener i) }.relayEvent i .cancelAll |>.modifyMember i
    fun m => { m with listens := false, stopped := true }

/-! ## Channels -/

def setChannels (w : World) (channels : ChannelRegistry) : World :=
  { w with setup := { w.setup with channels } }

def setDraft (w : World) (name : String) (draft : ChannelDraft) : World :=
  { w with drafts := Table.put w.drafts name draft }

def modifyDraft (w : World) (name : String) (f : ChannelDraft → ChannelDraft) : World :=
  match Table.get? w.drafts name with
  | some draft => w.setDraft name (f draft)
  | none => w

def keepChannel (w : World) (name : String) (channel : Except ConfigError Channel) :
    Except ConfigError Channel × World :=
  match channel with
  | .ok c => (.ok c, { w with built := Table.put w.built name c })
  | .error cause => (.error cause, w)

def build (w : World) (draft name : String) : Except ConfigError Channel × World :=
  w.keepChannel name (((Table.get? w.drafts draft).getD { id := "" }).build)

def register (w : World) (channel : Channel) : Except ConfigError Unit × World :=
  match w.channels.register channel with
  | .ok channels => (.ok (), w.setChannels channels)
  | .error cause => (.error cause, w)

def registerStock (w : World) (settings : Settings) (parts : Preset.Parts) :
    Except ConfigError Unit × World :=
  let (channels, outcome) := Preset.registerBoth w.channels settings parts
  (outcome, w.setChannels channels)

/-! ## Requests -/

/-- Begin to execute a request; it is named by its place among all of them. -/
def beginDirect (w : World) (channel : String) (request : Request)
    (overrides : Option (List Output)) (skipsOutputs calledOff : Bool)
    (callOffAfter : Option Nat) : Nat × World :=
  let i := w.directs.length
  let execution := Execution.begin w.channels channel request overrides skipsOutputs
  (i, { w with
    directs := w.directs ++ [{ execution, calledOff }]
    callOffs := w.callOffs ++ (callOffAfter.map fun ms => (w.now + ms, i)).toList })

def execute (w : World) (channel : String) (request : Request)
    (overrides : Option (List Output)) (skipsOutputs calledOff : Bool)
    (callOffAfter : Option Nat) : Option (Except PipelineError Completion × World) :=
  let (i, w) := w.beginDirect channel request overrides skipsOutputs calledOff callOffAfter
  w.waitFor fun w => (w.directs[i]?).bind (·.execution.result?)

/-- Send a text through the outputs of a channel; nobody takes it if there is no such channel. -/
def notify (w : World) (channel user chat text : String) : Option (Bool × World) :=
  match w.channels.find? channel with
  | none => some (false, w)
  | some c =>
    let dispatch : Dispatch := { text, user, channel, chat, incoming := "" }
    let i := w.announcements.length
    let begun : World := { w with
      announcements := w.announcements ++
        [{ outputs := c.outputs, dispatch, slots := Execution.emptySlots c.outputs }] }
    begun.waitFor fun w =>
      ((w.announcements[i]?).bind fun a => filled? a.slots).map fun taken => taken.all id

/-! ## Messages -/

def deposit? (w : World) (i d : Nat) : Option Deposit :=
  (w.member? i).bind fun m => m.relay.deposits[d]?

/-- Put the next message of a deposit into the list, if there is one left. -/
def pushNext (w : World) (i d : Nat) : World :=
  match w.deposit? i d with
  | some ⟨_, _, .pushing _⟩ =>
    let (fault, w) := w.tryAppend
    w.relayEvent i (.push d fault)
  | _ => w

/-- Take a deposit of so many messages through all its steps. -/
def finishDeposit (w : World) (i d messages : Nat) : World :=
  (messages.repeat (fun w => w.pushNext i d) w).relayEvent i (.arm d)

/-- A deposit of so many messages, begun by an event, and what comes of it. -/
def deposit (w : World) (i : Nat) (e : Relay.Event) (messages : Nat) :
    Except RelayError Unit × World :=
  let d := ((w.member? i).map (·.relay.deposits.length)).getD 0
  let w := (w.relayEvent i e).finishDeposit i d messages
  (((w.deposit? i d).bind (·.result?)).getD (.ok ()), w)

/-- A message is accepted. The notice of it is published afterwards, whatever came of it. -/
def enqueue (w : World) (i : Nat) (ticket : Ticket) (text sourceId : String) :
    Except RelayError Unit × World :=
  let stamp := w.firstStamp + w.stamps
  let w := { w with stamps := w.stamps + 1 }
  w.deposit i (.enqueue ticket text sourceId stamp) 1

/-- The notice that a user has written again; that it cannot be published concerns nobody. -/
def publishNotice (w : World) (user : String) : World :=
  (w.publish Notice.topic (Notice.encode ⟨user⟩)).2

def enqueueAndNotify (w : World) (i : Nat) (ticket : Ticket) (text sourceId : String) :
    Except RelayError Unit × World :=
  let (outcome, w) := w.enqueue i ticket text sourceId
  (outcome, w.publishNotice ticket.user)

def requeue (w : World) (i : Nat) (ticket : Ticket) (messages : List Pending) :
    Except RelayError Unit × World :=
  w.deposit i (.requeue ticket messages) messages.length

/-- Run the handler of combine tasks at once. -/
def runBatch (w : World) (i : Nat) (payload : Json) (attempt : Timer.Attempt) :
    Option (Except RelayError Unit × World) :=
  let j := ((w.member? i).map (·.relay.runs.length)).getD 0
  (w.relayEvent i (.handle payload attempt)).waitFor fun w =>
    (w.batch? i j).bind (·.result?)

/-- An id for a message that comes without one. -/
def takeId (w : World) : String × World :=
  (w.freshId w.freshIds, { w with freshIds := w.freshIds + 1 })

/-- Answer a request to the server of a relay. -/
def serve (w : World) (i : Nat) (request : Ingest.HttpRequest) : Ingest.HttpResponse × World :=
  match Ingest.verdict request with
  | .answer response => (response, w)
  | .accept s =>
    let (messageId, w) := match s.messageId with
      | some messageId => (messageId, w)
      | none => w.takeId
    match w.enqueueAndNotify i (Ingest.ticket s) s.text messageId with
    | (.ok (), w) => (Ingest.accepted messageId, w)
    | (.error cause, w) => (Ingest.unavailable cause, w)

/-- Accept all messages of a transport; the notices of them are published afterwards. -/
def ingest (w : World) (i : Nat) (label : String) (messages : List Inbound) : World :=
  let w := messages.foldl
    (fun w m => (w.enqueue i ⟨m.user, m.chat, label⟩ m.text m.messageId).2) w
  messages.foldl (fun w m => w.publishNotice m.user) w

/-! ## Tasks -/

/-- Handle the tasks of a key by a script. -/
def handleByScript (w : World) (i : Nat) (key : String) (script : List HandlerStep) : World :=
  w.modifyMember i fun m =>
    { m with
      scripts := Table.put m.scripts key script
      relay := { m.relay with
        queue := m.relay.queue.handle key
        combines := m.relay.combines && key ≠ Ticket.taskKey } }

def schedule (w : World) (i : Nat) (task : Timer.Task) : Except TaskError Unit × World :=
  match w.member? i with
  | some m =>
    let (relay, outcome) := m.relay.schedule w.setup task
    let handed := relay.handedOver.drop m.relay.handedOver.length
    (outcome, { w with
      notes := { w.notes with handedOver := w.notes.handedOver ++ handed } }.setRelay i relay)
  | none => (.ok (), w)

def isPending (w : World) (i : Nat) (dedupId : String) : Bool :=
  (w.member? i).any (·.relay.queue.isPending dedupId)

def stopQueue (w : World) (i : Nat) : World := w.relayEvent i (.timer .shutdown)

/-! ## Answers -/

/-- What can be seen of the world after a command. -/
structure View where
  notes : Notes
  pending : List Nat
  live : List Nat
  tokens : List (String × Bool)

def isTokenCancelled (w : World) (i lease : Nat) : Bool :=
  (w.member? i).any (·.relay.leases.isCancelled lease)

/-- Look at the world; what has been observed since the last look is then forgotten. Deliveries are
in the order of their outputs, and runs in the order of their dedup ids. -/
def look (w : World) : View × World :=
  ({ notes := { w.notes with
      deliveries := sortByKey (·.output) w.notes.deliveries
      runs := sortByKey (·.task.dedupId) w.notes.runs }
     pending := w.members.map (·.relay.queue.timers.length)
     live := w.members.map (·.relay.leases.live.length)
     tokens := w.tokens.map fun (name, i, lease) => (name, w.isTokenCancelled i lease) },
    { w with notes := {} })

end ChatRelay.Rehearsal.World
