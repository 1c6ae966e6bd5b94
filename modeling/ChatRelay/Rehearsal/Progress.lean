import ChatRelay.Rehearsal.World

/-!
# How a rehearsal goes on

`World.step?` takes one step that can be taken at once. When there is none, time moves to the next
moment at which something is due. `World.settle` takes steps until nothing is left to do at once,
`World.sleep` lets time go by, and `World.waitFor` goes on until something has come about.
-/

namespace ChatRelay.Rehearsal.World

/-- Whatever is left to do at one moment, a rehearsal does not take more steps than this. -/
def maxSteps : Nat := 1000000

/-! ## Starting work -/

/-- The passage and message of an execution whose enrichers are at work. -/
def enriching? : Execution → Option (Passage × String)
  | .enriching p message _ => some (p, message)
  | _ => none

/-- The enricher at a slot, with the request as it sees it. -/
def enricherAt? (w : World) (client : Client) (slot : Nat) : Option (Enricher × Request) := do
  let (p, message) ← (← w.execution? client) |> enriching?
  return (← p.channel.enrichers[slot]?, p.enrichmentRequest message)

def prompt? (w : World) (client : Client) : Option Prompt :=
  match w.execution? client with
  | some (.generating _ _ prompt) => some prompt
  | _ => none

/-- The output at a slot, with what it is sent. -/
def outputAt? (w : World) (client : Client) (slot : Nat) : Option (Output × Dispatch) :=
  match w.execution? client with
  | some (.delivering p reply _) => (p.outputs[slot]?).map (·, p.dispatch reply)
  | _ =>
    match client with
    | .batch i run => do
      let outputs := BatchRun.noticeOutputs w.channels w.setup.primary
      return (← outputs[slot]?, (← w.batch? i run).notice w.setup.primary w.setup.fallback)
    | .announcement i => do
      let a ← w.announcements[i]?
      return (← a.outputs[slot]?, a.dispatch)
    | .direct _ => none

def addErrand (w : World) (work : Work) (delayMillis : Nat) (course : Course) : World :=
  { w with errands := w.errands ++ [⟨work, w.now + delayMillis, course⟩] }

/-- The engine is asked; its script says how it goes on. -/
def ask (w : World) (client : Client) (prompt : Prompt) : World :=
  let step := (w.engine[w.calls]?).getD {}
  let call := w.calls + 1
  let note : AskedNote := {
    call, system := prompt.system, turns := prompt.turns, calledOff := w.isCalledOff client
    tools := prompt.tools.definitions }
  { w with calls := call, notes := { w.notes with asked := w.notes.asked ++ [note] } }.addErrand
    (.ask client) (step.delayMillis.getD 0) (.ask call step)

def noteRun (w : World) (i g : Nat) (isStart : Bool) : World :=
  match (w.member? i).bind fun m => (m.relay.queue.firing? g).map (m.relay.queue, ·) with
  | some (queue, f) =>
    let note : RunNote := { isStart, task := f.task, attempt := queue.attempt f }
    { w with notes := { w.notes with runs := w.notes.runs ++ [note] } }
  | none => w

/-- The next step of the script of a handler, which is then used up. -/
def takeHandlerStep (m : Member) (key : String) : HandlerStep × Member :=
  match Table.get? m.scripts key with
  | some (step :: rest) => (step, { m with scripts := Table.put m.scripts key rest })
  | _ => ({}, m)

/-- A scripted handler starts. -/
def startHandler (w : World) (i g : Nat) : World :=
  match w.member? i with
  | some m =>
    let key := ((m.relay.queue.firing? g).map (·.task.key)).getD ""
    let (step, m) := takeHandlerStep m key
    ((w.modifyMember i fun _ => m).noteRun i g true).addErrand (.handle i g) step.millis
      (.handle step)
  | none => w

def start (w : World) (work : Work) : World :=
  match work with
  | .enrich client slot =>
    match w.enricherAt? client slot with
    | some (enricher, _) => w.addErrand work enricher.delayMillis .enrich
    | none => w
  | .ask client =>
    match w.prompt? client with
    | some prompt => w.ask client prompt
    | none => w
  | .send client slot =>
    match w.outputAt? client slot with
    | some (output, dispatch) => w.addErrand work output.delayMillis (.send output dispatch)
    | none => w
  | .handle i g => w.startHandler i g

/-- Start the first piece of work that somebody waits for and that has not been started. -/
def start? (w : World) : Option World :=
  (w.work.find? fun work => w.errands.all (·.work ≠ work)).map w.start

/-! ## Finishing work -/

/-- Whether the engine is through with a call. -/
def isAskOver (w : World) (client : Client) (due : Nat) (step : EngineStep) : Bool :=
  if due ≤ w.now then !step.blocks || w.isCalledOff client
  else step.delayMillis.isSome && !step.deaf && w.isCalledOff client

def isOver (w : World) (e : Errand) : Bool :=
  match e.work, e.course with
  | .ask client, .ask _ step => w.isAskOver client e.due step
  | _, _ => e.due ≤ w.now

def mapExecution (w : World) (client : Client) (e : Relay.RunEvent) (f : Execution → Execution) :
    World :=
  match client with
  | .direct i => w.modifyDirect i fun d => { d with execution := f d.execution }
  | .batch i run => w.runEvent i run e
  | .announcement _ => w

def answered (w : World) (client : Client) (outcome : Except EngineError Provider.Reply) : World :=
  w.mapExecution client (.generated outcome) (·.generated (w.isCalledOff client) outcome)

def finishAsk (w : World) (client : Client) (due call : Nat) (step : EngineStep) : World :=
  if w.now < due ∨ step.blocks then w.answered client (.error .cancelled)
  else
    let w := if step.cancels then w.callOff client else w
    match step.failure with
    | some cause => w.answered client (.error cause)
    | none => w.answered client (.ok (step.replyTo call))

def finishEnrich (w : World) (client : Client) (slot : Nat) : World :=
  match w.enricherAt? client slot with
  | some (enricher, request) =>
    let outcome := enricher.enrich w.surroundings request
    w.mapExecution client (.enriched slot outcome) (·.enriched slot outcome)
  | none => w

/-- An output has been reached; the log keeps no record. -/
def noteDelivery (w : World) (output : Output) (dispatch : Dispatch) : World :=
  match output.medium with
  | .log => w
  | medium =>
    let note : DeliveryNote := { output := output.name, medium, dispatch }
    { w with notes := { w.notes with deliveries := w.notes.deliveries ++ [note] } }

/-- An output is through. A batch whose execution is over waits for it with its fallback notice. -/
def sent (w : World) (client : Client) (slot : Nat) (success : Bool) : World :=
  match client, w.execution? client with
  | .announcement i, _ =>
    { w with
      announcements := w.announcements.modify i fun a =>
        { a with slots := fillSlot a.slots slot success } }
  | .batch i run, none => w.runEvent i run (.notified slot success)
  | _, _ => w.mapExecution client (.delivered slot success) (·.delivered slot success)

def finishSend (w : World) (client : Client) (slot : Nat) (output : Output) (dispatch : Dispatch) :
    World :=
  (w.noteDelivery output dispatch).sent client slot (output.send dispatch).succeeded

def finishHandler (w : World) (i g : Nat) (step : HandlerStep) : World :=
  let outcome := match step.failure with
    | some cause => .error cause
    | none => .ok ()
  (w.noteRun i g false).relayEvent i (.timer (.finish g outcome))

def finish (w : World) (e : Errand) : World :=
  match e.work, e.course with
  | .enrich client slot, .enrich => w.finishEnrich client slot
  | .ask client, .ask call step => w.finishAsk client e.due call step
  | .send client slot, .send output dispatch => w.finishSend client slot output dispatch
  | .handle i g, .handle step => w.finishHandler i g step
  | _, _ => w

def finish? (w : World) : Option World :=
  match w.errands.find? w.isOver with
  | some e => some ({ w with errands := w.errands.filter (·.work ≠ e.work) }.finish e)
  | none => none

/-! ## Steps that take no time -/

/-- Call off the first direct request whose time has come. -/
def callOff? (w : World) : Option World :=
  match w.callOffs.find? (·.1 ≤ w.now) with
  | some (due, i) =>
    some ({ w with callOffs := w.callOffs.filter (· ≠ (due, i)) }.callOff (.direct i))
  | none => none

/-- A listener handles what it has read. A text that is no notice is passed over. -/
def hear (w : World) (i : Nat) (texts : List String) : World :=
  texts.foldl (fun w text =>
    match Notice.decode text with
    | .ok notice => w.relayEvent i (.notice notice.user)
    | .error _ => w) w

/-- The first listener that has something to read reads it. -/
def hear? (w : World) : Option World :=
  (List.range w.members.length).findSome? fun i =>
    match Bus.read w.bus (.listener i) with
    | ([], _) => none
    | (texts, bus) => some ({ w with bus }.hear i texts)

/-- The next access to the store on behalf of a run. -/
def accessRun (w : World) (i j : Nat) (run : BatchRun) : World :=
  let (fault, w) := w.tryAccess run.phase
  w.runEvent i j (.access fault)

def executionStep? : Execution → Option (Relay.RunEvent)
  | .enriching _ _ slots => if (openSlots slots).isEmpty then some .compose else none
  | .keeping _ _ _ => some (.access none)
  | .finished _ => some .release
  | .generating _ _ _ | .delivering _ _ _ => none

/-- The next step of a run that waits for nobody. -/
def runStep? (w : World) (i : Nat) (m : Member) (j : Nat) (run : BatchRun) : Option World :=
  match run.phase with
  | .draining | .checking _ | .marking _ | .restoring _ _ _ => some (w.accessRun i j run)
  | .requeuing _ deposit =>
    if deposit.phase = .arming then some (w.runEvent i j .arm) else some (w.accessRun i j run)
  | .leasing _ => some (w.runEvent i j .lease)
  | .executing _ _ execution =>
    match executionStep? execution with
    | some (.access _) => some (w.accessRun i j run)
    | some e => some (w.runEvent i j e)
    | none => none
  | .notifying _ _ => none
  | .finished _ =>
    match run.firing with
    | some g =>
      if (m.relay.queue.phase? g).any (·.isRunning) then some (w.relayEvent i (.return j)) else none
    | none => none

/-- The factor by which a rehearsal varies delays. -/
def jitter : Rat := 1

def firingEvent? (queue : Timer.Queue) (g : Nat) (f : Timer.Firing) : Option Timer.Queue.Event :=
  match f.phase with
  | .sleeping => if f.due ≤ queue.now then some (.wake g) else none
  | .awake => some (.claim g)
  | .claimed => some (.takeHandle g)
  | .waiting lock => if queue.isLocked lock then none else some (.acquire g)
  | .running _ => none
  | .ended _ _ => some (.unlock g)
  | .unlocked _ _ => some (.tidy g)
  | .tidied _ _ => some (.dropHandle g)
  | .settling _ => some (.settle g jitter)
  | .over _ => none

def memberStep? (w : World) (i : Nat) (m : Member) : Option World :=
  (m.relay.runs.zipIdx.findSome? fun (run, j) => w.runStep? i m j run) <|>
  (m.relay.queue.firings.zipIdx.findSome? fun (f, g) =>
    (firingEvent? m.relay.queue g f).map fun e => w.relayEvent i (.timer e))

def directStep? (w : World) (i : Nat) (d : Direct) : Option World :=
  match d.execution with
  | .enriching _ _ slots =>
    if (openSlots slots).isEmpty then
      some (w.modifyDirect i fun d => { d with execution := d.execution.compose d.calledOff })
    else none
  | .keeping _ _ _ =>
    let (store, execution) := d.execution.keep w.faults.onAdd w.store
    some ({ w with store }.modifyDirect i fun d => { d with execution })
  | .generating _ _ _ | .delivering _ _ _ | .finished _ => none

/-- One step that can be taken at once, if there is one. -/
def step? (w : World) : Option World :=
  w.hear? <|> w.finish? <|> w.start? <|>
  (w.members.zipIdx.findSome? fun (m, i) => w.memberStep? i m) <|>
  (w.directs.zipIdx.findSome? fun (d, i) => w.directStep? i d) <|>
  w.callOff?

/-- Take at most so many steps. -/
def settleWithin : Nat → World → World
  | 0, w => w
  | fuel + 1, w =>
    match w.step? with
    | some w => settleWithin fuel w
    | none => w

def settle (w : World) : World := settleWithin maxSteps w

/-! ## Time -/

/-- The moments at which something is due. -/
def dueTimes (w : World) : List Nat :=
  w.callOffs.map (·.1) ++ w.errands.map (·.due) ++
  (w.members.flatMap fun m => m.relay.queue.firings.filterMap fun f =>
    if f.phase = .sleeping then some f.due else none)

def nextDue? (w : World) : Option Nat := (w.dueTimes.filter (w.now < ·)).min?

def moveTo (w : World) (time : Nat) : World :=
  (List.range w.members.length).foldl
    (fun v i => v.relayEvent i (.timer (.wait (time - w.now)))) { w with now := time }

def sleepWithin (target : Nat) : Nat → World → World
  | 0, w => w
  | fuel + 1, w =>
    let w := w.settle
    match w.nextDue?.filter (· ≤ target) with
    | some time => sleepWithin target fuel (w.moveTo time)
    | none => (w.moveTo target).settle

def sleep (w : World) (millis : Nat) : World := sleepWithin (w.now + millis) maxSteps w

def waitWithin {α : Type} (result? : World → Option α) : Nat → World → Option (α × World)
  | 0, _ => none
  | fuel + 1, w =>
    let w := w.settle
    match result? w with
    | some a => some (a, w)
    | none =>
      match w.nextDue? with
      | some time => waitWithin result? fuel (w.moveTo time)
      | none => none

/-- Go on until a result has come about; there may never be one. -/
def waitFor {α : Type} (w : World) (result? : World → Option α) : Option (α × World) :=
  waitWithin result? maxSteps w

end ChatRelay.Rehearsal.World
