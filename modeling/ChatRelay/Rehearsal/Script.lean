import ChatRelay.Channel.Preset
import ChatRelay.Json.Printer
import ChatRelay.Provider.ToolLoop
import ChatRelay.Store.Basic
import ChatRelay.Tool.CurrentTime

/-!
# Scripts

A rehearsal lets collaborators act by a script: transformers, enrichers, outputs and tools whose
behaviour is written down, an engine that takes the next step of its script at every call, task
handlers that do the same at every run, and a store that fails at chosen operations.
-/

namespace ChatRelay.Rehearsal

/-! ## Transformers, enrichers and outputs -/

inductive TransformScript where
  | refuse (reason : String)
  | fail (cause : PipelineError)
  /-- Append what the transformer is told about the request. -/
  | describe
  | append (suffix : String)

/-- User, chat, due second and task of a request, in angle brackets. -/
def describeRequest (r : Request) : String :=
  let second := (r.scheduledAt.map fun t => Numeral.integerText t.seconds).getD ""
  "<" ++ "|".intercalate [r.user, r.chat, second, r.taskId.getD ""] ++ ">"

def TransformScript.transformer (name : String) : TransformScript → Transformer
  | .refuse reason => { name, apply := fun _ _ => .error (.transform name reason) }
  | .fail cause => { name, apply := fun _ _ => .error cause }
  | .describe => { name, apply := fun r message => .ok (message ++ describeRequest r) }
  | .append suffix => { name, apply := fun _ message => .ok (message ++ suffix) }

inductive EnricherScript where
  | panic (reason : String)
  | fail (reason : String)
  /-- Add message, user and chat of the request. -/
  | echo
  | add (e : Enrichment)

def EnricherScript.outcome (name : String) (r : Request) : EnricherScript → EnricherOutcome
  | .panic reason => .panicked reason
  | .fail reason => .failed (.enrich name reason)
  | .echo => .contributed (.ofContext ("|".intercalate [r.message, r.user, r.chat]))
  | .add e => .contributed e

def EnricherScript.enricher (name : String) (delayMillis : Nat) (script : EnricherScript) :
    Enricher where
  name := name
  delayMillis := delayMillis
  enrich _ request := script.outcome name request

inductive OutputScript where
  | panic (reason : String)
  | fail (cause : DeliveryError)
  | succeed

def OutputScript.outcome : OutputScript → OutputOutcome
  | .panic reason => .panicked reason
  | .fail cause => .failed cause
  | .succeed => .delivered

def OutputScript.output (name : String) (medium : Medium) (delayMillis : Nat)
    (script : OutputScript) : Output where
  name := name
  medium := medium
  delayMillis := delayMillis
  send _ := script.outcome

/-! ## Tools -/

inductive ToolScript where
  | fail (reason : String)
  | require (key : String)
  /-- Answer the parameters. -/
  | echo
  | reply (text : String)

structure ScriptedTool where
  name : String
  description : String := "a tool"
  parameters : Json := .object [("type", .string "object")]
  cancels : Bool := false
  script : ToolScript

namespace ScriptedTool

def result (t : ScriptedTool) (params : Json) : Except ToolError String :=
  match t.script with
  | .fail reason => .error (.invalidParameters t.name reason)
  | .require key => Tool.requiredString params key t.name
  | .echo => .ok params.canonical.render
  | .reply text => .ok text

def tool (t : ScriptedTool) : Tool where
  name := t.name
  description := t.description
  parameters := t.parameters
  run _ params := { cancels := t.cancels, result := t.result params }

/-- The tool as it is made for one user and chat. -/
def toolFor (scope : ToolScope) (t : ScriptedTool) : Tool :=
  { t with description := t.description ++ " for " ++ scope.user ++ "/" ++ scope.chat }.tool

end ScriptedTool

/-- A tool of a scripted factory. -/
inductive FactoryItem where
  | currentTime
  | scripted (t : ScriptedTool)

def FactoryItem.tool : FactoryItem → Tool
  | .currentTime => CurrentTime.tool
  | .scripted t => t.tool

def FactoryItem.toolFor (scope : ToolScope) : FactoryItem → Tool
  | .currentTime => CurrentTime.tool
  | .scripted t => t.toolFor scope

def factory (name : String) (perScope : Bool) (items : List FactoryItem) : ToolFactory :=
  if perScope then ⟨name, fun scope => ToolSet.ofList (items.map (·.toolFor scope))⟩
  else .fixed name (items.map (·.tool))

/-! ## Engines and handlers -/

/-- What the engine does at one call: it takes its time, waits to be called off, calls its own
request off, and fails or replies, in this order. -/
structure EngineStep where
  delayMillis : Option Nat := none
  /-- Whether the delay goes on when the request is called off. -/
  deaf : Bool := false
  blocks : Bool := false
  cancels : Bool := false
  failure : Option EngineError := none
  reply : Option String := none
  turns : Option (List Turn) := none

/-- The reply to the `call`-th call. -/
def EngineStep.replyTo (step : EngineStep) (call : Nat) : Provider.Reply :=
  let text := step.reply.getD ("reply " ++ Numeral.naturalText call)
  ⟨text, step.turns.getD [.assistant text]⟩

structure HandlerStep where
  millis : Nat := 0
  failure : Option RelayError := none

/-! ## Faults of the store -/

structure Faults where
  /-- How many values may be appended. -/
  appendLimit : Option Nat := none
  /-- How many times draining fails, from the start. -/
  failingDrains : Nat := 0
  seen : Bool := false
  mark : Bool := false
  add : Bool := false
  recent : Bool := false
  subscribe : Bool := false
  publish : Bool := false
deriving Inhabited

/-- A fault that is always there. -/
def standing (name : String) (isSet : Bool) : Option StoreError :=
  if isSet then some (.unavailable (name ++ " set")) else none

namespace Faults

def onSeen (f : Faults) : Option StoreError := standing "fail_seen" f.seen
def onMark (f : Faults) : Option StoreError := standing "fail_mark" f.mark
def onAdd (f : Faults) : Option StoreError := standing "fail_add" f.add
def onRecent (f : Faults) : Option StoreError := standing "fail_recent" f.recent
def onSubscribe (f : Faults) : Option StoreError := standing "fail_subscribe" f.subscribe

def onPublish (f : Faults) (topic : String) : Option StoreError :=
  if f.publish then some (.publish topic "fail_publish set") else none

/-- The fault that the next append meets when so many have been tried. -/
def onAppend (f : Faults) (tried : Nat) : Option StoreError :=
  match f.appendLimit with
  | some limit => if limit ≤ tried then some (.unavailable "append refused") else none
  | none => none

def onDrain (f : Faults) (tried : Nat) : Option StoreError :=
  if tried < f.failingDrains then some (.unavailable "drain refused") else none

end Faults
end ChatRelay.Rehearsal
