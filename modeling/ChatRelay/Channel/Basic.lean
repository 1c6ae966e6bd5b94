import ChatRelay.Channel.Stage
import ChatRelay.Text.Quoted

/-!
# Channels

A channel is a system prompt and the stages that requests to it pass through. Drafts become
channels once they have a prompt. A registry holds channels by id, and an id is taken for good.
-/

namespace ChatRelay

structure Channel where
  id : String
  systemPrompt : String
  transformers : List Transformer := []
  enrichers : List Enricher := []
  toolFactories : List ToolFactory := []
  outputs : List Output := []

namespace Channel

def nameList (names : List String) : String := ", ".intercalate names

/-- A one-line description, by the names of the stages. -/
def debugText (c : Channel) : String :=
  "ChannelConfig \x7b id: " ++ Text.quoted c.id ++
  ", transformers: " ++ Text.quoted (nameList (c.transformers.map (·.name))) ++
  ", enrichers: " ++ Text.quoted (nameList (c.enrichers.map (·.name))) ++
  ", tool_factories: " ++ Text.quoted (nameList (c.toolFactories.map (·.name))) ++
  ", outputs: " ++ Text.quoted (nameList (c.outputs.map (·.name))) ++ " \x7d"

/-- A message as all transformers leave it; the first that refuses it ends the matter. -/
def transform (c : Channel) (request : Request) : Except PipelineError String :=
  c.transformers.foldlM (fun message t => t.apply request message) request.message

def tools (c : Channel) (request : Request) : ToolSet :=
  ToolFactory.compose c.toolFactories ⟨request.user, request.chat⟩

end Channel

/-- A channel that may still lack its prompt. Stages are added at the end. -/
structure ChannelDraft where
  id : String
  systemPrompt : Option String := none
  transformers : List Transformer := []
  enrichers : List Enricher := []
  toolFactories : List ToolFactory := []
  outputs : List Output := []

namespace ChannelDraft

def addTransformer (d : ChannelDraft) (t : Transformer) : ChannelDraft :=
  { d with transformers := d.transformers ++ [t] }

def addEnricher (d : ChannelDraft) (e : Enricher) : ChannelDraft :=
  { d with enrichers := d.enrichers ++ [e] }

def addToolFactory (d : ChannelDraft) (f : ToolFactory) : ChannelDraft :=
  { d with toolFactories := d.toolFactories ++ [f] }

def addOutputs (d : ChannelDraft) (os : List Output) : ChannelDraft :=
  { d with outputs := d.outputs ++ os }

/-- The prompt is trimmed, and must not be blank. -/
def build (d : ChannelDraft) : Except ConfigError Channel :=
  match (d.systemPrompt.map Text.trim).filter (· ≠ "") with
  | some systemPrompt => .ok {
      id := d.id, systemPrompt, transformers := d.transformers, enrichers := d.enrichers
      toolFactories := d.toolFactories, outputs := d.outputs }
  | none => .error (.missingPrompt d.id)

end ChannelDraft

/-- Channels, each id once. -/
abbrev ChannelRegistry := List Channel

namespace ChannelRegistry

/-- Put a name before the first greater one. -/
def insertName (name : String) : List String → List String
  | [] => [name]
  | other :: rest => if other < name then other :: insertName name rest else name :: other :: rest

def ids (r : ChannelRegistry) : List String :=
  r.foldl (fun sorted c => insertName c.id sorted) []

def find? (r : ChannelRegistry) (id : String) : Option Channel :=
  List.find? (·.id == id) r

def has (r : ChannelRegistry) (id : String) : Bool := (r.find? id).isSome

def get (r : ChannelRegistry) (id : String) : Except ConfigError Channel :=
  match r.find? id with
  | some c => .ok c
  | none => .error (.unknownChannel id r.ids)

def register (r : ChannelRegistry) (c : Channel) : Except ConfigError ChannelRegistry :=
  if r.has c.id then .error (.duplicateChannel c.id) else .ok (r ++ [c])

end ChannelRegistry
end ChatRelay
