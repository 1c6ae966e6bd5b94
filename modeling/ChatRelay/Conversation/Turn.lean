import ChatRelay.Json.Printer
import ChatRelay.Json.Typed

/-!
# Turns of a conversation

A conversation is a list of turns. A turn of the assistant may call tools; the result of a call is
a turn of its own, which names the call that it answers.
-/

namespace ChatRelay

inductive Role where
  | system
  | user
  | assistant
  | tool
deriving DecidableEq, Repr, Inhabited

namespace Role

def all : List Role := [.system, .user, .assistant, .tool]

def name : Role → String
  | .system => "system"
  | .user => "user"
  | .assistant => "assistant"
  | .tool => "tool"

def read (depth : Nat) : Json.Reader Role := do
  return all.getD (← Json.readVariant (all.map name) depth) .system

end Role

/-- A call of a tool by the assistant; the arguments are free JSON. -/
structure ToolCall where
  id : String
  name : String
  arguments : Json
deriving DecidableEq, Repr, Inhabited

namespace ToolCall
open Json

def toJson (c : ToolCall) : Json :=
  .object [("id", .string c.id), ("name", .string c.name), ("arguments", c.arguments)]

structure Draft where
  id : Option String := none
  name : Option String := none
  arguments : Option Json := none

def record : Record Draft ToolCall where
  name := "ToolCall"
  empty := {}
  fields := [
    .of "id" (fun _ => readString) (·.id) fun v d => { d with id := v },
    .of "name" (fun _ => readString) (·.name) fun v d => { d with name := v },
    .of "arguments" readValue (·.arguments) fun v d => { d with arguments := v }]
  finish d := return {
    id := ← required "id" d.id
    name := ← required "name" d.name
    arguments := ← required "arguments" d.arguments }

end ToolCall

structure Turn where
  role : Role
  content : String
  toolCalls : List ToolCall := []
  toolCallId : Option String := none
deriving DecidableEq, Repr, Inhabited

namespace Turn
open Json

def system (content : String) : Turn := { role := .system, content }
def user (content : String) : Turn := { role := .user, content }
def assistant (content : String) : Turn := { role := .assistant, content }

def toolResult (callId content : String) : Turn :=
  { role := .tool, content, toolCallId := some callId }

/-- Calls and the id of a call are left out when there are none. -/
def toJson (t : Turn) : Json :=
  .object ([("role", .string t.role.name), ("content", .string t.content)] ++
    (if t.toolCalls.isEmpty then [] else [("tool_calls", .array (t.toolCalls.map (·.toJson)))]) ++
    (match t.toolCallId with
      | some id => [("tool_call_id", .string id)]
      | none => []))

structure Draft where
  role : Option Role := none
  content : Option String := none
  toolCalls : Option (List ToolCall) := none
  toolCallId : Option (Option String) := none

def record : Record Draft Turn where
  name := "ChatMessage"
  empty := {}
  fields := [
    .of "role" Role.read (·.role) fun v d => { d with role := v },
    .of "content" (fun _ => readString) (·.content) fun v d => { d with content := v },
    { Field.of "tool_calls" (readList ToolCall.record.read) (·.toolCalls)
        (fun v d => { d with toolCalls := some v }) with mayBeLeftOut := true },
    { Field.of "tool_call_id" (fun _ => readOptional readString) (·.toolCallId)
        (fun v d => { d with toolCallId := some v }) with mayBeLeftOut := true }]
  finish d := return {
    role := ← required "role" d.role
    content := ← required "content" d.content
    toolCalls := d.toolCalls.getD []
    toolCallId := d.toolCallId.getD none }

def encode (t : Turn) : String := t.toJson.render

def decode (s : String) : Except Fault Turn := parseWith record.read s

end Turn

/-- What the model is told about a tool: the parameters are a JSON schema. -/
structure ToolDefinition where
  name : String
  description : String
  parameters : Json
deriving DecidableEq, Repr, Inhabited

namespace ToolDefinition
open Json

def toJson (d : ToolDefinition) : Json :=
  .object [("name", .string d.name), ("description", .string d.description),
    ("parameters", d.parameters)]

structure Draft where
  name : Option String := none
  description : Option String := none
  parameters : Option Json := none

def record : Record Draft ToolDefinition where
  name := "ToolDefinition"
  empty := {}
  fields := [
    .of "name" (fun _ => readString) (·.name) fun v d => { d with name := v },
    .of "description" (fun _ => readString) (·.description) fun v d => { d with description := v },
    .of "parameters" readValue (·.parameters) fun v d => { d with parameters := v }]
  finish d := return {
    name := ← required "name" d.name
    description := ← required "description" d.description
    parameters := ← required "parameters" d.parameters }

end ToolDefinition
end ChatRelay
