import ChatRelay.Json.Printer
import ChatRelay.Json.Typed

/-!
# Pending messages and combine tickets

A pending message waits in its user's list until a batch takes it. A ticket is the payload of the
task that takes the batch; it says whose messages are due and where the answer goes. A notice tells
every relay that a user has written again. All three travel as JSON.
-/

namespace ChatRelay

/-- One message as it waits for its batch. The source id is that of the channel it came from, and
empty if that channel has none. -/
structure Pending where
  text : String
  sourceId : String
  enqueuedAt : Int
  label : String
deriving DecidableEq, Repr, Inhabited

namespace Pending
open Json

def toJson (m : Pending) : Json :=
  .object [("text", .string m.text), ("source_message_id", .string m.sourceId),
    ("enqueued_at", .integer m.enqueuedAt), ("source_label", .string m.label)]

structure Draft where
  text : Option String := none
  sourceId : Option String := none
  enqueuedAt : Option Int := none
  label : Option String := none

def record : Record Draft Pending where
  name := "PendingMessage"
  empty := {}
  fields := [
    .of "text" (fun _ => readString) (·.text) fun v d => { d with text := v },
    .of "source_message_id" (fun _ => readString) (·.sourceId) fun v d => { d with sourceId := v },
    .of "enqueued_at" (fun _ => readInt64) (·.enqueuedAt) fun v d => { d with enqueuedAt := v },
    .of "source_label" (fun _ => readString) (·.label) fun v d => { d with label := v }]
  finish d := return {
    text := ← required "text" d.text
    sourceId := ← required "source_message_id" d.sourceId
    enqueuedAt := ← required "enqueued_at" d.enqueuedAt
    label := ← required "source_label" d.label }

def encode (m : Pending) : String := m.toJson.render

def decode (s : String) : Except Fault Pending := parseWith record.read s

end Pending

/-- Whose messages a combine task takes, and where the answer to them goes. -/
structure Ticket where
  user : String
  chat : String
  label : String
deriving DecidableEq, Repr, Inhabited

namespace Ticket
open Json

/-- The key under which combine tasks find their handler. -/
def taskKey : String := "combine-messages"

/-- All combine tasks of a user share one id, so that at most one of them is pending. -/
def dedupId (user : String) : String := "combine:" ++ user

def toJson (t : Ticket) : Json :=
  .object [("user_id", .string t.user), ("chat_id", .string t.chat),
    ("source_label", .string t.label)]

def payload (t : Ticket) : Json := t.toJson.canonical

structure Draft where
  user : Option String := none
  chat : Option String := none
  label : Option String := none

def record : Record Draft Ticket where
  name := "CombineTask"
  empty := {}
  fields := [
    .of "user_id" (fun _ => readString) (·.user) fun v d => { d with user := v },
    .of "chat_id" (fun _ => readString) (·.chat) fun v d => { d with chat := v },
    .of "source_label" (fun _ => readString) (·.label) fun v d => { d with label := v }]
  finish d := return {
    user := ← required "user_id" d.user
    chat := ← required "chat_id" d.chat
    label := ← required "source_label" d.label }

def stringValue : Json → Except Fault String
  | .string s => .ok s
  | other => .error (.wrongType (found other) "a string")

/-- The fields among the members of an object, in the order of the members. -/
def ofMembers : List (String × Json) → Draft → Except Fault Draft
  | [], draft => .ok draft
  | (key, value) :: rest, draft => do
    if key = "user_id" then ofMembers rest { draft with user := ← stringValue value }
    else if key = "chat_id" then ofMembers rest { draft with chat := ← stringValue value }
    else if key = "source_label" then ofMembers rest { draft with label := ← stringValue value }
    else ofMembers rest draft

/-- A ticket from the payload of a task: an object, or a list of the three fields. -/
def ofPayload : Json → Except Fault Ticket
  | .object members => do record.finish (← ofMembers members {})
  | .array items =>
    match items with
    | [] => .error (.wrongLength 0 record.arity)
    | [user] => do
      let _ ← stringValue user
      .error (.wrongLength 1 record.arity)
    | [user, chat] => do
      let _ ← stringValue user
      let _ ← stringValue chat
      .error (.wrongLength 2 record.arity)
    | user :: chat :: label :: rest => do
      let ticket : Ticket := ⟨← stringValue user, ← stringValue chat, ← stringValue label⟩
      if rest.isEmpty then .ok ticket
      else .error (.wrongLength items.length "fewer elements in array")
  | other => .error (.wrongType (found other) record.typeName)

end Ticket

/-- The word that a user has written again, for whoever is working on their messages. -/
structure Notice where
  user : String
deriving DecidableEq, Repr, Inhabited

namespace Notice
open Json

def topic : String := "relay:abort"

def toJson (n : Notice) : Json := .object [("user_id", .string n.user)]

def record : Record (Option String) Notice where
  name := "AbortNotice"
  empty := none
  fields := [.of "user_id" (fun _ => readString) id fun v _ => some v]
  finish d := return ⟨← required "user_id" d⟩

def encode (n : Notice) : String := n.toJson.render

def decode (s : String) : Except Fault Notice := parseWith record.read s

end Notice
end ChatRelay
