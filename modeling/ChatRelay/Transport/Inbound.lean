import ChatRelay.Json.Printer
import ChatRelay.Json.Typed

/-!
# Inbound messages

What a transport hands over, and the body of a request that hands over one message. In the second
all but the user and the text may be absent.
-/

namespace ChatRelay

structure Inbound where
  user : String
  chat : String
  text : String
  messageId : String
deriving DecidableEq, Repr, Inhabited

namespace Inbound
open Json

def toJson (m : Inbound) : Json :=
  .object [("user_id", .string m.user), ("chat_id", .string m.chat), ("text", .string m.text),
    ("message_id", .string m.messageId)]

structure Draft where
  user : Option String := none
  chat : Option String := none
  text : Option String := none
  messageId : Option String := none

def record : Record Draft Inbound where
  name := "IncomingMessage"
  empty := {}
  fields := [
    .of "user_id" (fun _ => readString) (·.user) fun v d => { d with user := v },
    .of "chat_id" (fun _ => readString) (·.chat) fun v d => { d with chat := v },
    .of "text" (fun _ => readString) (·.text) fun v d => { d with text := v },
    .of "message_id" (fun _ => readString) (·.messageId) fun v d => { d with messageId := v }]
  finish d := return {
    user := ← required "user_id" d.user
    chat := ← required "chat_id" d.chat
    text := ← required "text" d.text
    messageId := ← required "message_id" d.messageId }

end Inbound

structure Submission where
  user : String
  chat : Option String
  text : String
  messageId : Option String
  source : Option String
deriving DecidableEq, Repr, Inhabited

namespace Submission
open Json

def orNull : Option String → Json
  | some s => .string s
  | none => .null

def toJson (s : Submission) : Json :=
  .object [("user_id", .string s.user), ("chat_id", orNull s.chat), ("text", .string s.text),
    ("message_id", orNull s.messageId), ("source", orNull s.source)]

structure Draft where
  user : Option String := none
  chat : Option (Option String) := none
  text : Option String := none
  messageId : Option (Option String) := none
  source : Option (Option String) := none

def record : Record Draft Submission where
  name := "IngestRequest"
  empty := {}
  fields := [
    .of "user_id" (fun _ => readString) (·.user) fun v d => { d with user := v },
    { Field.of "chat_id" (fun _ => readOptional readString) (·.chat)
        (fun v d => { d with chat := some v }) with mayBeLeftOut := true },
    .of "text" (fun _ => readString) (·.text) fun v d => { d with text := v },
    { Field.of "message_id" (fun _ => readOptional readString) (·.messageId)
        (fun v d => { d with messageId := some v }) with mayBeLeftOut := true },
    { Field.of "source" (fun _ => readOptional readString) (·.source)
        (fun v d => { d with source := some v }) with mayBeLeftOut := true }]
  finish d := return {
    user := ← required "user_id" d.user
    chat := d.chat.getD none
    text := ← required "text" d.text
    messageId := d.messageId.getD none
    source := d.source.getD none }

def decode (s : String) : Except Fault Submission := parseWith record.read s

end Submission
end ChatRelay
