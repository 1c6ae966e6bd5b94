import ChatRelay.Channel.Stage
import ChatRelay.Text.Mention

/-!
# Stock stages

Transformers that trim, strip mentions and announce scheduled tasks; enrichers that recall the
conversation and tell the time; outputs to the log and to a transport.
-/

namespace ChatRelay

namespace Transformer

def trim : Transformer where
  name := "trim"
  apply _ message := .ok (Text.trim message)

/-- Remove mentions of the assistant. A name of which nothing is left cannot be mentioned. -/
def mentionStrip (name : String) : Except ConfigError Transformer :=
  match Text.mentionName? name with
  | some name => .ok {
      name := "mention_strip"
      apply := fun _ message => .ok (Text.stripMentions name message) }
  | none => .error (.invalidValue "mention" "bot name must not be empty")

/-- The line above the message of a scheduled task, if it is one. -/
def scheduleHeader? (request : Request) : Option String :=
  match request.taskId, request.scheduledAt.map (·.rfc3339 0) with
  | none, none => none
  | some id, some at_ => some ("[Scheduled task " ++ id ++ " due " ++ at_ ++ "]")
  | some id, none => some ("[Scheduled task " ++ id ++ "]")
  | none, some at_ => some ("[Scheduled task due " ++ at_ ++ "]")

def scheduledTask : Transformer where
  name := "scheduled_task"
  apply request message := .ok <|
    match scheduleHeader? request with
    | some header => header ++ "\n" ++ message
    | none => message

end Transformer

namespace Enricher

def historyName : String := "history"

/-- The last `limit` turns of the user's conversation, opening on a turn of the user. -/
def recollect (limit : Nat) (recent : String → Nat → Except StoreError (List Turn))
    (user : String) : Except PipelineError Enrichment :=
  if limit = 0 then .ok .empty
  else
    match recent user limit with
    | .ok turns => .ok (.ofHistory (Enrichment.window turns))
    | .error cause => .error (.enrich historyName cause.message)

def history (limit : Nat) : Enricher where
  name := historyName
  enrich surroundings request :=
    match recollect limit surroundings.recent request.user with
    | .ok e => .contributed e
    | .error cause => .failed cause

def clock : Enricher where
  name := "clock"
  enrich surroundings _ := .contributed (.ofContext ("Current time: " ++ surroundings.minute))

end Enricher

namespace Output

def log : Output where
  name := "log"
  medium := .log
  send _ := .delivered

/-- An output through a transport bears the transport's name and passes on chat and text. -/
def ofTransport (name : String) (delayMillis : Nat) (send : String → String → OutputOutcome) :
    Output where
  name := name
  medium := .transport
  delayMillis := delayMillis
  send dispatch := send dispatch.chat dispatch.text

end Output
end ChatRelay
