import ChatRelay.Conversation.Enrichment
import ChatRelay.Error
import ChatRelay.Time.Instant
import ChatRelay.Tool.Basic

/-!
# Stages of a channel

A request passes through the transformers of its channel one after the other; its enrichers then
work side by side, and so do the outputs that take the reply. An enricher or an output may take its
time, fail, or panic, which concerns none of the others.
-/

namespace ChatRelay

/-- One request to a channel. The last two are set when it comes from a scheduled task. -/
structure Request where
  message : String
  user : String
  chat : String
  scheduledAt : Option Instant := none
  taskId : Option String := none
deriving DecidableEq, Repr, Inhabited

/-- A transformer sees the request as it came in beside the message as it stands. -/
structure Transformer where
  name : String
  apply : Request → String → Except PipelineError String

/-- What an enricher may look at besides the request. -/
structure Surroundings where
  /-- The present time, to the minute. -/
  minute : String
  /-- The last turns of a user's conversation, as many as are asked for. -/
  recent : String → Nat → Except StoreError (List Turn)

inductive EnricherOutcome where
  | contributed (e : Enrichment)
  | failed (cause : PipelineError)
  | panicked (reason : String)
deriving DecidableEq, Repr

/-- What an enricher that failed or panicked adds is nothing. -/
def EnricherOutcome.enrichment : EnricherOutcome → Enrichment
  | .contributed e => e
  | .failed _ | .panicked _ => .empty

/-- An enricher sees the request with the transformed message, once its delay is over. -/
structure Enricher where
  name : String
  delayMillis : Nat := 0
  enrich : Surroundings → Request → EnricherOutcome

/-- A reply on its way out: the text, and the request it answers with its message as it came in. -/
structure Dispatch where
  text : String
  user : String
  channel : String
  chat : String
  incoming : String
deriving DecidableEq, Repr, Inhabited

inductive OutputOutcome where
  | delivered
  | failed (cause : DeliveryError)
  | panicked (reason : String)
deriving DecidableEq, Repr

def OutputOutcome.succeeded : OutputOutcome → Bool
  | .delivered => true
  | .failed _ | .panicked _ => false

inductive Medium where
  /-- The log, where nobody reads it. -/
  | log
  /-- A handler of its own, which is told everything about the reply. -/
  | handler
  /-- A transport, which is told the chat and the text. -/
  | transport
deriving DecidableEq, Repr

structure Output where
  name : String
  medium : Medium
  delayMillis : Nat := 0
  send : Dispatch → OutputOutcome

end ChatRelay
