import ChatRelay.Channel.Basic
import ChatRelay.Provider.ToolLoop
import ChatRelay.Store.Basic

/-!
# Executions

A request that passes through a channel. Its message is transformed first; the enrichers then work
in any order, and when all are done their contributions go with the message to the engine. A reply
is added to the conversation and sent to the outputs, again in any order. A request that has been
called off before the engine returned leaves no trace.

Every step is given what it brings about: the contribution of an enricher, the outcome of the
engine, the failure of a store, the success of an output.
-/

namespace ChatRelay

structure Prompt where
  system : String
  turns : List Turn
  tools : ToolSet

/-- What a request comes to: the reply, and whether all outputs took it. -/
structure Completion where
  text : String
  turns : List Turn
  delivered : Bool
deriving DecidableEq, Repr, Inhabited

/-- A request on its way, and what stands in for the outputs of its channel, if anything does. -/
structure Passage where
  channel : Channel
  request : Request
  overrides : Option (List Output) := none
  skipsOutputs : Bool := false

namespace Passage

def outputs (p : Passage) : List Output :=
  if p.skipsOutputs then [] else p.overrides.getD p.channel.outputs

def dispatch (p : Passage) (reply : Provider.Reply) : Dispatch where
  text := reply.text
  user := p.request.user
  channel := p.channel.id
  chat := p.request.chat
  incoming := p.request.message

/-- What the engine is asked: the recalled conversation, and the message with what was added. -/
def prompt (p : Passage) (message : String) (contributions : List Enrichment) : Prompt :=
  let e := Enrichment.merge contributions
  { system := p.channel.systemPrompt
    turns := e.history.getD [] ++ [.user (Enrichment.assemble message e.context)]
    tools := p.channel.tools p.request }

def enrichmentRequest (p : Passage) (message : String) : Request := { p.request with message }

end Passage

def turnsToKeep (message : String) (reply : Provider.Reply) : List Turn :=
  .user message :: reply.turns

/-- Everything in a list of slots, once none is empty. -/
def filled? {α : Type} (slots : List (Option α)) : Option (List α) := slots.mapM id

/-- Put something into a slot that is empty. -/
def fillSlot {α : Type} (slots : List (Option α)) (i : Nat) (a : α) : List (Option α) :=
  slots.modify i fun slot => slot.or (some a)

inductive Execution where
  | enriching (passage : Passage) (message : String) (slots : List (Option Enrichment))
  | generating (passage : Passage) (message : String) (prompt : Prompt)
  | keeping (passage : Passage) (message : String) (reply : Provider.Reply)
  | delivering (passage : Passage) (reply : Provider.Reply) (slots : List (Option Bool))
  | finished (result : Except PipelineError Completion)

namespace Execution

def emptySlots {α β : Type} (items : List β) : List (Option α) := items.map fun _ => none

def start (passage : Passage) : Execution :=
  match passage.channel.transform passage.request with
  | .ok message => .enriching passage message (emptySlots passage.channel.enrichers)
  | .error cause => .finished (.error cause)

def begin (channels : ChannelRegistry) (id : String) (request : Request)
    (overrides : Option (List Output)) (skipsOutputs : Bool) : Execution :=
  match channels.get id with
  | .ok channel => start { channel, request, overrides, skipsOutputs }
  | .error cause => .finished (.error (.config cause))

/-- An enricher is done; one that failed contributes nothing. -/
def enriched (slot : Nat) (outcome : EnricherOutcome) : Execution → Execution
  | .enriching p message slots => .enriching p message (fillSlot slots slot outcome.enrichment)
  | e => e

/-- Turn to the engine once all enrichers are done, unless the request has been called off. -/
def compose (calledOff : Bool) : Execution → Execution
  | .enriching p message slots =>
    match filled? slots with
    | none => .enriching p message slots
    | some contributions =>
      if calledOff then .finished (.error .cancelled)
      else .generating p message (p.prompt message contributions)
  | e => e

/-- The engine returned; a reply to a request that has been called off does not count. -/
def generated (calledOff : Bool) (outcome : Except EngineError Provider.Reply) :
    Execution → Execution
  | .generating p message _ =>
    match outcome with
    | .error cause => .finished (.error (.ofEngine cause))
    | .ok reply =>
      if calledOff then .finished (.error .cancelled) else .keeping p message reply
  | e => e

def deliver (p : Passage) (reply : Provider.Reply) (slots : List (Option Bool)) : Execution :=
  match filled? slots with
  | some successes => .finished (.ok ⟨reply.text, reply.turns, successes.all id⟩)
  | none => .delivering p reply slots

/-- Add the message and the reply to the conversation. A store that fails keeps nothing, and the
request goes on. -/
def keep {σ : Type} [Conversations σ] (fault : Option StoreError) (s : σ) :
    Execution → σ × Execution
  | .keeping p message reply =>
    let s := match fault with
      | some _ => s
      | none => Conversations.addTurns s p.request.user (turnsToKeep message reply)
    (s, deliver p reply (emptySlots p.outputs))
  | e => (s, e)

def delivered (slot : Nat) (success : Bool) : Execution → Execution
  | .delivering p reply slots => deliver p reply (fillSlot slots slot success)
  | e => e

def result? : Execution → Option (Except PipelineError Completion)
  | .finished result => some result
  | _ => none

end Execution
end ChatRelay
