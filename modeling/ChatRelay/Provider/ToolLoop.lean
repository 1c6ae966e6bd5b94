import ChatRelay.Channel.Stage

/-!
# The tool loop

A generation asks the model in rounds: the tools that an answer calls are run, their results join
the conversation, and the model is asked again, until an answer calls none. A generation that has
been called off asks and runs nothing more.
-/

namespace ChatRelay.Provider

/-- What comes of a generation: the text of the reply, and the turns it consists of. -/
structure Reply where
  text : String
  turns : List Turn
deriving DecidableEq, Repr, Inhabited

inductive Answered where
  /-- The generation was called off while it waited. -/
  | interrupted
  /-- The model answered, or could not be asked; `calledOff` says whether the generation was called
  off in the meantime. -/
  | answered (calledOff : Bool) (outcome : Except EngineError Turn)

/-- The model as it answers its `n`-th request, which carries a conversation. -/
abbrev Model := Nat → List Turn → Answered

/-- What surrounds the run of a tool: the time, and whether anyone but the tool calls the generation
off in the meantime. -/
structure Moment where
  clock : WallClock
  calledOff : Bool := false

/-- A generation between two steps. -/
structure Generation where
  /-- The conversation so far. -/
  transcript : List Turn
  /-- The turns of it that the generation has added. -/
  produced : List Turn := []
  calledOff : Bool := false
  /-- The conversations that have been sent, in order. -/
  sent : List (List Turn) := []
  /-- The calls whose tools have been run, in order. -/
  executed : List ToolCall := []
deriving DecidableEq, Repr

namespace Generation

def add (g : Generation) (t : Turn) : Generation :=
  { g with transcript := g.transcript ++ [t], produced := g.produced ++ [t] }

/-- What a call yields: the answer of its tool, or the text of an error. -/
def callOutcome (clock : WallClock) (tools : ToolSet) (call : ToolCall) : ToolOutcome :=
  match tools.find? call.name with
  | some tool => tool.run clock call.arguments
  | none => { result := .error (.notFound call.name) }

def resultText : Except ToolError String → String
  | .ok text => text
  | .error cause => "Error: " ++ cause.message

def call (g : Generation) (moment : Moment) (tools : ToolSet) (c : ToolCall) : Generation :=
  let outcome := callOutcome moment.clock tools c
  { g.add (.toolResult c.id (resultText outcome.result)) with
    calledOff := g.calledOff || moment.calledOff || outcome.cancels
    executed := g.executed ++ [c] }

/-- Run the tools of calls in order, as long as the generation is not called off; the second part
says whether all were run. The `n`-th call of a generation meets the `n`-th moment. -/
def callAll (moments : Nat → Moment) (tools : ToolSet) :
    List ToolCall → Generation → Generation × Bool
  | [], g => (g, true)
  | c :: rest, g =>
    if g.calledOff then (g, false)
    else callAll moments tools rest (g.call (moments g.executed.length) tools c)

/-- Ask the model at most as often as the number after `maxRounds` says. -/
def rounds (moments : Nat → Moment) (tools : ToolSet) (model : Model) (maxRounds : Nat) :
    Nat → Generation → Generation × Except EngineError Reply
  | 0, g => (g, .error (.toolLoopExceeded maxRounds))
  | left + 1, g =>
    if g.calledOff then (g, .error .cancelled)
    else
      let asked := { g with sent := g.sent ++ [g.transcript] }
      match model g.sent.length g.transcript with
      | .interrupted => ({ asked with calledOff := true }, .error .cancelled)
      | .answered calledOff (.error cause) => ({ asked with calledOff }, .error cause)
      | .answered calledOff (.ok turn) =>
        let g := { asked with calledOff }.add turn
        if turn.toolCalls.isEmpty then (g, .ok ⟨turn.content, g.produced⟩)
        else
          match callAll moments tools turn.toolCalls g with
          | (g, true) => rounds moments tools model maxRounds left g
          | (g, false) => (g, .error .cancelled)

end Generation

def maxRounds : Nat := 8

/-- Generate a reply to a conversation, where calls meet the given moments. -/
def generateAmid (moments : Nat → Moment) (tools : ToolSet) (model : Model) (turns : List Turn)
    (calledOff : Bool) : Generation × Except EngineError Reply :=
  Generation.rounds moments tools model maxRounds maxRounds { transcript := turns, calledOff }

/-- Generate a reply to a conversation while the clock stands still, and nobody but the model and
the tools interferes. -/
def generate (clock : WallClock) (tools : ToolSet) (model : Model) (turns : List Turn)
    (calledOff : Bool) : Generation × Except EngineError Reply :=
  generateAmid (fun _ => { clock }) tools model turns calledOff

end ChatRelay.Provider
