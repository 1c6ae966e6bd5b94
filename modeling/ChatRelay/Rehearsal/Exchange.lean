import ChatRelay.Provider.Http
import ChatRelay.Provider.ToolLoop

/-!
# Scripted exchanges

A generation that talks to a provider by a script: each request takes the next exchange.
-/

namespace ChatRelay.Rehearsal

inductive Exchange where
  | reply (r : Provider.HttpReply)
  /-- The request cannot be sent. -/
  | failure (reason : String)
  /-- The generation is called off while it waits for the reply. -/
  | callOff

def Exchange.answered : Exchange → Provider.Answered
  | .reply r => .answered false r.turn
  | .failure reason => .answered false (.error (.requestFailed Provider.providerName reason))
  | .callOff => .interrupted

/-- The exchange when the script is used up. -/
def Exchange.exhausted : Exchange := .reply ⟨500, [], .ok "script exhausted"⟩

def model (script : List Exchange) : Provider.Model :=
  fun n _ => ((script[n]?).getD .exhausted).answered

/-- A generation by a script, with the requests that it sends. -/
def converse (clock : WallClock) (access : Provider.Access) (system : String) (tools : ToolSet)
    (turns : List Turn) (script : List Exchange) (calledOff : Bool) :
    List Provider.HttpRequest × Except EngineError Provider.Reply :=
  let (g, outcome) := Provider.generate clock tools (model script) turns calledOff
  (g.sent.map (access.request system tools.definitions), outcome)

end ChatRelay.Rehearsal
