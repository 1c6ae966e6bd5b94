import ChatRelay.Provider.Block

/-!
# Turns as the provider has them

Turns of the system are joined to the system prompt. Every other turn becomes a message of blocks:
the results of tools travel as messages of the user, and consecutive ones share a message. A turn
of the assistant without text and calls is left out. The answer of the provider is a list of blocks
that make one turn.
-/

namespace ChatRelay.Provider
open Json

/-- Whose message it is; the provider knows no others. -/
inductive Speaker where
  | user
  | assistant
deriving DecidableEq, Repr, Inhabited

def Speaker.name : Speaker → String
  | .user => "user"
  | .assistant => "assistant"

structure Message where
  speaker : Speaker
  blocks : List Block
deriving DecidableEq, Repr, Inhabited

namespace Message

def toJson (m : Message) : Json :=
  .object [("content", .array (m.blocks.map (·.toJson))), ("role", .string m.speaker.name)]

/-- Whether a message of the user holds nothing but results of tools. -/
def isToolResults (m : Message) : Bool :=
  m.speaker = .user && m.blocks.all (·.isToolResult)

def assistantBlocks (t : Turn) : List Block :=
  (if Text.isBlankText t.content then [] else [.text t.content]) ++
    t.toolCalls.map fun c => .toolUse c.id c.name c.arguments

def resultBlock (t : Turn) : Block := .toolResult (t.toolCallId.getD "") t.content

/-- Put the result of a tool into the last message if that holds results only, and into a message of
its own otherwise. -/
def addResult (messages : List Message) (block : Block) : List Message :=
  match messages.getLast? with
  | some last =>
    if last.isToolResults then
      messages.dropLast ++ [{ last with blocks := last.blocks ++ [block] }]
    else messages ++ [⟨.user, [block]⟩]
  | none => [⟨.user, [block]⟩]

def addTurn (messages : List Message) (t : Turn) : List Message :=
  match t.role with
  | .system => messages
  | .user => messages ++ [⟨.user, [.text t.content]⟩]
  | .assistant =>
    let blocks := assistantBlocks t
    if blocks.isEmpty then messages else messages ++ [⟨.assistant, blocks⟩]
  | .tool => addResult messages (resultBlock t)

def ofTurns (turns : List Turn) : List Message := turns.foldl addTurn []

end Message

/-- The system prompt with the turns of the system below it. -/
def systemText (prompt : String) (turns : List Turn) : String :=
  turns.foldl (fun text t =>
    if t.role = .system then
      (if text = "" then text else text ++ "\n") ++ Text.trim t.content
    else text) (Text.trim prompt)

/-! ## The answer -/

/-- The turn that the blocks of an answer make: all text in one piece, and the calls in order. -/
def turnOfBlocks (blocks : List Block) : Turn where
  role := .assistant
  content := String.join (blocks.filterMap fun
    | .text content => some content
    | _ => none)
  toolCalls := blocks.filterMap fun
    | .toolUse id name input => some ⟨id, name, input⟩
    | _ => none

/-- An answer is a record of which only the blocks matter. -/
def answerRecord : Record (Option (List Block)) (List Block) where
  name := "AnthropicResponse"
  empty := none
  fields := [
    { Field.of "content" (readList Block.read) id (fun v _ => some v) with mayBeLeftOut := true }]
  finish d := .ok (d.getD [])

def readAnswer (text : String) : Except Fault Turn :=
  turnOfBlocks <$> parseWith answerRecord.read text

end ChatRelay.Provider
