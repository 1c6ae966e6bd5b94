import ChatRelay.Conversation.Turn
import ChatRelay.Error

/-!
# Tools

A tool has a name, tells the model what it is for, and answers a call with text. Factories make
the tools for one request; a tool that is made later replaces one of the same name.
-/

namespace ChatRelay

/-- The present time, written at an offset in seconds from universal time. -/
abbrev WallClock := Int → String

/-- What a run of a tool brings about. -/
structure ToolOutcome where
  /-- Whether the tool called off the generation that called it. -/
  cancels : Bool := false
  result : Except ToolError String

structure Tool where
  name : String
  description : String
  parameters : Json
  run : WallClock → Json → ToolOutcome

namespace Tool

def definition (t : Tool) : ToolDefinition :=
  ⟨t.name, t.description, t.parameters⟩

/-- The string under a key of the parameters. -/
def optionalString (params : Json) (key : String) : Option String :=
  (params.get? key).bind Json.string?

def requiredString (params : Json) (key tool : String) : Except ToolError String :=
  match optionalString params key with
  | some s => .ok s
  | none => .error (.invalidParameters tool ("missing string parameter '" ++ key ++ "'"))

end Tool

/-- Whom a request is for. -/
structure ToolScope where
  user : String
  chat : String
deriving DecidableEq, Repr

/-- Tools under their names, each name once. -/
abbrev ToolSet := List (String × Tool)

namespace ToolSet

def find? (tools : ToolSet) (name : String) : Option Tool := tools.lookup name

/-- Put a tool under a name, in the place of the one that was there. -/
def insert (tools : ToolSet) (name : String) (tool : Tool) : ToolSet :=
  tools.filter (·.1 ≠ name) ++ [(name, tool)]

/-- Later tools over earlier ones. -/
def override (tools later : ToolSet) : ToolSet :=
  later.foldl (fun set (name, tool) => set.insert name tool) tools

/-- Tools under their own names; of equal names the last one stays. -/
def ofList (tools : List Tool) : ToolSet :=
  tools.foldl (fun set tool => set.insert tool.name tool) []

/-- Put a definition before the first one with a greater name. -/
def insertByName (d : ToolDefinition) : List ToolDefinition → List ToolDefinition
  | [] => [d]
  | e :: rest => if e.name < d.name then e :: insertByName d rest else d :: e :: rest

/-- What the model is told about the tools, in the order of their names. -/
def definitions (tools : ToolSet) : List ToolDefinition :=
  tools.foldl (fun sorted (_, tool) => insertByName tool.definition sorted) []

end ToolSet

structure ToolFactory where
  name : String
  create : ToolScope → ToolSet

namespace ToolFactory

/-- The same tools for every request. -/
def fixed (name : String) (tools : List Tool) : ToolFactory :=
  ⟨name, fun _ => ToolSet.ofList tools⟩

/-- The tools of all factories, a later one over an earlier one. -/
def compose (factories : List ToolFactory) (scope : ToolScope) : ToolSet :=
  factories.foldl (fun set factory => set.override (factory.create scope)) []

end ToolFactory
end ChatRelay
