import ChatRelay.Conversation.Turn
import ChatRelay.Text.Blank

/-!
# Content blocks

The model provider speaks of messages that hold blocks: text, the use of a tool, or the result of
one. A block is read from an object whose member `type` names its kind, wherever that member
stands, or from a list that begins with the kind. Blocks of a kind that is not known are kept as
such, whatever else they hold.
-/

namespace ChatRelay.Provider
open Json

inductive Block where
  | text (text : String)
  | toolUse (id name : String) (input : Json)
  | toolResult (callId content : String)
  | unknown
deriving DecidableEq, Repr, Inhabited

namespace Block

def isToolResult : Block → Bool
  | .toolResult _ _ => true
  | _ => false

/-- As data; a block of unknown kind is never written. -/
def toJson : Block → Json
  | .text content => .object [("text", .string content), ("type", .string "text")]
  | .toolUse id name input =>
    .object [("id", .string id), ("input", input), ("name", .string name),
      ("type", .string "tool_use")]
  | .toolResult callId content =>
    .object [("content", .string content), ("tool_use_id", .string callId),
      ("type", .string "tool_result")]
  | .unknown => .object [("type", .string "unknown")]

/-! ## The fields of a block -/

inductive Kind where
  | text
  | toolUse
  | toolResult
  | unknown
deriving DecidableEq, Repr

def Kind.ofName : String → Kind
  | "text" => .text
  | "tool_use" => .toolUse
  | "tool_result" => .toolResult
  | _ => .unknown

def Kind.typeName : Kind → String
  | .text => "struct variant AnthropicContentBlock::Text"
  | .toolUse => "struct variant AnthropicContentBlock::ToolUse"
  | .toolResult => "struct variant AnthropicContentBlock::ToolResult"
  | .unknown => "unit variant AnthropicContentBlock::Unknown"

/-- The names of the fields, in order, and whether each holds free JSON rather than a string. -/
def Kind.fields : Kind → List (String × Bool)
  | .text => [("text", false)]
  | .toolUse => [("id", false), ("name", false), ("input", true)]
  | .toolResult => [("tool_use_id", false), ("content", false)]
  | .unknown => []

/-- The value of a field: free JSON, or a string and nothing else. -/
def fieldValue (free : Bool) (value : Json) : Except Fault Json :=
  if free then .ok value.canonical
  else
    match value with
    | .string s => .ok (.string s)
    | other => .error (.wrongType (found other) "a string")

/-- Go through the members of a block in the order they are written, and collect its fields. -/
def collect (fields : List (String × Bool)) :
    List (String × Json) → List (String × Json) → Except Fault (List (String × Json))
  | [], values => .ok values
  | (key, value) :: rest, values =>
    match fields.lookup key with
    | none => collect fields rest values
    | some free => do
      if (values.lookup key).isSome then throw (.duplicateField key)
      let value ← fieldValue free value
      collect fields rest (values ++ [(key, value)])

/-- The collected fields in the order of their names; the first that is missing is named. -/
def inOrder (values : List (String × Json)) : List (String × Bool) → Except Fault (List Json)
  | [] => .ok []
  | (name, _) :: rest =>
    match values.lookup name with
    | none => .error (.missingField name)
    | some value => do return value :: (← inOrder values rest)

def ofFields : Kind → List Json → Block
  | .text, [.string content] => .text content
  | .toolUse, [.string id, .string name, input] => .toolUse id name input
  | .toolResult, [.string callId, .string content] => .toolResult callId content
  | _, _ => .unknown

def ofMembers (kind : Kind) (members : List (String × Json)) : Except Fault Block := do
  let values ← collect kind.fields members []
  return ofFields kind (← inOrder values kind.fields)

def plural (n : Nat) : String := if n = 1 then "1 element" else Numeral.naturalText n ++ " elements"

/-- The fields of a block given as a list; it may be neither too short nor too long. -/
def ofItems (kind : Kind) (items : List Json) : Except Fault Block := do
  let fields := kind.fields
  let values ← (fields.zip items).mapM fun ((_, free), value) => fieldValue free value
  if values.length < fields.length then
    throw (.wrongLength values.length (kind.typeName ++ " with " ++ plural fields.length))
  if fields.length < items.length then
    throw (.wrongLength items.length (plural fields.length ++ " in sequence"))
  return ofFields kind values

/-! ## Reading blocks -/

def tagName : String := "type"
def typeName : String := "internally tagged enum AnthropicContentBlock"

def readKind : Reader Kind := do return Kind.ofName (← readStringAs "variant identifier")

/-- The members of a block whose brace has been taken: its kind, and all the others. -/
def readMembers (depth : Nat) :
    Nat → Bool → Option Kind → List (String × Json) → Reader (Kind × List (String × Json))
  | 0, _, _, _ => refuse .tooDeep
  | fuel + 1, first, kind, members => do
    if ← objectGoesOn first then
      let key ← restOfString
      if key = tagName then
        if kind.isSome then throw (.duplicateField tagName)
        colon
        let kind ← readKind
        readMembers depth fuel false (some kind) members
      else
        colon
        let value ← rawValue depth
        readMembers depth fuel false kind (members ++ [(key, value)])
    else
      match kind with
      | none => throw (.missingField tagName)
      | some kind => return (kind, members)

def read (depth : Nat) : Reader Block := do
  match ← peekToken with
  | none => refuse .endInValue
  | some '\x7b' =>
    let inner ← enter depth
    eat
    let (kind, members) ← readMembers inner (fuelFor (← get)) true none []
    eat
    liftM (ofMembers kind members)
  | some '[' =>
    let inner ← enter depth
    eat
    if !(← listGoesOn true) then throw (.missingField tagName)
    let kind ← readKind
    let items ← itemsOf (rawValue inner) (fuelFor (← get)) false
    liftM (ofItems kind items)
  | some _ => wrongTypeHere typeName

end Block
end ChatRelay.Provider
