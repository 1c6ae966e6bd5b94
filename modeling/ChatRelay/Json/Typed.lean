import ChatRelay.Json.Reader

/-!
# Reading values of a known type

A typed reader takes a value off the front of a text and complains as soon as something of another
type stands there, before it looks at the rest of the text. A record is read from an object, with
its fields in any order and unknown members skipped, or from a list of its fields in order.
-/

namespace ChatRelay.Json

/-- Complain about the value at the front of the text, which is of another type than `expected`.
A malformed value is refused as such. -/
def wrongTypeHere {α : Type} (expected : String) : Reader α := do
  match ← peek with
  | some 'n' => eat; literal ['u', 'l', 'l']; throw (.wrongType .null expected)
  | some 't' => eat; literal ['r', 'u', 'e']; throw (.wrongType (.bool true) expected)
  | some 'f' => eat; literal ['a', 'l', 's', 'e']; throw (.wrongType (.bool false) expected)
  | some '"' => eat; throw (.wrongType (.string (← restOfString)) expected)
  | some '[' => throw (.wrongType .sequence expected)
  | some '\x7b' => throw (.wrongType .map expected)
  | some c =>
    if c = '-' ∨ c.isDigit then throw (.wrongType (found (← anyNumber)) expected)
    else refuse .expectedValue
  | none => refuse .expectedValue

/-- A string; `expected` is what complaints call it. -/
def readStringAs (expected : String) : Reader String := do
  match ← peekToken with
  | none => refuse .endInValue
  | some '"' => eat; restOfString
  | some _ => wrongTypeHere expected

def readString : Reader String := readStringAs "a string"

/-- A whole number of 64 bits with sign. -/
def readInt64 : Reader Int := do
  match ← peekToken with
  | none => refuse .endInValue
  | some c =>
    if c = '-' ∨ c.isDigit then
      match ← anyNumber with
      | .integer v =>
        if v < Numeral.values63 then return v else throw (.wrongValue (.integer v) "i64")
      | other => throw (.wrongType (found other) "i64")
    else wrongTypeHere "i64"

/-- A value that may be absent, in whose place stands `null`. -/
def readOptional {α : Type} (read : Reader α) : Reader (Option α) := do
  match ← peekToken with
  | some 'n' => eat; literal ['u', 'l', 'l']; return none
  | _ => some <$> read

/-- The items of a list whose bracket has been taken. -/
def itemsOf {α : Type} (read : Reader α) : Nat → Bool → Reader (List α)
  | 0, _ => refuse .tooDeep
  | fuel + 1, first => do
    if ← listGoesOn first then
      let item ← read
      let rest ← itemsOf read fuel false
      return item :: rest
    else
      eat
      return []

def readList {α : Type} (read : Nat → Reader α) (depth : Nat) : Reader (List α) := do
  match ← peekToken with
  | none => refuse .endInValue
  | some '[' =>
    let inner ← enter depth
    eat
    itemsOf (read inner) (fuelFor (← get)) true
  | some _ => wrongTypeHere "a sequence"

/-- The place of a name in a choice of names. -/
def variantOf (names : List String) (name : String) : Reader Nat :=
  match names.findIdx? (· == name) with
  | some i => pure i
  | none => throw (.unknownVariant name names)

/-- One of several names, as a string or as an object with the name as its only key and `null`
under it. -/
def readVariant (names : List String) (depth : Nat) : Reader Nat := do
  match ← peekToken with
  | none => refuse .endInValue
  | some '"' =>
    eat
    variantOf names (← restOfString)
  | some '\x7b' =>
    let _ ← enter depth
    eat
    let variant ← variantOf names (← readStringAs "variant identifier")
    colon
    match ← peekToken with
    | none => refuse .endInValue
    | some 'n' => eat; literal ['u', 'l', 'l']
    | some _ => wrongTypeHere "unit"
    match ← peekToken with
    | some '\x7d' => eat
    | some _ => refuse .expectedValue
    | none => refuse .endInObject
    return variant
  | some _ => refuse .expectedValue

/-! ## Records -/

/-- A field of a record that is read into a draft of type `σ`. -/
structure Field (σ : Type) where
  name : String
  isSet : σ → Bool
  read : Nat → σ → Reader σ
  /-- Whether a list of fields may end before this one. -/
  mayBeLeftOut : Bool := false

/-- A field whose value is kept in one place of the draft. -/
def Field.of {σ β : Type} (name : String) (read : Nat → Reader β) (get : σ → Option β)
    (set : β → σ → σ) : Field σ where
  name := name
  isSet draft := (get draft).isSome
  read depth draft := do return set (← read depth) draft

/-- A record is read field by field into a draft; `finish` names the first field that is missing. -/
structure Record (σ α : Type) where
  name : String
  empty : σ
  fields : List (Field σ)
  finish : σ → Except Fault α

namespace Record
variable {σ α : Type}

def typeName (r : Record σ α) : String := "struct " ++ r.name

def arity (r : Record σ α) : String :=
  r.typeName ++ " with " ++ Numeral.naturalText r.fields.length ++
    (if r.fields.length = 1 then " element" else " elements")

/-- The fields in order, from a list whose bracket has been taken. -/
def positional (r : Record σ α) (depth : Nat) : List (Field σ) → Nat → σ → Reader σ
  | [], _, draft => pure draft
  | field :: rest, i, draft => do
    if ← listGoesOn (i = 0) then
      let draft ← field.read depth draft
      r.positional depth rest (i + 1) draft
    else if field.mayBeLeftOut then r.positional depth rest (i + 1) draft
    else throw (.wrongLength i r.arity)

/-- A list ends right after the last field. -/
def endOfPositional : Reader Unit := do
  match ← peekToken with
  | some ']' => eat
  | some ',' =>
    eat
    if (← peekToken) == some ']' then refuse .trailingComma else refuse .trailingCharacters
  | some _ => refuse .trailingCharacters
  | none => refuse .endInList

/-- The members of an object whose brace has been taken, up to its end. -/
def members (r : Record σ α) (depth : Nat) : Nat → Bool → σ → Reader σ
  | 0, _, _ => refuse .tooDeep
  | fuel + 1, first, draft => do
    if ← objectGoesOn first then
      let key ← restOfString
      match r.fields.find? (·.name == key) with
      | some field =>
        if field.isSet draft then throw (.duplicateField key)
        colon
        let draft ← field.read depth draft
        r.members depth fuel false draft
      | none =>
        colon
        skipValue
        r.members depth fuel false draft
    else return draft

def read (r : Record σ α) (depth : Nat) : Reader α := do
  match ← peekToken with
  | none => refuse .endInValue
  | some '[' =>
    let inner ← enter depth
    eat
    let draft ← r.positional inner r.fields 0 r.empty
    let value ← r.finish draft
    endOfPositional
    return value
  | some '\x7b' =>
    let inner ← enter depth
    eat
    let draft ← r.members inner (fuelFor (← get)) true r.empty
    let value ← r.finish draft
    eat
    return value
  | some _ => wrongTypeHere r.typeName

end Record

/-- The value of a field that must be given. -/
def required {α : Type} (name : String) : Option α → Except Fault α
  | some value => .ok value
  | none => .error (.missingField name)

end ChatRelay.Json
