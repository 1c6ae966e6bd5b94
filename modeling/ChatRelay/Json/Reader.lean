import ChatRelay.Json.Fault

/-!
# Reading JSON text

A reader takes characters off the front of a text and yields a value or a fault. Readers of scalars
come first, then `readValue` for any value and `skipValue` for a member nobody asked for; the
second never looks at the size of numbers, the pairing of surrogates or the depth of nesting.
Nesting is limited elsewhere: a reader is told how many levels, its own included, are left.
-/

namespace ChatRelay.Json

abbrev Reader := StateT (List Char) (Except Fault)

def refuse {α : Type} (cause : Malformed) : Reader α := throw (.malformed cause)

def isSpace (c : Char) : Bool :=
  c == ' ' || c == '\n' || c == '\t' || c == '\r'

def peek : Reader (Option Char) := do return (← get).head?

def eat : Reader Unit := modify List.tail

/-- Skip blanks, then look at the next character without taking it. -/
def peekToken : Reader (Option Char) := do
  modify (·.dropWhile isSpace)
  peek

def next : Reader (Option Char) := do
  let c ← peek
  eat
  return c

/-- The rest of a literal whose first character has been taken. -/
def literal : List Char → Reader Unit
  | [] => pure ()
  | c :: rest => do
    match ← next with
    | none => refuse .endInValue
    | some d => if d = c then literal rest else refuse .expectedLiteral

/-! ## Strings -/

def hexValue? (c : Char) : Option Nat :=
  if c.isDigit then some (c.toNat - '0'.toNat)
  else if 'a' ≤ c ∧ c ≤ 'f' then some (c.toNat - 'a'.toNat + 10)
  else if 'A' ≤ c ∧ c ≤ 'F' then some (c.toNat - 'A'.toNat + 10)
  else none

/-- Four hexadecimal digits. Fewer than four bytes up to the end of the text are an unfinished
string, whatever they are. -/
def hexQuad? (cs : List Char) : Except Fault (Nat × List Char) :=
  match cs with
  | a :: b :: c :: d :: rest =>
    match hexValue? a, hexValue? b, hexValue? c, hexValue? d with
    | some a, some b, some c, some d => .ok (4096 * a + 256 * b + 16 * c + d, rest)
    | _, _, _, _ => .error (.malformed .invalidEscape)
  | cs =>
    if cs.foldl (fun n c => n + c.utf8Size) 0 < 4 then .error (.malformed .endInString)
    else .error (.malformed .invalidEscape)

def isLeading (n : Nat) : Bool := 0xD800 ≤ n && n ≤ 0xDBFF
def isTrailing (n : Nat) : Bool := 0xDC00 ≤ n && n ≤ 0xDFFF

/-- What follows `\u`. A leading surrogate needs a trailing one in an escape of its own. -/
def unicodeEscape (cs : List Char) : Except Fault (Char × List Char) := do
  let (n, rest) ← hexQuad? cs
  if isTrailing n then throw (.malformed .loneSurrogate)
  if !isLeading n then return (Char.ofNat n, rest)
  match rest with
  | [] => throw (.malformed .endInString)
  | ['\\'] => throw (.malformed .endInString)
  | '\\' :: 'u' :: rest =>
    let (m, rest) ← hexQuad? rest
    if isTrailing m then
      return (Char.ofNat (0x10000 + 0x400 * (n - 0xD800) + (m - 0xDC00)), rest)
    else throw (.malformed .loneSurrogate)
  | _ => throw (.malformed .unfinishedSurrogatePair)

/-- Inside a skipped member any four digits will do; the character is not used. -/
def looseUnicodeEscape (cs : List Char) : Except Fault (Char × List Char) := do
  let (_, rest) ← hexQuad? cs
  return ('u', rest)

/-- What follows a backslash. -/
def escape (unicode : List Char → Except Fault (Char × List Char)) :
    List Char → Except Fault (Char × List Char)
  | [] => .error (.malformed .endInString)
  | c :: rest =>
    if c = '"' ∨ c = '\\' ∨ c = '/' then .ok (c, rest)
    else if c = 'b' then .ok ('\x08', rest)
    else if c = 'f' then .ok ('\x0c', rest)
    else if c = 'n' then .ok ('\n', rest)
    else if c = 'r' then .ok ('\r', rest)
    else if c = 't' then .ok ('\t', rest)
    else if c = 'u' then unicode rest
    else .error (.malformed .invalidEscape)

/-- The characters up to the closing quote. Every step takes at least one character, so as much
fuel as there are characters suffices. -/
def stringBody (unicode : List Char → Except Fault (Char × List Char)) :
    Nat → List Char → List Char → Except Fault (List Char × List Char)
  | 0, _, _ | _, _, [] => .error (.malformed .endInString)
  | fuel + 1, read, c :: rest =>
    if c = '"' then .ok (read.reverse, rest)
    else if c = '\\' then do
      let (c, rest) ← escape unicode rest
      stringBody unicode fuel (c :: read) rest
    else if c.toNat < 0x20 then .error (.malformed .controlCharacter)
    else stringBody unicode fuel (c :: read) rest

/-- A string whose opening quote has been taken. -/
def restOfString : Reader String := fun cs => do
  let (read, rest) ← stringBody unicodeEscape cs.length [] cs
  return (.ofList read, rest)

def skipRestOfString : Reader Unit := fun cs => do
  let (_, rest) ← stringBody looseUnicodeEscape cs.length [] cs
  return ((), rest)

/-! ## Numbers -/

def digits : Reader (List Char) := fun cs =>
  .ok (cs.takeWhile Char.isDigit, cs.dropWhile Char.isDigit)

/-- The digits before a point or an exponent: a single zero, or a string not led by zero. -/
def wholeDigits : Reader (List Char) := do
  match ← next with
  | none => refuse .endInValue
  | some c =>
    if c = '0' then
      if (← peek).any Char.isDigit then refuse .invalidNumber
      return ['0']
    else if c.isDigit then return c :: (← digits)
    else refuse .invalidNumber

/-- At least one digit after a point. -/
def fractionDigits : Reader (List Char) := do
  let ds ← digits
  if ds.isEmpty then
    match ← peek with
    | some _ => refuse .invalidNumber
    | none => refuse .endInValue
  return ds

/-- The exponent after its letter: a sign, if any, and at least one digit. -/
def exponentValue : Reader Int := do
  let negative := (← peek) == some '-'
  if (← peek) == some '-' || (← peek) == some '+' then eat
  match ← next with
  | none => refuse .endInValue
  | some c =>
    if !c.isDigit then refuse .invalidNumber
    let n : Int := Numeral.ofDigits 0 (c :: (← digits))
    return if negative then -n else n

/-- A number as it is stored: whole if it is written without point and exponent, fits its word and
is not minus zero, and a float otherwise. -/
def number (negative : Bool) (whole fraction : List Char) (exponent : Option Int) :
    Reader Json := do
  let significand := Numeral.ofDigits 0 (whole ++ fraction)
  let isWhole := fraction.isEmpty && exponent.isNone
  if isWhole && !negative && significand < Numeral.values64 then return .integer significand
  if isWhole && negative && 0 < significand && significand ≤ Numeral.values63 then
    return .integer (-(significand : Int))
  match Binary64.ofDecimal? negative significand (exponent.getD 0 - fraction.length) with
  | some x => return .float x
  | none => refuse .numberOutOfRange

def restOfNumber (negative : Bool) : Reader Json := do
  let whole ← wholeDigits
  let fraction ← if (← peek) == some '.' then do eat; fractionDigits else pure []
  let exponent ← if (← peek) == some 'e' || (← peek) == some 'E' then do
    eat
    some <$> exponentValue
  else pure none
  number negative whole fraction exponent

def anyNumber : Reader Json := do
  if (← peek) == some '-' then
    eat
    restOfNumber true
  else restOfNumber false

/-- Skip a number whose sign has been taken; wherever it breaks off, it is the number that is at
fault. -/
def skipRestOfNumber : Reader Unit := do
  match ← next with
  | some '0' => if (← peek).any Char.isDigit then refuse .invalidNumber
  | some c => if c.isDigit then discard digits else refuse .invalidNumber
  | none => refuse .invalidNumber
  if (← peek) == some '.' then
    eat
    if (← digits).isEmpty then refuse .invalidNumber
  if (← peek) == some 'e' || (← peek) == some 'E' then
    eat
    if (← peek) == some '-' || (← peek) == some '+' then eat
    if (← digits).isEmpty then refuse .invalidNumber

/-! ## Lists and objects -/

/-- Whether a list goes on: at its first item, or after the one before. -/
def listGoesOn (first : Bool) : Reader Bool := do
  match ← peekToken with
  | none => refuse .endInList
  | some ']' => return false
  | some ',' =>
    if first then return true
    eat
    match ← peekToken with
    | some ']' => refuse .trailingComma
    | some _ => return true
    | none => refuse .endInValue
  | some _ => if first then return true else refuse .expectedListCommaOrEnd

/-- Whether an object goes on, and if so with a key, whose opening quote is taken. -/
def objectGoesOn (first : Bool) : Reader Bool := do
  match ← peekToken with
  | none => refuse .endInObject
  | some '\x7d' => return false
  | some ',' =>
    if first then refuse .keyNotString
    eat
    match ← peekToken with
    | some '"' => eat; return true
    | some '\x7d' => refuse .trailingComma
    | some _ => refuse .keyNotString
    | none => refuse .endInValue
  | some '"' => if first then do eat; return true else refuse .expectedObjectCommaOrEnd
  | some _ => if first then refuse .keyNotString else refuse .expectedObjectCommaOrEnd

def colon : Reader Unit := do
  match ← peekToken with
  | some ':' => eat
  | some _ => refuse .expectedColon
  | none => refuse .endInObject

/-- The levels left inside a list or an object. -/
def enter (depth : Nat) : Reader Nat :=
  if depth ≤ 1 then refuse .tooDeep else pure (depth - 1)

mutual

/-- Any value, its objects as they are written. The first argument is fuel: no chain of calls is
longer than twice the text. -/
def valueWithin : Nat → Nat → Reader Json
  | 0, _ => refuse .tooDeep
  | fuel + 1, depth => do
    match ← peekToken with
    | none => refuse .endInValue
    | some 'n' => eat; literal ['u', 'l', 'l']; return .null
    | some 't' => eat; literal ['r', 'u', 'e']; return .bool true
    | some 'f' => eat; literal ['a', 'l', 's', 'e']; return .bool false
    | some '"' => eat; return .string (← restOfString)
    | some '[' =>
      let inner ← enter depth
      eat
      return .array (← itemsWithin fuel inner true)
    | some '\x7b' =>
      let inner ← enter depth
      eat
      return .object (← membersWithin fuel inner true)
    | some c => if c = '-' ∨ c.isDigit then anyNumber else refuse .expectedValue

def itemsWithin : Nat → Nat → Bool → Reader (List Json)
  | 0, _, _ => refuse .tooDeep
  | fuel + 1, depth, first => do
    if ← listGoesOn first then
      let item ← valueWithin fuel depth
      let rest ← itemsWithin fuel depth false
      return item :: rest
    else
      eat
      return []

def membersWithin : Nat → Nat → Bool → Reader (List (String × Json))
  | 0, _, _ => refuse .tooDeep
  | fuel + 1, depth, first => do
    if ← objectGoesOn first then
      let key ← restOfString
      colon
      let value ← valueWithin fuel depth
      let rest ← membersWithin fuel depth false
      return (key, value) :: rest
    else
      eat
      return []

end

/-- Fuel that outlasts every reader of the text. -/
def fuelFor (cs : List Char) : Nat := 2 * cs.length + 2

/-- A value as it is written: objects keep repeated keys and the order of their members. -/
def rawValue (depth : Nat) : Reader Json := do
  valueWithin (fuelFor (← get)) depth

def readValue (depth : Nat) : Reader Json := do
  return (← rawValue depth).canonical

inductive Frame where
  | list
  | object
deriving DecidableEq, Repr

def skipKey : Reader Unit := do
  match ← peekToken with
  | some '"' => eat
  | some _ => refuse .keyNotString
  | none => refuse .endInObject
  skipRestOfString
  colon

mutual

/-- Skip a value and close the frames around it. -/
def skipWithin : Nat → List Frame → Reader Unit
  | 0, _ => refuse .tooDeep
  | fuel + 1, frames => do
    match ← peekToken with
    | none => refuse .endInValue
    | some 'n' => eat; literal ['u', 'l', 'l']; closeFrames fuel frames
    | some 't' => eat; literal ['r', 'u', 'e']; closeFrames fuel frames
    | some 'f' => eat; literal ['a', 'l', 's', 'e']; closeFrames fuel frames
    | some '"' => eat; skipRestOfString; closeFrames fuel frames
    | some '-' => eat; skipRestOfNumber; closeFrames fuel frames
    | some '[' =>
      eat
      match ← peekToken with
      | none => refuse .endInList
      | some ']' => eat; closeFrames fuel frames
      | some _ => skipWithin fuel (.list :: frames)
    | some '\x7b' =>
      eat
      match ← peekToken with
      | none => refuse .endInObject
      | some '\x7d' => eat; closeFrames fuel frames
      | some _ => skipKey; skipWithin fuel (.object :: frames)
    | some c =>
      if c.isDigit then do
        skipRestOfNumber
        closeFrames fuel frames
      else refuse .expectedValue

/-- After a value: on to the next in the innermost frame, or out of it. -/
def closeFrames : Nat → List Frame → Reader Unit
  | 0, _ => refuse .tooDeep
  | _ + 1, [] => pure ()
  | fuel + 1, .list :: frames => do
    match ← peekToken with
    | none => refuse .endInList
    | some ',' => eat; skipWithin fuel (.list :: frames)
    | some ']' => eat; closeFrames fuel frames
    | some _ => refuse .expectedListCommaOrEnd
  | fuel + 1, .object :: frames => do
    match ← peekToken with
    | none => refuse .endInObject
    | some ',' => eat; skipKey; skipWithin fuel (.object :: frames)
    | some '\x7d' => eat; closeFrames fuel frames
    | some _ => refuse .expectedObjectCommaOrEnd

end

def skipValue : Reader Unit := do
  skipWithin (fuelFor (← get)) []

/-- How many levels of lists and objects, the outermost included, a text may nest: one less than
this. -/
def depthLimit : Nat := 128

/-- Read a whole text: nothing but blanks may follow the value. -/
def parseWith {α : Type} (read : Nat → Reader α) (s : String) : Except Fault α := do
  let (value, rest) ← read depthLimit s.toList
  if (rest.dropWhile isSpace).isEmpty then return value
  else throw (.malformed .trailingCharacters)

def parse (s : String) : Except Fault Json := parseWith readValue s

end ChatRelay.Json
