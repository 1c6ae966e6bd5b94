/-!
# Media types

A media type is a type and a subtype, separated by a slash, and parameters after semicolons. A
subtype may end in a suffix after its last plus sign. Letter case does not matter outside of the
values of parameters.
-/

namespace ChatRelay

structure MediaType where
  type : String
  subtype : String
  suffix : Option String
deriving DecidableEq, Repr

namespace MediaType

/-- The characters of tokens. -/
def isToken (c : Char) : Bool :=
  c.isAlphanum || "!#$%&'*+-.^_`|~".toList.contains c

/-- The characters that a quoted value may hold. -/
def isQuotable (c : Char) : Bool := ' ' ≤ c && c ≤ '~'

/-- The rest behind a quoted value whose opening quote has been taken. The value is not empty: what
stands first belongs to it, even if that is a quote. -/
def afterQuoted? : List Char → Option (List Char)
  | [] => none
  | first :: value =>
    match value.dropWhile fun c => c ≠ '"' && isQuotable c with
    | '"' :: rest => if isQuotable first then some rest else none
    | _ => none

/-- The rest behind one parameter and the semicolon that may follow it. A value that is not quoted
may be empty at the end of the text only; blanks may follow one that is. -/
def afterParameter? (cs : List Char) : Option (List Char) :=
  let name := cs.takeWhile isToken
  match name.isEmpty, cs.dropWhile isToken with
  | false, '=' :: '"' :: value => do
    match (← afterQuoted? value).dropWhile (· = ' ') with
    | [] => some []
    | ';' :: rest => some rest
    | _ => none
  | false, '=' :: value =>
    match (value.takeWhile isToken).isEmpty, value.dropWhile isToken with
    | _, [] => some []
    | false, ';' :: rest => some rest
    | _, _ => none
  | _, _ => none

/-- Whether what follows the subtype is a list of parameters; every parameter takes at least one
character, so the length is enough fuel. -/
def areParameters : Nat → List Char → Bool
  | _, [] => true
  | 0, _ => false
  | fuel + 1, ' ' :: rest => areParameters fuel rest
  | fuel + 1, cs =>
    match afterParameter? cs with
    | some rest => areParameters fuel rest
    | none => false

def lower (cs : List Char) : String := .ofList (cs.map Char.toLower)

/-- Split before the last plus sign, unless nothing stands before it. -/
def splitSuffix (cs : List Char) : List Char × Option (List Char) :=
  let after := (cs.reverse.takeWhile (· ≠ '+')).reverse
  let before := cs.take (cs.length - after.length - 1)
  if before.isEmpty then (cs, none) else (before, some after)

def parse? (s : String) : Option MediaType :=
  let cs := s.toList
  let type := cs.takeWhile isToken
  match type.isEmpty, cs.dropWhile isToken with
  | false, '/' :: rest =>
    let name := rest.takeWhile isToken
    let parameters := rest.dropWhile isToken
    if name.isEmpty || !(parameters.isEmpty || parameters.head? = some ';' &&
        areParameters parameters.length parameters.tail) then none
    else
      let (subtype, suffix) := splitSuffix name
      some ⟨lower type, lower subtype, suffix.map lower⟩
  | _, _ => none

/-- JSON, or something that is written as JSON. -/
def isJson (m : MediaType) : Bool :=
  m.type = "application" && (m.subtype = "json" || m.suffix = some "json")

end MediaType
end ChatRelay
