import ChatRelay.Json.Basic

/-!
# Compact JSON text

A value is written without blanks. In strings the quote, the backslash and the control characters
are escaped, the common ones by a letter and the others by four hexadecimal digits; every other
character stands for itself.
-/

namespace ChatRelay.Json

def hexDigit (n : Nat) : Char := Nat.digitChar (n % 16)

def hexQuad (n : Nat) : List Char :=
  [hexDigit (n / 4096), hexDigit (n / 256), hexDigit (n / 16), hexDigit n]

def escapeChar (c : Char) : List Char :=
  if c == '"' then ['\\', '"']
  else if c == '\\' then ['\\', '\\']
  else if c == '\n' then ['\\', 'n']
  else if c == '\r' then ['\\', 'r']
  else if c == '\t' then ['\\', 't']
  else if c == '\x08' then ['\\', 'b']
  else if c == '\x0c' then ['\\', 'f']
  else if c.toNat < 0x20 then '\\' :: 'u' :: hexQuad c.toNat
  else [c]

def stringChars (s : String) : List Char :=
  '"' :: s.toList.flatMap escapeChar ++ ['"']

mutual

/-- The characters of the compact text. -/
def chars : Json → List Char
  | .null => ['n', 'u', 'l', 'l']
  | .bool true => ['t', 'r', 'u', 'e']
  | .bool false => ['f', 'a', 'l', 's', 'e']
  | .integer v => (Numeral.integerText v).toList
  | .float x => x.text.toList
  | .string s => stringChars s
  | .array [] => ['[', ']']
  | .array (item :: rest) => '[' :: item.chars ++ moreItems rest
  | .object [] => ['\x7b', '\x7d']
  | .object ((key, value) :: rest) =>
    '\x7b' :: stringChars key ++ ':' :: value.chars ++ moreMembers rest

def moreItems : List Json → List Char
  | [] => [']']
  | item :: rest => ',' :: item.chars ++ moreItems rest

def moreMembers : List (String × Json) → List Char
  | [] => ['\x7d']
  | (key, value) :: rest => ',' :: stringChars key ++ ':' :: value.chars ++ moreMembers rest

end

def render (value : Json) : String := .ofList value.chars

end ChatRelay.Json
