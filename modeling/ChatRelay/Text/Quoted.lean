import ChatRelay.Text.Printable

/-!
# Quoted text

A text between double quotes, on one line: quotes and backslashes are escaped, the common controls
have short forms, and whatever would not show is written as its code point in braces.
-/

namespace ChatRelay.Text

/-- The code point in hexadecimal, without leading zeros. -/
def codePoint (c : Char) : List Char :=
  ['\\', 'u', '\x7b'] ++ Nat.toDigits 16 c.toNat ++ ['\x7d']

def quoteChar (c : Char) : List Char :=
  if c == '\x00' then ['\\', '0']
  else if c == '\t' then ['\\', 't']
  else if c == '\r' then ['\\', 'r']
  else if c == '\n' then ['\\', 'n']
  else if c == '\\' || c == '"' then ['\\', c]
  else if isExtending c || isHidden c then codePoint c
  else [c]

def quoted (s : String) : String :=
  .ofList ('"' :: s.toList.flatMap quoteChar ++ ['"'])

end ChatRelay.Text
