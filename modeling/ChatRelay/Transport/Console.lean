import ChatRelay.Text.Blank

/-!
# The console

One user types messages, a line each; replies are printed between empty lines. A prompt stands at
the start, after every blank line and after every reply. A line that is not valid text ends the
input.
-/

namespace ChatRelay.Console

def name : String := "cli"
def label : String := "CLI"
def user : String := "local-user"
def chat : String := "cli"
def prompt : String := "> "

/-- The lines of the input, without the marks that end them; a last line needs no mark. -/
def lines : List UInt8 → List UInt8 → List (List UInt8)
  | [], [] => []
  | line, [] => [line]
  | line, byte :: rest => if byte = 10 then line :: lines [] rest else lines (line ++ [byte]) rest

def text? (line : List UInt8) : Option String := String.fromUTF8? ⟨line.toArray⟩

/-- What comes of the input. -/
structure Reading where
  messages : List String := []
  /-- How often the prompt has been printed. -/
  prompts : Nat := 1
deriving DecidableEq, Repr

def Reading.add (r : Reading) (text : String) : Reading :=
  if text = "" then { r with prompts := r.prompts + 1 }
  else { r with messages := r.messages ++ [text] }

def readLines (r : Reading) : List (List UInt8) → Reading
  | [] => r
  | line :: rest =>
    match text? line with
    | some text => readLines (r.add (Text.trim text)) rest
    | none => r

/-- Read the whole input. -/
def read (input : List UInt8) : Reading := readLines {} (lines [] input)

/-- A reply as it is printed, before the next prompt. -/
def reply (text : String) : String := "\n" ++ text ++ "\n\n"

end ChatRelay.Console
