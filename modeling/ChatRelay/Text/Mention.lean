import ChatRelay.Text.Blank
import ChatRelay.Text.Fold
import ChatRelay.Text.Word

/-!
# Mentions of the assistant

A mention is an at sign and the assistant's name, in any case, that ends at a word boundary.
Stripping removes all mentions, found from left to right, then shrinks every run of two or more
blanks or tabs to one blank and trims what is left.
-/

namespace ChatRelay.Text

/-- A name as it is mentioned: without the blanks around it and the at signs before it. Nothing is
left of a name that consists of those alone. -/
def mentionName? (raw : String) : Option (List Char) :=
  let name := (trimBy isBlank raw.toList).dropWhile (· == '@')
  if name.isEmpty then none else some name

/-- What follows `name` at the front of a text, together with the last character of the match. -/
def afterName? : Option Char → List Char → List Char → Option (Option Char × List Char)
  | last, [], rest => some (last, rest)
  | _, _ :: _, [] => none
  | _, c :: name, d :: rest => if equalFold c d then afterName? (some d) name rest else none

/-- Whether a mention of `name` stands at the front of a text. -/
def startsWithMention (name cs : List Char) : Bool :=
  match cs with
  | '@' :: rest =>
    match afterName? (some '@') name rest with
    | some (last, after) => isWordBoundary last after.head?
    | none => false
  | _ => false

/-- Remove the mentions from a text, of which the first `skip` characters belong to one already
found. -/
def removeMentions (name : List Char) : Nat → List Char → List Char
  | _, [] => []
  | skip + 1, _ :: rest => removeMentions name skip rest
  | 0, c :: rest =>
    if startsWithMention name (c :: rest) then removeMentions name name.length rest
    else c :: removeMentions name 0 rest

def isGap (c : Char) : Bool := c == ' ' || c == '\t'

/-- The blanks and tabs met since the last other character: the run itself while it is short. -/
inductive Gap where
  | none
  | single (c : Char)
  | wide
deriving DecidableEq, Repr

def Gap.add : Gap → Char → Gap
  | .none, c => .single c
  | _, _ => .wide

def Gap.chars : Gap → List Char
  | .none => []
  | .single c => [c]
  | .wide => [' ']

/-- Shrink every run of two or more blanks or tabs to one blank. -/
def shrinkGaps : Gap → List Char → List Char
  | gap, [] => gap.chars
  | gap, c :: rest =>
    if isGap c then shrinkGaps (gap.add c) rest
    else gap.chars ++ c :: shrinkGaps .none rest

def stripMentions (name : List Char) (message : String) : String :=
  .ofList (trimBy isBlank (shrinkGaps .none (removeMentions name 0 message.toList)))

end ChatRelay.Text
