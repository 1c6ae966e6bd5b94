import ChatRelay.Conversation.Turn
import ChatRelay.Text.Blank

/-!
# Enrichments

What is added to a request before it reaches the model: text that follows the message, and the
conversation that precedes it. Of several enrichments the texts that are not blank are joined, and
the first conversation that is not empty is taken.
-/

namespace ChatRelay

structure Enrichment where
  context : Option String := none
  history : Option (List Turn) := none
deriving DecidableEq, Repr, Inhabited

namespace Enrichment

def empty : Enrichment := {}

def ofContext (text : String) : Enrichment := { context := some text }

def ofHistory (turns : List Turn) : Enrichment := { history := some turns }

/-- The text of an enrichment, unless it is blank. -/
def addition? (e : Enrichment) : Option String :=
  e.context.filter fun text => !Text.isBlankText text

/-- The conversation of an enrichment, unless it is empty. -/
def turns? (e : Enrichment) : Option (List Turn) :=
  e.history.filter fun turns => !turns.isEmpty

/-- Texts joined by blank lines, if there are any. -/
def join : List String → Option String
  | [] => none
  | additions => some ("\n\n".intercalate additions)

def merge (es : List Enrichment) : Enrichment where
  context := join (es.filterMap (·.addition?))
  history := es.findSome? (·.turns?)

/-- The message, followed by a blank line and the added text unless that is blank. -/
def assemble (message : String) (context : Option String) : String :=
  match context.filter fun text => !Text.isBlankText text with
  | some text => message ++ "\n\n" ++ text
  | none => message

/-- The last turns of a conversation, opening on a turn of the user. -/
def window (turns : List Turn) : List Turn :=
  turns.dropWhile (·.role ≠ .user)

end Enrichment

def lastOf {α : Type} (limit : Nat) (xs : List α) : List α :=
  xs.drop (xs.length - limit)

end ChatRelay
