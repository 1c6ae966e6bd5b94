import ChatRelay.Table

/-!
# The notice bus

Texts are published under topics. A subscriber receives what is published under its topic after it
subscribed, and reads it in order; one that reads too slowly loses the oldest. A single read takes
only so many items, of which the gap where texts were lost is one.
-/

namespace ChatRelay

/-- A subscription with what it has yet to read. -/
structure Subscription where
  topic : String
  unread : List String := []
  /-- Whether texts were lost before the unread ones. -/
  gap : Bool := false
deriving DecidableEq, Repr, Inhabited

namespace Subscription

/-- How many texts a subscriber can leave unread. -/
def capacity : Nat := 256

/-- How many items one read takes. -/
def perRead : Nat := 128

/-- Add a text, at the expense of the oldest if there are too many. -/
def add (s : Subscription) (payload : String) : Subscription :=
  let unread := s.unread ++ [payload]
  { s with
    unread := unread.drop (unread.length - capacity)
    gap := s.gap || decide (capacity < unread.length) }

def deliver (s : Subscription) (topic payload : String) : Subscription :=
  if s.topic = topic then s.add payload else s

/-- How many texts the next read takes. -/
def readable (s : Subscription) : Nat := if s.gap then perRead - 1 else perRead

end Subscription

/-- Subscriptions under the names of the subscribers. -/
abbrev Bus (κ : Type) := Table κ Subscription

namespace Bus
variable {κ : Type} [DecidableEq κ]

def publish (b : Bus κ) (topic payload : String) : Bus κ :=
  b.map fun (name, s) => (name, s.deliver topic payload)

def subscribe (b : Bus κ) (name : κ) (topic : String) : Bus κ :=
  Table.put b name { topic }

def unsubscribe (b : Bus κ) (name : κ) : Bus κ := Table.remove b name

/-- What a subscriber reads at once, oldest first. -/
def read (b : Bus κ) (name : κ) : List String × Bus κ :=
  match Table.get? b name with
  | some s =>
    (s.unread.take s.readable,
      Table.put b name { s with unread := s.unread.drop s.readable, gap := false })
  | none => ([], b)

end Bus
end ChatRelay
