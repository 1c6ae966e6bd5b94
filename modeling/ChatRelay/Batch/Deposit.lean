import ChatRelay.Batch.Pending
import ChatRelay.Error
import ChatRelay.Store.Basic
import ChatRelay.Timer.Task

/-!
# The pending list of a user, and deposits into it

Messages wait as texts under a key of their user. A deposit puts messages at the end of the list,
one after the other, and then arms the combine task of the user; the first failure ends it. What was
put into the list before the failure stays there.
-/

namespace ChatRelay

namespace Pending

def listKey (user : String) : String := "pending:" ++ user

/-- The messages among texts; what is none is left out. -/
def decodeAll (texts : List String) : List Pending :=
  texts.filterMap fun text => (decode text).toOption

variable {σ : Type} [KeyedLists σ]

def push (s : σ) (user : String) (m : Pending) : σ :=
  KeyedLists.append s (listKey user) m.encode

def takeAll (s : σ) (user : String) : List Pending × σ :=
  let (texts, s) := KeyedLists.drain s (listKey user)
  (decodeAll texts, s)

end Pending

namespace Ticket

/-- The task that takes the user's messages after a delay. -/
def task (t : Ticket) (delayMillis : Nat) : Timer.Task where
  key := taskKey
  payload := t.payload
  delayMillis := delayMillis
  dedupId := dedupId t.user

end Ticket

inductive Deposit.Phase where
  /-- What is left is still to be put into the list. -/
  | pushing (left : List Pending)
  | arming
  | finished (result : Except RelayError Unit)
deriving DecidableEq, Repr

structure Deposit where
  /-- Whose list it is, and where an answer goes. -/
  ticket : Ticket
  messages : List Pending
  phase : Deposit.Phase
deriving DecidableEq, Repr

namespace Deposit

def Phase.ofLeft : List Pending → Phase
  | [] => .arming
  | left => .pushing left

def start (ticket : Ticket) (messages : List Pending) : Deposit :=
  ⟨ticket, messages, .ofLeft messages⟩

def push {σ : Type} [KeyedLists σ] (fault : Option StoreError) (s : σ) (d : Deposit) :
    σ × Deposit :=
  match d.phase with
  | .pushing (m :: left) =>
    match fault with
    | some cause => (s, { d with phase := .finished (.error (.store cause)) })
    | none => (Pending.push s d.ticket.user m, { d with phase := .ofLeft left })
  | _ => (s, d)

/-- The task has been accepted or refused. -/
def armed (outcome : Except TaskError Unit) (d : Deposit) : Deposit :=
  match d.phase with
  | .arming => { d with phase := .finished (outcome.mapError .task) }
  | _ => d

def result? (d : Deposit) : Option (Except RelayError Unit) :=
  match d.phase with
  | .finished result => some result
  | _ => none

end Deposit
end ChatRelay
