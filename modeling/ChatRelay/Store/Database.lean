import ChatRelay.Conversation.Enrichment
import ChatRelay.Store.Basic

/-!
# The store in a database

Three tables: entries of lists and turns of conversations carry row numbers that increase with every
row that is added to their table, and a turn is stored as the JSON text of it; an answered id is
stored once for each user. Rows are written one at a time.
-/

namespace ChatRelay

structure ListRow where
  id : Nat
  key : String
  value : String
deriving DecidableEq, Repr, Inhabited

structure TurnRow where
  id : Nat
  user : String
  payload : String
deriving DecidableEq, Repr, Inhabited

structure Database where
  listRows : List ListRow := []
  nextListRow : Nat := 1
  turnRows : List TurnRow := []
  nextTurnRow : Nat := 1
  answered : List (String × String) := []
deriving DecidableEq, Repr, Inhabited

namespace Database

def append (d : Database) (key value : String) : Database :=
  { d with
    listRows := d.listRows ++ [⟨d.nextListRow, key, value⟩]
    nextListRow := d.nextListRow + 1 }

/-- Put a row before the first one with a greater number. -/
def insertRow (row : ListRow) : List ListRow → List ListRow
  | [] => [row]
  | other :: rest =>
    if other.id ≤ row.id then other :: insertRow row rest else row :: other :: rest

/-- Rows in the order of their numbers, in whatever order they were returned. -/
def byNumber (rows : List ListRow) : List ListRow :=
  rows.foldl (fun sorted row => insertRow row sorted) []

/-- Delete the rows of a key; the deleted rows are put in order afterwards. -/
def drain (d : Database) (key : String) : List String × Database :=
  ((byNumber (d.listRows.filter (·.key = key))).map (·.value),
    { d with listRows := d.listRows.filter (·.key ≠ key) })

def addPayload (d : Database) (user payload : String) : Database :=
  { d with
    turnRows := d.turnRows ++ [⟨d.nextTurnRow, user, payload⟩]
    nextTurnRow := d.nextTurnRow + 1 }

/-- Store turns one after the other. The statement with the given number, if there is one, fails,
and nothing after it is tried; the second part says whether all were stored. -/
def addRows (user : String) : List Turn → Option Nat → Database → Database × Bool
  | [], _, d => (d, true)
  | _ :: _, some 0, d => (d, false)
  | t :: rest, failing, d =>
    addRows user rest (failing.map (· - 1)) (d.addPayload user t.encode)

def addTurns (d : Database) (user : String) (turns : List Turn) : Database :=
  (addRows user turns none d).1

def payloads (d : Database) (user : String) : List String :=
  (d.turnRows.filter (·.user = user)).map (·.payload)

/-- Read payloads back; the first that cannot be read is reported. -/
def decodeAll : List String → Except StoreError (List Turn)
  | [] => .ok []
  | payload :: rest =>
    match Turn.decode payload with
    | .ok t => (t :: ·) <$> decodeAll rest
    | .error fault => .error (.ofFault fault)

/-- The greatest limit that a query takes; any limit beyond it stands for it. -/
def maxLimit : Nat := 9223372036854775807

def recent (d : Database) (user : String) (limit : Nat) : Except StoreError (List Turn) :=
  decodeAll (lastOf (min limit maxLimit) (d.payloads user))

/-- Record an id unless it is there already. -/
def markOne (user : String) (answered : List (String × String)) (id : String) :
    List (String × String) :=
  if (user, id) ∈ answered then answered else answered ++ [(user, id)]

def mark (d : Database) (user : String) (ids : List String) : Database :=
  { d with answered := ids.foldl (markOne user) d.answered }

instance : Store Database where
  append := append
  drain := drain
  count d key := (d.listRows.filter (·.key = key)).length
  addTurns := addTurns
  recent := recent
  seen d user ids := ids.filter fun id => (user, id) ∈ d.answered
  mark := mark

end Database

end ChatRelay
