import ChatRelay.Conversation.Enrichment
import ChatRelay.Store.Basic
import ChatRelay.Table

/-!
# The store in memory

Lists, conversations and ids are held as they are.
-/

namespace ChatRelay

structure Memory where
  lists : Table String (List String) := []
  conversations : Table String (List Turn) := []
  answered : Table String (List String) := []
deriving DecidableEq, Repr, Inhabited

namespace Memory

def list (m : Memory) (key : String) : List String := (Table.get? m.lists key).getD []

def conversation (m : Memory) (user : String) : List Turn :=
  (Table.get? m.conversations user).getD []

def ids (m : Memory) (user : String) : List String := (Table.get? m.answered user).getD []

def append (m : Memory) (key value : String) : Memory :=
  { m with lists := Table.put m.lists key (m.list key ++ [value]) }

def drain (m : Memory) (key : String) : List String × Memory :=
  (m.list key, { m with lists := Table.remove m.lists key })

def addTurns (m : Memory) (user : String) (turns : List Turn) : Memory :=
  { m with conversations := Table.put m.conversations user (m.conversation user ++ turns) }

def mark (m : Memory) (user : String) (ids : List String) : Memory :=
  { m with
    answered := Table.put m.answered user
      (m.ids user ++ (ids.filter (· ∉ m.ids user)).eraseDups) }

instance : Store Memory where
  append := append
  drain := drain
  count m key := (m.list key).length
  addTurns := addTurns
  recent m user limit := .ok (lastOf limit (m.conversation user))
  seen m user ids := ids.filter (· ∈ m.ids user)
  mark := mark

/-! ## What the operations do to the views -/

theorem list_append (m : Memory) (key other value : String) :
    (m.append key value).list other =
      if other = key then m.list key ++ [value] else m.list other := by
  simp only [list, append, Table.get?_put]
  split <;> simp

theorem list_drain (m : Memory) (key other : String) :
    (m.drain key).2.list other = if other = key then [] else m.list other := by
  simp only [list, drain, Table.get?_remove]
  split <;> simp

theorem conversation_addTurns (m : Memory) (user other : String) (turns : List Turn) :
    (m.addTurns user turns).conversation other =
      if other = user then m.conversation user ++ turns else m.conversation other := by
  simp only [conversation, addTurns, Table.get?_put]
  split <;> simp

end Memory
end ChatRelay
