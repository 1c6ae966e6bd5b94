import ChatRelay.Store.Database
import ChatRelay.Store.Memory

/-!
# A store of either kind

The store in memory or the one in a database, as one type.
-/

namespace ChatRelay

inductive AnyStore where
  | memory (m : Memory)
  | database (d : Database)
deriving DecidableEq, Repr

namespace AnyStore
open KeyedLists Conversations AnsweredIds

def drain : AnyStore → String → List String × AnyStore
  | .memory m, key => let (texts, m) := KeyedLists.drain m key; (texts, .memory m)
  | .database d, key => let (texts, d) := KeyedLists.drain d key; (texts, .database d)

instance : Store AnyStore where
  append
    | .memory m, key, value => .memory (append m key value)
    | .database d, key, value => .database (append d key value)
  drain := drain
  count
    | .memory m, key => count m key
    | .database d, key => count d key
  addTurns
    | .memory m, user, turns => .memory (addTurns m user turns)
    | .database d, user, turns => .database (addTurns d user turns)
  recent
    | .memory m, user, limit => recent m user limit
    | .database d, user, limit => recent d user limit
  seen
    | .memory m, user, ids => seen m user ids
    | .database d, user, ids => seen d user ids
  mark
    | .memory m, user, ids => .memory (mark m user ids)
    | .database d, user, ids => .database (mark d user ids)

end AnyStore
end ChatRelay
