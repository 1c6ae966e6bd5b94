import ChatRelay.Json.Basic

/-!
# Delayed tasks

A task names its handler by a key. Tasks of one dedup id stand for the same work: of those that
are pending only the latest counts, and their runs never overlap.
-/

namespace ChatRelay.Timer

structure Task where
  key : String
  payload : Json
  delayMillis : Nat
  dedupId : String
deriving DecidableEq, Repr, Inhabited

/-- What a handler is told about its run: attempts are counted from one. -/
structure Attempt where
  dedupId : String
  number : Nat
  limit : Nat
deriving DecidableEq, Repr, Inhabited

/-- Whether a failure now is not followed by another attempt. -/
def Attempt.isFinal (a : Attempt) : Bool := a.limit ≤ a.number

end ChatRelay.Timer
