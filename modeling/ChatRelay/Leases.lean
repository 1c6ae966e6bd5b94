import ChatRelay.Table

/-!
# Leases

While a relay works on a user's batch it holds a lease for the user. A newer lease of the same user,
a notice that the user has written again, and the end of the relay cancel the one that is live; it
is then no longer in the table. A lease that is given back leaves the table only if the entry is
its own.
-/

namespace ChatRelay

structure Leases where
  /-- How many leases have been given out; the next one bears this number. -/
  issued : Nat := 0
  /-- The live lease of each user. -/
  live : Table String Nat := []
  /-- The leases that have been cancelled. -/
  cancelled : List Nat := []
deriving DecidableEq, Repr, Inhabited

namespace Leases

def isLive (l : Leases) (user : String) : Bool := Table.has l.live user

def isCancelled (l : Leases) (lease : Nat) : Bool := l.cancelled.contains lease

/-- Cancel a lease and leave the table alone. -/
def trip (l : Leases) (lease : Nat) : Leases := { l with cancelled := lease :: l.cancelled }

/-- A new lease for a user; the one that was live is cancelled. -/
def register (l : Leases) (user : String) : Leases × Nat :=
  let l' := match Table.get? l.live user with
    | some old => l.trip old
    | none => l
  ({ l' with issued := l.issued + 1, live := Table.put l.live user l.issued }, l.issued)

/-- Cancel the live lease of a user; the second part says whether there was one. -/
def cancel (l : Leases) (user : String) : Leases × Bool :=
  match Table.get? l.live user with
  | some lease => ({ l.trip lease with live := Table.remove l.live user }, true)
  | none => (l, false)

def release (l : Leases) (user : String) (lease : Nat) : Leases :=
  if Table.get? l.live user = some lease then { l with live := Table.remove l.live user } else l

def cancelAll (l : Leases) : Leases :=
  { l with live := [], cancelled := l.live.map (·.2) ++ l.cancelled }

end Leases
end ChatRelay
