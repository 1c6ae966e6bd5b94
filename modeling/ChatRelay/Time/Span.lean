import ChatRelay.Number.Numeral

/-!
# Spans of time

A span is a whole number of nanoseconds. Its text takes the largest unit that it reaches, from
seconds down to nanoseconds, and writes the rest as a fraction without trailing zeros.
-/

namespace ChatRelay

structure Span where
  nanos : Nat
deriving DecidableEq, Repr, Inhabited

namespace Span

def ofMillis (n : Nat) : Span := ⟨n * 1000000⟩
def ofSeconds (n : Nat) : Span := ⟨n * 1000000000⟩

/-- The longest span that can be told: its whole seconds fill a word of 64 bits. -/
def longest : Span := ⟨Numeral.values64 * 1000000000 - 1⟩

/-- A span so many times over, or the longest one where that cannot be told. -/
def times (s : Span) (n : UInt32) : Span := ⟨min (s.nanos * n.toNat) longest.nanos⟩

/-- A span scaled by a factor, in nanoseconds; there is none if the outcome cannot be told. -/
def scale? (s : Span) (factor : Rat) : Option Rat :=
  let nanos := s.nanos * factor
  if 0 ≤ nanos ∧ nanos < Numeral.values64 * 1000000000 then some nanos else none

/-- Write a whole part and a fraction, which counts units of `10 ^ -places`. -/
def withFraction (whole fraction places : Nat) : String :=
  let shown := ((Numeral.padded places fraction).reverse.dropWhile (· == '0')).reverse
  Numeral.naturalText whole ++ (if fraction = 0 then "" else "." ++ .ofList shown)

def text (s : Span) : String :=
  if 1000000000 ≤ s.nanos then withFraction (s.nanos / 1000000000) (s.nanos % 1000000000) 9 ++ "s"
  else if 1000000 ≤ s.nanos then withFraction (s.nanos / 1000000) (s.nanos % 1000000) 6 ++ "ms"
  else if 1000 ≤ s.nanos then withFraction (s.nanos / 1000) (s.nanos % 1000) 3 ++ "µs"
  else Numeral.naturalText s.nanos ++ "ns"

end Span
end ChatRelay
