import ChatRelay.Text.Blank
import ChatRelay.Time.Instant
import ChatRelay.Tool.Basic

/-!
# The current time

A tool that tells the time, in universal time or at an offset given as hours and minutes.
-/

namespace ChatRelay.CurrentTime

/-- Split at the first colon; without one the minutes are zero. -/
def splitColon (cs : List Char) : List Char × List Char :=
  match cs.dropWhile (· ≠ ':') with
  | [] => (cs, ['0'])
  | _ :: minutes => (cs.takeWhile (· ≠ ':'), minutes)

/-- The sum of two's complement words of 32 bits keeps its lowest 32 bits. -/
def word (v : Int) : Int := Int.bmod v Numeral.values32

/-- Seconds from universal time: a sign, hours up to 14 and minutes up to 59. Hours and minutes are
signed numerals themselves, reckoned in words, and the whole must stay within a day. -/
def offset? (raw : String) : Option Int := do
  let (sign, rest) ← match (Text.trim raw).toList with
    | '+' :: rest => some (1, rest)
    | '-' :: rest => some (-1, rest)
    | _ => none
  let (h, m) := splitColon rest
  let hours ← Numeral.signed? Numeral.values31 (.ofList h)
  let minutes ← Numeral.signed? Numeral.values31 (.ofList m)
  if 14 < hours ∨ 59 < minutes then none
  else
    let seconds := word (sign * word (word (hours * 3600) + word (minutes * 60)))
    if seconds.natAbs < 86400 then some seconds else none

def name : String := "current_time"

def parameters : Json :=
  .object [
    ("properties", .object [("utc_offset", .object [
      ("description", .string "UTC offset in the form +HH:MM or -HH:MM (default: UTC)"),
      ("type", .string "string")])]),
    ("type", .string "object")]

/-- The offset that a call asks for. -/
def requestedOffset (params : Json) : Except ToolError Int :=
  match Tool.optionalString params "utc_offset" with
  | none => .ok 0
  | some raw =>
    match offset? raw with
    | some offset => .ok offset
    | none =>
      .error (.invalidParameters name ("bad utc_offset '" ++ raw ++ "', expected +HH:MM"))

def tool : Tool where
  name := name
  description :=
    "Get the current date and time. Optionally pass a UTC offset such as \"+02:00\" or " ++
    "\"-05:00\" to get local time for that offset."
  parameters := parameters
  run clock params := { result := clock <$> requestedOffset params }

end ChatRelay.CurrentTime
