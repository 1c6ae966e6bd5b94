import ChatRelay.Error
import ChatRelay.Retry
import ChatRelay.Text.Blank

/-!
# Settings

The settings of a relay come from named variables. A variable that is unset or blank leaves the
default. Numbers are read first, in a fixed order, and the constraints on the values are checked
afterwards, in a fixed order; the first complaint is the one reported.
-/

namespace ChatRelay

structure Settings where
  debounceMillis : Nat
  primaryChannel : String
  systemPrompt : String
  historyLimit : Nat
  retry : RetryPolicy
  fallbackMessage : String
  databasePath : Option String
  httpPort : Option Nat
  model : String
  mentionName : Option String
deriving DecidableEq, Repr

namespace Settings

def defaultSystemPrompt : String :=
  "You are a concise, helpful personal assistant. Messages may arrive in bursts and are " ++
  "combined before they reach you; lines tagged [Follow-up] were sent after the first one. " ++
  "Answer them together in one reply."

def defaultFallbackMessage : String :=
  "Sorry, something went wrong while handling your message. Please try again in a moment."

def standard : Settings where
  debounceMillis := 2500
  primaryChannel := "assistant"
  systemPrompt := defaultSystemPrompt
  historyLimit := 20
  retry := .standard
  fallbackMessage := defaultFallbackMessage
  databasePath := none
  httpPort := none
  model := "claude-sonnet-4-20250514"
  mentionName := none

abbrev Lookup := String → Option String

/-- The value of a variable, unless it is unset or blank. -/
def Lookup.value? (lookup : Lookup) (key : String) : Option String :=
  (lookup key).filter fun v => !Text.isBlankText v

/-- A number below `bound`, with blanks around it. -/
def number (bound : Nat) (key value : String) : Except ConfigError Nat :=
  match Numeral.unsigned? bound (Text.trim value) with
  | some n => .ok n
  | none => .error (.invalidValue key ("expected a number, got '" ++ value ++ "'"))

def Lookup.number (lookup : Lookup) (bound : Nat) (key : String) (default : Nat) :
    Except ConfigError Nat :=
  match lookup.value? key with
  | some value => Settings.number bound key value
  | none => .ok default

def Lookup.number? (lookup : Lookup) (bound : Nat) (key : String) :
    Except ConfigError (Option Nat) :=
  match lookup.value? key with
  | some value => some <$> Settings.number bound key value
  | none => .ok none

def variableNames : List String := [
  "RELAY_DEBOUNCE_MS", "RELAY_RETRY_MAX_ATTEMPTS", "RELAY_RETRY_BASE_MS", "RELAY_RETRY_MAX_MS",
  "RELAY_HISTORY_LIMIT", "RELAY_HTTP_PORT", "RELAY_PRIMARY_CHANNEL", "RELAY_SYSTEM_PROMPT",
  "RELAY_FALLBACK_MESSAGE", "RELAY_DB_PATH", "RELAY_MODEL", "RELAY_MENTION_NAME"]

/-- The values as they are set, before any constraint is checked. -/
def read (lookup : Lookup) : Except ConfigError Settings := do
  let debounceMillis ← lookup.number Numeral.values64 "RELAY_DEBOUNCE_MS" standard.debounceMillis
  let maxAttempts ←
    lookup.number Numeral.values32 "RELAY_RETRY_MAX_ATTEMPTS" standard.retry.maxAttempts
  let baseMillis ← lookup.number Numeral.values64 "RELAY_RETRY_BASE_MS" standard.retry.baseMillis
  let maxMillis ← lookup.number Numeral.values64 "RELAY_RETRY_MAX_MS" standard.retry.maxMillis
  let historyLimit ← lookup.number Numeral.values64 "RELAY_HISTORY_LIMIT" standard.historyLimit
  let httpPort ← lookup.number? Numeral.values16 "RELAY_HTTP_PORT"
  return {
    debounceMillis
    primaryChannel := (lookup.value? "RELAY_PRIMARY_CHANNEL").getD standard.primaryChannel
    systemPrompt := (lookup.value? "RELAY_SYSTEM_PROMPT").getD standard.systemPrompt
    historyLimit
    retry := ⟨maxAttempts, baseMillis, maxMillis⟩
    fallbackMessage := (lookup.value? "RELAY_FALLBACK_MESSAGE").getD standard.fallbackMessage
    databasePath := lookup.value? "RELAY_DB_PATH"
    httpPort
    model := (lookup.value? "RELAY_MODEL").getD standard.model
    mentionName := lookup.value? "RELAY_MENTION_NAME" }

def violation? (s : Settings) : Option ConfigError :=
  if s.debounceMillis = 0 then some (.invalidValue "RELAY_DEBOUNCE_MS" "must be > 0")
  else if s.retry.maxAttempts = 0 then
    some (.invalidValue "RELAY_RETRY_MAX_ATTEMPTS" "must be >= 1")
  else if s.retry.maxMillis < s.retry.baseMillis then
    some (.invalidValue "RELAY_RETRY_BASE_MS" "must not exceed RELAY_RETRY_MAX_MS")
  else if Text.isBlankText s.primaryChannel then
    some (.invalidValue "RELAY_PRIMARY_CHANNEL" "must not be empty")
  else if s.httpPort = some 0 then some (.invalidValue "RELAY_HTTP_PORT" "must be > 0")
  else none

def ofLookup (lookup : Lookup) : Except ConfigError Settings := do
  let settings ← read lookup
  match settings.violation? with
  | some cause => throw cause
  | none => return settings

end Settings
end ChatRelay
