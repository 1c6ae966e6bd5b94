import ChatRelay.Provider.Http
import ChatRelay.Settings
import ChatRelay.Text.Quoted

/-!
# Credentials

The key to the provider comes from a variable of its own, and is never printed.
-/

namespace ChatRelay.Provider

structure Credentials where
  apiKey : String
  model : String
deriving DecidableEq

namespace Credentials

def keyVariable : String := "ANTHROPIC_API_KEY"

/-- The key must be set and not blank. -/
def ofLookup (lookup : Settings.Lookup) (model : String) : Except ConfigError Credentials :=
  match lookup.value? keyVariable with
  | some apiKey => .ok { apiKey, model }
  | none => .error (.missingVariable keyVariable)

/-- A description that keeps the key to itself. -/
def debugText (c : Credentials) : String :=
  "LlmConfig \x7b api_key: SecretBox<str>([REDACTED]), model: " ++ Text.quoted c.model ++ " \x7d"

def access (c : Credentials) : Access := { apiKey := c.apiKey, model := c.model }

end Credentials
end ChatRelay.Provider
