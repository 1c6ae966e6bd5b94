import ChatRelay.Json.Fault
import ChatRelay.Time.Span

/-!
# Causes of failure

Every stage fails for causes of its own, and `RelayError` gathers them. For each cause `message`
has the wording, and `isRetryable` says whether running a failed task again may help: not when the
request or the configuration is at fault, and not when newer input took the task over.
-/

namespace ChatRelay

/-- Outcomes can be told apart if their errors and their values can. -/
instance (priority := high) instDecidableEqOutcome {ε α : Type} [DecidableEq ε] [DecidableEq α] :
    DecidableEq (Except ε α)
  | .ok a, .ok b => decidable_of_iff (a = b) (by simp)
  | .error a, .error b => decidable_of_iff (a = b) (by simp)
  | .ok _, .error _ => isFalse (by simp)
  | .error _, .ok _ => isFalse (by simp)

inductive ConfigError where
  | missingVariable (name : String)
  | invalidValue (key reason : String)
  | missingPrompt (channel : String)
  | duplicateChannel (channel : String)
  | unknownChannel (channel : String) (known : List String)
deriving DecidableEq, Repr

inductive StoreError where
  | unavailable (reason : String)
  | query (reason : String)
  | serialization (reason : String)
  | migration (reason : String)
  | publish (topic reason : String)
deriving DecidableEq, Repr

inductive DeliveryError where
  | sendFailed (output reason : String)
  | panicked (output : String)
deriving DecidableEq, Repr

inductive EngineError where
  | cancelled
  | requestFailed (provider reason : String)
  | rateLimited (provider : String) (retryAfter : Option Span)
  | invalidResponse (provider reason : String)
  | authFailed (provider : String)
  | toolLoopExceeded (maxRounds : Nat)
  | json (fault : Json.Fault)
deriving DecidableEq, Repr

inductive ToolError where
  | notFound (tool : String)
  | invalidParameters (tool reason : String)
deriving DecidableEq, Repr

inductive TaskError where
  | noHandler (key : String)
  | shutdown
  | invalidPayload (task reason : String)
  | abandoned (task reason : String)
deriving DecidableEq, Repr

inductive PipelineError where
  | cancelled
  | transform (stage reason : String)
  | enrich (stage reason : String)
  | generation (cause : EngineError)
  | config (cause : ConfigError)
deriving DecidableEq, Repr

inductive RelayError where
  | config (cause : ConfigError)
  | store (cause : StoreError)
  | delivery (cause : DeliveryError)
  | engine (cause : EngineError)
  | tool (cause : ToolError)
  | task (cause : TaskError)
  | pipeline (cause : PipelineError)
deriving DecidableEq, Repr

/-! ## Wording -/

def ConfigError.message : ConfigError → String
  | .missingVariable name => s!"Missing required environment variable: {name}"
  | .invalidValue key reason => s!"Invalid configuration value for {key}: {reason}"
  | .missingPrompt channel => "Channel '" ++ channel ++ "' has no system prompt"
  | .duplicateChannel channel => "Channel '" ++ channel ++ "' is already registered"
  | .unknownChannel channel known =>
    "Unknown channel '" ++ channel ++ "'. Known channels: [" ++ ", ".intercalate known ++ "]"

def StoreError.message : StoreError → String
  | .unavailable reason => s!"Store unavailable: {reason}"
  | .query reason => s!"Query failed: {reason}"
  | .serialization reason => s!"Serialization error: {reason}"
  | .migration reason => s!"Migration failed: {reason}"
  | .publish topic reason => s!"Publish to topic {topic} failed: {reason}"

def DeliveryError.message : DeliveryError → String
  | .sendFailed output reason => s!"Failed to send on {output}: {reason}"
  | .panicked output => s!"Output handler {output} panicked"

/-- The text of a value that may be absent. -/
def optionalText : Option String → String
  | some s => "Some(" ++ s ++ ")"
  | none => "None"

def EngineError.message : EngineError → String
  | .cancelled => "Generation cancelled"
  | .requestFailed provider reason => s!"Provider {provider} request failed: {reason}"
  | .rateLimited provider retryAfter =>
    s!"Provider {provider} rate limited, retry after " ++ optionalText (retryAfter.map (·.text))
  | .invalidResponse provider reason => s!"Invalid response from {provider}: {reason}"
  | .authFailed provider => s!"Authentication failed for provider {provider}"
  | .toolLoopExceeded maxRounds =>
    "Tool loop exceeded " ++ Numeral.naturalText maxRounds ++ " rounds"
  | .json fault => "JSON error: " ++ fault.message

def ToolError.message : ToolError → String
  | .notFound tool => s!"Tool {tool} not found"
  | .invalidParameters tool reason => s!"Invalid parameters for tool {tool}: {reason}"

def TaskError.message : TaskError → String
  | .noHandler key => s!"No handler registered for task key {key}"
  | .shutdown => "Scheduler is shut down"
  | .invalidPayload task reason => s!"Invalid payload for task {task}: {reason}"
  | .abandoned task reason => s!"Task {task} abandoned: {reason}"

def PipelineError.message : PipelineError → String
  | .cancelled => "Execution cancelled by newer input"
  | .transform stage reason => s!"Transformer {stage} failed: {reason}"
  | .enrich stage reason => s!"Enricher {stage} failed: {reason}"
  | .generation cause => "Generation failed: " ++ cause.message
  | .config cause => "Configuration error: " ++ cause.message

def RelayError.message : RelayError → String
  | .config cause => "Configuration error: " ++ cause.message
  | .store cause => "Store error: " ++ cause.message
  | .delivery cause => "Channel error: " ++ cause.message
  | .engine cause => "LLM error: " ++ cause.message
  | .tool cause => "Tool error: " ++ cause.message
  | .task cause => "Job error: " ++ cause.message
  | .pipeline cause => "Pipeline error: " ++ cause.message

/-! ## Retrying -/

def TaskError.isRetryable : TaskError → Bool
  | .shutdown => true
  | .noHandler _ | .invalidPayload _ _ | .abandoned _ _ => false

def PipelineError.isRetryable : PipelineError → Bool
  | .enrich _ _ | .generation _ => true
  | .cancelled | .transform _ _ | .config _ => false

def RelayError.isRetryable : RelayError → Bool
  | .config _ => false
  | .task cause => cause.isRetryable
  | .pipeline cause => cause.isRetryable
  | .store _ | .delivery _ | .engine _ | .tool _ => true

/-- What a failed generation means for the pipeline: a cancelled one was overtaken by newer
input. -/
def PipelineError.ofEngine : EngineError → PipelineError
  | .cancelled => .cancelled
  | cause => .generation cause

/-- A value that could not be read back from a store. -/
def StoreError.ofFault (fault : Json.Fault) : StoreError := .serialization fault.message

end ChatRelay
