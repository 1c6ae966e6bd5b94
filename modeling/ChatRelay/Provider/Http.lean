import ChatRelay.Error
import ChatRelay.Provider.Message

/-!
# Talking to the provider

A request carries the model, the conversation and the tools, and is sent with the key. The reply
counts as an answer only if its status says so; some statuses have causes of their own.
-/

namespace ChatRelay.Provider

def providerName : String := "anthropic"
def endpoint : String := "https://api.anthropic.com/v1/messages"
def apiVersion : String := "2023-06-01"
def maxTokens : Int := 2048

structure HttpRequest where
  url : String
  headers : List (String × String)
  body : Json
deriving DecidableEq, Repr

def toolJson (d : ToolDefinition) : Json :=
  .object [("description", .string d.description), ("input_schema", d.parameters),
    ("name", .string d.name)]

/-- The body of a request; the system text and the tools are left out when there are none. -/
def requestBody (model system : String) (turns : List Turn) (tools : List ToolDefinition) : Json :=
  let systemText := systemText system turns
  .object ([("max_tokens", .integer maxTokens),
      ("messages", .array ((Message.ofTurns turns).map (·.toJson))), ("model", .string model)] ++
    (if systemText = "" then [] else [("system", .string systemText)]) ++
    (if tools.isEmpty then [] else [("tools", .array (tools.map toolJson))]))

/-- What is needed to reach the provider. -/
structure Access where
  url : String := endpoint
  apiKey : String
  model : String
deriving DecidableEq, Repr

def Access.request (a : Access) (system : String) (tools : List ToolDefinition)
    (turns : List Turn) : HttpRequest where
  url := a.url
  headers := [("x-api-key", a.apiKey), ("anthropic-version", apiVersion)]
  body := requestBody a.model system turns tools

/-- A reply; its body may break off. -/
structure HttpReply where
  status : Nat
  headers : List (String × String)
  body : Except String String

def reasonPhrase? : Nat → Option String
  | 100 => some "Continue"
  | 101 => some "Switching Protocols"
  | 102 => some "Processing"
  | 103 => some "Early Hints"
  | 200 => some "OK"
  | 201 => some "Created"
  | 202 => some "Accepted"
  | 203 => some "Non Authoritative Information"
  | 204 => some "No Content"
  | 205 => some "Reset Content"
  | 206 => some "Partial Content"
  | 207 => some "Multi-Status"
  | 208 => some "Already Reported"
  | 226 => some "IM Used"
  | 300 => some "Multiple Choices"
  | 301 => some "Moved Permanently"
  | 302 => some "Found"
  | 303 => some "See Other"
  | 304 => some "Not Modified"
  | 305 => some "Use Proxy"
  | 307 => some "Temporary Redirect"
  | 308 => some "Permanent Redirect"
  | 400 => some "Bad Request"
  | 401 => some "Unauthorized"
  | 402 => some "Payment Required"
  | 403 => some "Forbidden"
  | 404 => some "Not Found"
  | 405 => some "Method Not Allowed"
  | 406 => some "Not Acceptable"
  | 407 => some "Proxy Authentication Required"
  | 408 => some "Request Timeout"
  | 409 => some "Conflict"
  | 410 => some "Gone"
  | 411 => some "Length Required"
  | 412 => some "Precondition Failed"
  | 413 => some "Payload Too Large"
  | 414 => some "URI Too Long"
  | 415 => some "Unsupported Media Type"
  | 416 => some "Range Not Satisfiable"
  | 417 => some "Expectation Failed"
  | 418 => some "I'm a teapot"
  | 421 => some "Misdirected Request"
  | 422 => some "Unprocessable Entity"
  | 423 => some "Locked"
  | 424 => some "Failed Dependency"
  | 425 => some "Too Early"
  | 426 => some "Upgrade Required"
  | 428 => some "Precondition Required"
  | 429 => some "Too Many Requests"
  | 431 => some "Request Header Fields Too Large"
  | 451 => some "Unavailable For Legal Reasons"
  | 500 => some "Internal Server Error"
  | 501 => some "Not Implemented"
  | 502 => some "Bad Gateway"
  | 503 => some "Service Unavailable"
  | 504 => some "Gateway Timeout"
  | 505 => some "HTTP Version Not Supported"
  | 506 => some "Variant Also Negotiates"
  | 507 => some "Insufficient Storage"
  | 508 => some "Loop Detected"
  | 510 => some "Not Extended"
  | 511 => some "Network Authentication Required"
  | _ => none

def statusText (status : Nat) : String :=
  Numeral.naturalText status ++ " " ++ (reasonPhrase? status).getD "<unknown status code>"

def lowerName (s : String) : String := .ofList (s.toList.map Char.toLower)

/-- The value of a header, its name in any case, if all of it is visible. -/
def header? (headers : List (String × String)) (name : String) : Option String :=
  ((headers.map fun (n, v) => (lowerName n, v)).lookup name).filter fun v =>
    v.toList.all fun c => c = '\t' || (' ' ≤ c && c ≤ '~')

/-- The delay that the provider asks for, in whole seconds. -/
def retryAfter (headers : List (String × String)) : Option Span := do
  let seconds ← Numeral.unsigned? Numeral.values64 (← header? headers "retry-after")
  return Span.ofSeconds seconds

def isSuccess (status : Nat) : Bool := 200 ≤ status && status < 300

/-- The turn that a reply gives, or why it gives none. -/
def HttpReply.turn (r : HttpReply) : Except EngineError Turn :=
  if r.status = 401 then .error (.authFailed providerName)
  else if r.status = 429 then .error (.rateLimited providerName (retryAfter r.headers))
  else
    match r.body with
    | .error reason => .error (.requestFailed providerName reason)
    | .ok text =>
      if !isSuccess r.status then
        .error (.requestFailed providerName
          ("status=" ++ statusText r.status ++ " body=" ++ text))
      else
        match readAnswer text with
        | .ok turn => .ok turn
        | .error fault => .error (.invalidResponse providerName fault.message)

end ChatRelay.Provider
