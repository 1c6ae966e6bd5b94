import ChatRelay.Batch.Pending
import ChatRelay.Error
import ChatRelay.Text.Blank
import ChatRelay.Transport.Inbound
import ChatRelay.Transport.MediaType

/-!
# Ingest over HTTP

Messages are posted to one path as JSON; another path tells that the server is alive. A request is
answered at once, or it is a submission to be accepted, whose answer depends on what comes of it.
-/

namespace ChatRelay.Ingest

structure HttpRequest where
  method : String
  /-- The path, with a query and a fragment if there are any. -/
  target : String
  headers : List (String × String)
  body : String
deriving DecidableEq, Repr

inductive Body where
  | text (s : String)
  | json (value : Json)
deriving DecidableEq, Repr

structure HttpResponse where
  status : Nat
  body : Body
deriving DecidableEq, Repr

def HttpResponse.empty (status : Nat) : HttpResponse := ⟨status, .text ""⟩

def errorBody (message : String) : Body := .json (.object [("error", .string message)])

/-- The answer to a message that has been accepted. -/
def accepted (messageId : String) : HttpResponse :=
  ⟨202, .json (.object [("accepted", .bool true), ("message_id", .string messageId)])⟩

/-- The answer to a message that could not be stored or scheduled. -/
def unavailable (cause : RelayError) : HttpResponse := ⟨503, errorBody cause.message⟩

inductive Verdict where
  | answer (r : HttpResponse)
  | accept (s : Submission)
deriving DecidableEq, Repr

/-- The value of a header, its name in any case. -/
def header? (headers : List (String × String)) (name : String) : Option String :=
  (headers.map fun (n, v) => (MediaType.lower n.toList, v)).lookup name

def isJsonRequest (r : HttpRequest) : Bool :=
  ((header? r.headers "content-type").bind MediaType.parse?).any (·.isJson)

/-- A user and a text are required; blanks do not count. -/
def review (s : Submission) : Verdict :=
  if Text.isBlankText s.user || Text.isBlankText s.text then
    .answer ⟨400, errorBody "user_id and text are required"⟩
  else .accept s

/-- A posted message: the kind of its body is looked at first, then its form, then its fields. -/
def post (r : HttpRequest) : Verdict :=
  if !isJsonRequest r then
    .answer ⟨415, .text "Expected request with `Content-Type: application/json`"⟩
  else
    match Submission.decode r.body with
    | .ok s => review s
    | .error fault =>
      if fault.isMalformed then
        .answer ⟨400, .text ("Failed to parse the request body as JSON: " ++ fault.message)⟩
      else
        .answer ⟨422, .text
          ("Failed to deserialize the JSON body into the target type: " ++ fault.message)⟩

/-- What stands before the query and the fragment. -/
def path (target : String) : String :=
  .ofList (target.toList.takeWhile fun c => c ≠ '?' && c ≠ '#')

/-- The verdict on a request, by its path and method. -/
def verdict (r : HttpRequest) : Verdict :=
  match path r.target, r.method with
  | "/api/messages", "POST" => post r
  | "/api/messages", _ => .answer (.empty 405)
  | "/health", "GET" => .answer ⟨200, .text "ok"⟩
  | "/health", "HEAD" => .answer (.empty 200)
  | "/health", _ => .answer (.empty 405)
  | _, _ => .answer (.empty 404)

/-- The label of messages whose source is not given. -/
def defaultLabel : String := "HTTP"

/-- Where the answer to a submission goes; without a chat the user stands for it. -/
def ticket (s : Submission) : Ticket :=
  ⟨s.user, s.chat.getD s.user, s.source.getD defaultLabel⟩

end ChatRelay.Ingest
