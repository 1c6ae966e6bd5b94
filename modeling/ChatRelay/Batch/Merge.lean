import ChatRelay.Batch.Pending

/-!
# Batches

The messages that a combine task takes become one request. Of several messages with the same source
id the first counts; the rest are ordered by the time they came in, and messages of one time keep
their order. The text of the request tags each message with where it came from.
-/

namespace ChatRelay.Batch

/-- Drop messages whose source id is not empty and among those already met, or repeats one before
it. -/
def dedupe : List String → List Pending → List Pending
  | _, [] => []
  | met, m :: rest =>
    if m.sourceId = "" then m :: dedupe met rest
    else if m.sourceId ∈ met then dedupe met rest
    else m :: dedupe (m.sourceId :: met) rest

def repeats : List String → List Pending → List Pending
  | _, [] => []
  | met, m :: rest =>
    if m.sourceId = "" then repeats met rest
    else if m.sourceId ∈ met then m :: repeats met rest
    else repeats (m.sourceId :: met) rest

/-- Put a message before the first one that is strictly later. -/
def insert (m : Pending) : List Pending → List Pending
  | [] => [m]
  | n :: rest => if n.enqueuedAt ≤ m.enqueuedAt then n :: insert m rest else m :: n :: rest

/-- Stable order by the time of enqueuing. -/
def sortByTime (ms : List Pending) : List Pending :=
  ms.foldl (fun sorted m => insert m sorted) []

/-- The batch that is made of a list of messages in the order they were stored. -/
def normalize (ms : List Pending) : List Pending :=
  sortByTime (dedupe [] ms)

/-- The first message names its source, and each later one only if its source is another. -/
def tag (first : Pending) (m : Pending) : String :=
  if m.label = first.label then "[Follow-up]: " ++ m.text
  else "[Follow-up, " ++ m.label ++ "]: " ++ m.text

def parts : List Pending → List String
  | [] => []
  | first :: rest => ("[" ++ first.label ++ "]: " ++ first.text) :: rest.map (tag first)

/-- The text of the request: the parts, separated by blank lines. -/
def merge (ms : List Pending) : String :=
  "\n\n".intercalate (parts ms)

/-- The source ids of a batch, for those of its messages that have one. -/
def sourceIds (ms : List Pending) : List String :=
  (ms.map (·.sourceId)).filter (· ≠ "")

/-- The messages without a source id, and those whose source id has not been answered before. -/
def dropAnswered (answered : List String) (ms : List Pending) : List Pending :=
  ms.filter fun m => m.sourceId = "" || !answered.contains m.sourceId

def onlyAnswered (answered : List String) (ms : List Pending) : List Pending :=
  ms.filter fun m => m.sourceId ≠ "" && answered.contains m.sourceId

end ChatRelay.Batch
