import ChatRelay.Rehearsal.Exchange
import Mathlib.Data.List.Forall2

/-!
# Calls and their results

In a request, the results of the tools that one turn calls travel in a single message, right after
the message with the calls. A conversation of complete exchanges is sent in this shape; each round
of the tool loop adds a turn that calls tools together with the results of all its calls, or ends
the loop, so every request of a generation is sent in it.

`Message.Pairing` builds such lists of messages piece by piece and is the invariant of the loop;
`Message.IsWellPaired` says of a whole list what its reader relies on.
-/

namespace ChatRelay

def Turn.IsResultOf (t : Turn) (c : ToolCall) : Prop :=
  t.role = .tool ∧ t.toolCallId = some c.id

namespace Provider

/-! ## Well-paired messages -/

def Block.callId? : Block → Option String
  | .toolUse id _ _ => some id
  | _ => none

def Block.answeredId? : Block → Option String
  | .toolResult id _ => some id
  | _ => none

namespace Message

def called (m : Message) : List String := m.blocks.filterMap Block.callId?

def HasNoResult (m : Message) : Prop := ∀ b ∈ m.blocks, ¬b.isToolResult

/-- The message has the results of the calls with these ids, in their order, and nothing else. -/
def Answers (m : Message) (ids : List String) : Prop :=
  m.speaker = .user ∧ m.blocks.map Block.answeredId? = ids.map some

/-- What holds of the messages of a request. -/
structure IsWellPaired (messages : List Message) : Prop where
  /-- A message with calls is the assistant's, and the next one answers all of them. -/
  answered : ∀ before m after, messages = before ++ m :: after → m.called ≠ [] →
    m.speaker = .assistant ∧ ∃ reply rest, after = reply :: rest ∧ reply.Answers m.called
  /-- A message with a result stands right after a message whose calls it answers. -/
  asked : ∀ before m after, messages = before ++ m :: after → ¬m.HasNoResult →
    ∃ earlier asking, before = earlier ++ [asking] ∧ asking.speaker = .assistant ∧
      asking.called ≠ [] ∧ m.Answers asking.called
  /-- No message of the user has results next to anything else. -/
  unmixed : ∀ m ∈ messages, m.speaker = .user →
    (∀ b ∈ m.blocks, b.isToolResult) ∨ m.HasNoResult
  /-- No message is empty. -/
  filled : ∀ m ∈ messages, m.blocks ≠ []

/-- Messages built from plain ones and from pairs of calls and their results. -/
inductive Pairing : List Message → Prop
  | nil : Pairing []
  | plain {m : Message} {rest : List Message} (filled : m.blocks ≠ []) (calls : m.called = [])
      (results : m.HasNoResult) (tail : Pairing rest) : Pairing (m :: rest)
  | pair {asking reply : Message} {rest : List Message} (speaker : asking.speaker = .assistant)
      (calls : asking.called ≠ []) (results : asking.HasNoResult)
      (answers : reply.Answers asking.called) (tail : Pairing rest) :
      Pairing (asking :: reply :: rest)

/-- Where a message can stand among well-paired ones. -/
inductive Place : List Message → Message → List Message → Prop
  | plain {before after : List Message} {m : Message} (calls : m.called = [])
      (results : m.HasNoResult) : Place before m after
  | asking {before rest : List Message} {m reply : Message} (speaker : m.speaker = .assistant)
      (results : m.HasNoResult) (answers : reply.Answers m.called) :
      Place before m (reply :: rest)
  | reply {earlier after : List Message} {m asking : Message}
      (speaker : asking.speaker = .assistant) (calls : asking.called ≠ [])
      (answers : m.Answers asking.called) : Place (earlier ++ [asking]) m after

theorem blocks_ne_nil_of_called {m : Message} (h : m.called ≠ []) : m.blocks ≠ [] := by
  intro hnil
  simp [called, hnil] at h

namespace Answers
variable {m : Message} {ids : List String}

theorem blocks_ne_nil (h : m.Answers ids) (hids : ids ≠ []) : m.blocks ≠ [] := by
  intro hnil
  exact hids (by simpa [hnil] using h.2.symm)

theorem isToolResult (h : m.Answers ids) : ∀ b ∈ m.blocks, b.isToolResult := by
  intro b hb
  have hid : b.answeredId? ∈ ids.map some := h.2 ▸ List.mem_map_of_mem hb
  cases b <;> simp [Block.answeredId?, Block.isToolResult] at hid ⊢

theorem called_eq_nil (h : m.Answers ids) : m.called = [] := by
  apply List.filterMap_eq_nil_iff.mpr
  intro b hb
  have hresult := h.isToolResult b hb
  cases b <;> simp [Block.callId?, Block.isToolResult] at hresult ⊢

end Answers

theorem Place.push {before after : List Message} {m : Message} (h : Place before m after)
    (first : Message) : Place (first :: before) m after := by
  cases h with
  | plain calls results => exact .plain calls results
  | asking speaker results answers => exact .asking speaker results answers
  | @reply earlier _ _ asking speaker calls answers =>
    change Place ((first :: earlier) ++ [asking]) m after
    exact .reply speaker calls answers

namespace Pairing
variable {messages more : List Message}

theorem append (h : Pairing messages) (hmore : Pairing more) : Pairing (messages ++ more) := by
  induction h with
  | nil => exact hmore
  | plain filled calls results _ ih => exact .plain filled calls results ih
  | pair speaker calls results answers _ ih => exact .pair speaker calls results answers ih

theorem place (h : Pairing messages) {before after : List Message} {m : Message}
    (heq : messages = before ++ m :: after) : Place before m after := by
  induction h generalizing before with
  | nil => simp at heq
  | plain _ calls results _ ih =>
    cases before with
    | nil =>
      obtain ⟨rfl, -⟩ := List.cons_eq_cons.mp heq
      exact .plain calls results
    | cons first before => exact (ih (List.cons_eq_cons.mp heq).2).push first
  | @pair asking reply _ speaker calls results answers _ ih =>
    match before with
    | [] =>
      obtain ⟨rfl, rfl⟩ := List.cons_eq_cons.mp heq
      exact .asking speaker results answers
    | [first] =>
      obtain ⟨rfl, htail⟩ := List.cons_eq_cons.mp heq
      obtain ⟨rfl, -⟩ := List.cons_eq_cons.mp htail
      change Place ([] ++ [asking]) _ _
      exact .reply speaker calls answers
    | first :: second :: before =>
      obtain ⟨-, htail⟩ := List.cons_eq_cons.mp heq
      exact ((ih (List.cons_eq_cons.mp htail).2).push second).push first

theorem filled (h : Pairing messages) : ∀ m ∈ messages, m.blocks ≠ [] := by
  induction h with
  | nil => simp
  | plain filled _ _ _ ih => simpa [filled] using ih
  | pair _ calls _ answers _ ih =>
    simpa [blocks_ne_nil_of_called calls, answers.blocks_ne_nil calls] using ih

theorem isWellPaired (h : Pairing messages) : IsWellPaired messages where
  answered := by
    intro before m after heq hm
    cases h.place heq with
    | plain calls => exact absurd calls hm
    | @asking _ rest _ reply speaker _ answers => exact ⟨speaker, reply, rest, rfl, answers⟩
    | reply _ _ answers => exact absurd answers.called_eq_nil hm
  asked := by
    intro before m after heq hm
    cases h.place heq with
    | plain _ results => exact absurd results hm
    | asking _ results => exact absurd results hm
    | @reply earlier _ _ asking speaker calls answers =>
      exact ⟨earlier, asking, rfl, speaker, calls, answers⟩
  unmixed := by
    intro m hm _
    obtain ⟨before, after, heq⟩ := List.append_of_mem hm
    cases h.place heq with
    | plain _ results => exact .inr results
    | asking _ results => exact .inr results
    | reply _ _ answers => exact .inl answers.isToolResult
  filled := h.filled

end Pairing

/-! ## Messages of a conversation -/

theorem called_assistantBlocks (t : Turn) :
    called ⟨.assistant, assistantBlocks t⟩ = t.toolCalls.map (·.id) := by
  have htext : (if Text.isBlankText t.content then [] else [Block.text t.content]).filterMap
      Block.callId? = [] := by
    split <;> rfl
  simp [called, assistantBlocks, htext, List.filterMap_map, Function.comp_def, Block.callId?]

theorem hasNoResult_assistantBlocks (t : Turn) :
    HasNoResult ⟨.assistant, assistantBlocks t⟩ := by
  intro b hb
  rcases List.mem_append.mp hb with htext | hcall
  · split at htext
    · simp at htext
    · obtain rfl := List.mem_singleton.mp htext
      simp [Block.isToolResult]
  · obtain ⟨c, -, rfl⟩ := List.mem_map.mp hcall
    simp [Block.isToolResult]

/-- Results that follow a message of results join it. -/
theorem foldl_addTurn_results {results : List Turn} (hrole : ∀ t ∈ results, t.role = .tool)
    (messages : List Message) {blocks : List Block} (hblocks : ∀ b ∈ blocks, b.isToolResult) :
    results.foldl addTurn (messages ++ [⟨.user, blocks⟩]) =
      messages ++ [⟨.user, blocks ++ results.map resultBlock⟩] := by
  induction results generalizing blocks with
  | nil => simp
  | cons t rest ih =>
    obtain ⟨ht, hrest⟩ := List.forall_mem_cons.mp hrole
    have hadd : addTurn (messages ++ [⟨.user, blocks⟩]) t =
        messages ++ [⟨.user, blocks ++ [resultBlock t]⟩] := by
      have hlast : (⟨.user, blocks⟩ : Message).isToolResults := by
        simpa [isToolResults] using hblocks
      simp [addTurn, ht, addResult, hlast]
    have hmore : ∀ b ∈ blocks ++ [resultBlock t], b.isToolResult := by
      simpa [or_imp, forall_and, resultBlock, Block.isToolResult] using hblocks
    rw [List.foldl_cons, hadd, ih hrest hmore]
    simp

theorem answers_results {results : List Turn} {calls : List ToolCall}
    (h : List.Forall₂ Turn.IsResultOf results calls) :
    Answers ⟨.user, results.map resultBlock⟩ (calls.map (·.id)) := by
  refine ⟨rfl, ?_⟩
  induction h with
  | nil => rfl
  | cons hresult _ ih => simpa [resultBlock, Block.answeredId?, hresult.2] using ih

theorem role_of_results {results : List Turn} {calls : List ToolCall}
    (h : List.Forall₂ Turn.IsResultOf results calls) : ∀ t ∈ results, t.role = .tool := by
  induction h with
  | nil => simp
  | cons hresult _ ih => simpa [hresult.1] using ih

end Message

/-! ## Complete exchanges -/

/-- A turn of the assistant that calls tools, with the results of all its calls. -/
structure CallRound where
  asking : Turn
  results : List Turn
  speaks : asking.role = .assistant
  calls : asking.toolCalls ≠ []
  answers : List.Forall₂ Turn.IsResultOf results asking.toolCalls

namespace CallRound

def turns (r : CallRound) : List Turn := r.asking :: r.results

def messages (r : CallRound) : List Message :=
  [⟨.assistant, Message.assistantBlocks r.asking⟩, ⟨.user, r.results.map Message.resultBlock⟩]

theorem foldl_addTurn (r : CallRound) (before : List Message) :
    r.turns.foldl Message.addTurn before = before ++ r.messages := by
  have hblocks : Message.assistantBlocks r.asking ≠ [] := by
    simp [Message.assistantBlocks, r.calls]
  have hasking : Message.addTurn before r.asking =
      before ++ [⟨.assistant, Message.assistantBlocks r.asking⟩] := by
    simp [Message.addTurn, r.speaks, hblocks]
  have hroles := Message.role_of_results r.answers
  have hlength := r.answers.length_eq
  cases hresults : r.results with
  | nil =>
    rw [hresults, List.length_nil, eq_comm, List.length_eq_zero_iff] at hlength
    exact absurd hlength r.calls
  | cons first rest =>
    rw [hresults] at hroles
    obtain ⟨hfirst, hrest⟩ := List.forall_mem_cons.mp hroles
    -- the message before the first result is the assistant's, so that result gets one of its own
    have hadd : Message.addTurn (Message.addTurn before r.asking) first =
        Message.addTurn before r.asking ++ [⟨.user, [Message.resultBlock first]⟩] := by
      rw [hasking]
      simp [Message.addTurn, hfirst, Message.addResult, Message.isToolResults]
    have hblock : ∀ b ∈ [Message.resultBlock first], b.isToolResult := by
      simp [Message.resultBlock, Block.isToolResult]
    rw [turns, hresults, List.foldl_cons, List.foldl_cons, hadd,
      Message.foldl_addTurn_results hrest _ hblock, hasking, messages, hresults]
    simp

theorem pairing (r : CallRound) : Message.Pairing r.messages := by
  have hcalled := Message.called_assistantBlocks r.asking
  refine .pair rfl ?_ (Message.hasNoResult_assistantBlocks r.asking) ?_ .nil
  · simpa [hcalled] using r.calls
  · rw [hcalled]
    exact Message.answers_results r.answers

end CallRound

/-- A turn of the user, rounds of calls, and a turn of the assistant without calls. -/
structure CompleteExchange where
  question : Turn
  rounds : List CallRound
  reply : Turn
  asks : question.role = .user
  replies : reply.role = .assistant
  ends : reply.toolCalls = []

def CompleteExchange.turns (e : CompleteExchange) : List Turn :=
  e.question :: e.rounds.flatMap CallRound.turns ++ [e.reply]

/-! ### What turns add to a request -/

/-- Whatever the messages before are, the turns add well-paired ones to them. -/
def AddsPairing (turns : List Turn) : Prop :=
  ∀ before, ∃ added, turns.foldl Message.addTurn before = before ++ added ∧ Message.Pairing added

namespace AddsPairing

theorem nil : AddsPairing [] := fun _ => ⟨[], by simp, .nil⟩

theorem append {turns more : List Turn} (h : AddsPairing turns) (hmore : AddsPairing more) :
    AddsPairing (turns ++ more) := by
  intro before
  obtain ⟨added, heq, hadded⟩ := h before
  obtain ⟨addedMore, heqMore, haddedMore⟩ := hmore (before ++ added)
  exact ⟨added ++ addedMore, by rw [List.foldl_append, heq, heqMore, List.append_assoc],
    hadded.append haddedMore⟩

theorem flatMap {α : Type} {f : α → List Turn} {l : List α} (h : ∀ a ∈ l, AddsPairing (f a)) :
    AddsPairing (l.flatMap f) := by
  induction l with
  | nil => exact nil
  | cons a l ih =>
    obtain ⟨ha, hl⟩ := List.forall_mem_cons.mp h
    exact ha.append (ih hl)

theorem user {t : Turn} (hrole : t.role = .user) : AddsPairing [t] := by
  intro before
  refine ⟨[⟨.user, [.text t.content]⟩], by simp [Message.addTurn, hrole], .plain ?_ ?_ ?_ .nil⟩
  · simp
  · simp [Message.called, Block.callId?]
  · simp [Message.HasNoResult, Block.isToolResult]

/-- A turn of the assistant without calls is left out when it is blank. -/
theorem reply {t : Turn} (hrole : t.role = .assistant) (hcalls : t.toolCalls = []) :
    AddsPairing [t] := by
  intro before
  by_cases hblocks : Message.assistantBlocks t = []
  · exact ⟨[], by simp [Message.addTurn, hrole, hblocks], .nil⟩
  · refine ⟨[⟨.assistant, Message.assistantBlocks t⟩],
      by simp [Message.addTurn, hrole, hblocks], .plain hblocks ?_ ?_ .nil⟩
    · simp [Message.called_assistantBlocks, hcalls]
    · exact Message.hasNoResult_assistantBlocks t

theorem callRound (r : CallRound) : AddsPairing r.turns :=
  fun before => ⟨r.messages, r.foldl_addTurn before, r.pairing⟩

theorem completeExchange (e : CompleteExchange) : AddsPairing e.turns :=
  ((user e.asks).append (flatMap fun r _ => callRound r)).append (reply e.replies e.ends)

theorem isWellPaired {turns : List Turn} (h : AddsPairing turns) :
    Message.IsWellPaired (Message.ofTurns turns) := by
  obtain ⟨added, heq, hadded⟩ := h []
  rw [Message.ofTurns, heq]
  exact hadded.isWellPaired

end AddsPairing

/-! ## Rounds of the tool loop -/

/-- Whatever the model answers was read from a reply. -/
def Model.Replies (model : Model) : Prop :=
  ∀ n turns calledOff t, model n turns = .answered calledOff (.ok t) →
    ∃ reply : HttpReply, reply.turn = .ok t

theorem HttpReply.role_turn {reply : HttpReply} {t : Turn} (h : reply.turn = .ok t) :
    t.role = .assistant := by
  have hread : ∃ text, readAnswer text = .ok t := by
    unfold HttpReply.turn at h
    grind
  obtain ⟨text, hread⟩ := hread
  unfold readAnswer at hread
  cases hparse : Json.parseWith answerRecord.read text with
  | error fault => simp [hparse] at hread
  | ok blocks =>
    obtain rfl : turnOfBlocks blocks = t := by simpa [hparse] using hread
    rfl

namespace Generation
variable {moments : Nat → Moment} {tools : ToolSet} {calls : List ToolCall} {g g' : Generation}

theorem sent_callAll {all : Bool} (h : callAll moments tools calls g = (g', all)) :
    g'.sent = g.sent := by
  induction calls generalizing g with
  | nil => rw [← (Prod.mk.inj h).1]
  | cons c rest ih =>
    unfold callAll at h
    split at h
    · rw [← (Prod.mk.inj h).1]
    · exact (ih h).trans rfl

/-- When all calls are run, each has its result. -/
theorem added_callAll (h : callAll moments tools calls g = (g', true)) :
    ∃ results, g'.transcript = g.transcript ++ results ∧ g'.produced = g.produced ++ results ∧
      List.Forall₂ Turn.IsResultOf results calls := by
  induction calls generalizing g with
  | nil =>
    obtain rfl : g = g' := (Prod.mk.inj h).1
    exact ⟨[], by simp, by simp, .nil⟩
  | cons c rest ih =>
    unfold callAll at h
    split at h
    · cases h
    · obtain ⟨results, htranscript, hproduced, hresults⟩ := ih h
      refine ⟨.toolResult c.id (resultText
        (callOutcome (moments g.executed.length).clock tools c).result) :: results, ?_, ?_,
        .cons ⟨rfl, rfl⟩ hresults⟩
      · rw [htranscript]
        simp [call, add]
      · rw [hproduced]
        simp [call, add]

/-- A turn that calls tools and the run of all its calls keep a conversation well-paired. -/
theorem addsPairing_callAll {turn : Turn} (hrole : turn.role = .assistant)
    (hcalls : turn.toolCalls ≠ [])
    (h : callAll moments tools turn.toolCalls (g.add turn) = (g', true))
    (hg : AddsPairing g.transcript) : AddsPairing g'.transcript := by
  obtain ⟨results, heq, -, hresults⟩ := added_callAll h
  have hround := AddsPairing.callRound ⟨turn, results, hrole, hcalls, hresults⟩
  have : g'.transcript = g.transcript ++ turn :: results := by simp [heq, add]
  rw [this]
  exact hg.append hround

theorem addsPairing_rounds {model : Model} (hmodel : model.Replies) {maxRounds left : Nat}
    (hg : AddsPairing g.transcript) (hsent : ∀ turns ∈ g.sent, AddsPairing turns) :
    ∀ turns ∈ (rounds moments tools model maxRounds left g).1.sent, AddsPairing turns := by
  induction left generalizing g with
  | zero => exact hsent
  | succ left ih =>
    have hasked : ∀ turns ∈ g.sent ++ [g.transcript], AddsPairing turns := by
      simpa [or_imp, forall_and] using ⟨hsent, hg⟩
    unfold rounds
    split
    · exact hsent
    · dsimp only
      split
      · exact hasked
      · exact hasked
      · rename_i calledOff turn hanswer
        obtain ⟨reply, hreply⟩ := hmodel _ _ _ _ hanswer
        split
        · exact hasked
        · rename_i hcalls
          split
          · rename_i g' hall
            apply ih
            · exact addsPairing_callAll (HttpReply.role_turn hreply) (by simpa using hcalls) hall hg
            · rw [sent_callAll hall]
              exact hasked
          · rename_i g' hall
            rw [sent_callAll hall]
            exact hasked

end Generation

/-- Every request of a generation for complete exchanges and a question is well-paired, whatever
tools there are, whatever the replies of the model, and whenever it is called off. -/
theorem requests_wellPaired (moments : Nat → Moment) (access : Access) (system : String)
    (tools : ToolSet) {model : Model} (hmodel : model.Replies) (history : List CompleteExchange)
    {question : Turn} (hquestion : question.role = .user) (calledOff : Bool) :
    ∀ request ∈ (generateAmid moments tools model
        (history.flatMap CompleteExchange.turns ++ [question]) calledOff).1.sent.map
          (access.request system tools.definitions),
      ∃ messages : List Message,
        request.body.get? "messages" = some (.array (messages.map (·.toJson))) ∧
          Message.IsWellPaired messages := by
  intro request hrequest
  obtain ⟨turns, hturns, rfl⟩ := List.mem_map.mp hrequest
  have hstart : AddsPairing (history.flatMap CompleteExchange.turns ++ [question]) :=
    (AddsPairing.flatMap fun e _ => .completeExchange e).append (.user hquestion)
  have hpaired : AddsPairing turns :=
    Generation.addsPairing_rounds hmodel hstart (by simp) turns hturns
  exact ⟨Message.ofTurns turns, rfl, hpaired.isWellPaired⟩

end Provider

/-! ### A conversation with calls in the past and in the present -/

namespace Rehearsal
open Provider

theorem model_replies (script : List Exchange) : Model.Replies (model script) := by
  intro n turns calledOff t h
  cases hexchange : (script[n]?).getD .exhausted with
  | reply r =>
    simp only [model, hexchange, Exchange.answered, Answered.answered.injEq] at h
    exact ⟨r, h.2⟩
  | failure reason => simp [model, hexchange, Exchange.answered] at h
  | callOff => simp [model, hexchange, Exchange.answered] at h

/-- An exchange whose turns of the assistant have no text. -/
def silentExchange : CompleteExchange where
  question := .user "What time is it?"
  rounds := [{
    asking := { role := .assistant, content := " ", toolCalls := [⟨"a", "current_time", .object []⟩,
      ⟨"b", "current_time", .object [("utc_offset", .string "+02:00")]⟩] }
    results := [.toolResult "a" "12:00", .toolResult "b" "14:00"]
    speaks := rfl
    calls := by decide
    answers := .cons ⟨rfl, rfl⟩ (.cons ⟨rfl, rfl⟩ .nil) }]
  reply := .assistant "\n"
  asks := rfl
  replies := rfl
  ends := rfl

/-- A reply that calls a tool and gives a result of its own, then one that calls none. -/
def lookThenTell : List Exchange :=
  [.reply ⟨200, [], .ok ("\x7b\"content\":[\x7b\"type\":\"text\",\"text\":\"\"\x7d," ++
      "\x7b\"type\":\"tool_result\",\"tool_use_id\":\"c\",\"content\":\"noon\"\x7d," ++
      "\x7b\"type\":\"tool_use\",\"id\":\"c\",\"name\":\"clock\",\"input\":\x7b\x7d\x7d]\x7d")⟩,
    .reply ⟨200, [], .ok "\x7b\"content\":[\x7b\"type\":\"text\",\"text\":\"Noon\"\x7d]\x7d"⟩]

def secondQuestion : Generation :=
  (generateAmid (fun _ => { clock := fun _ => "12:00" }) [] (model lookThenTell)
    ([silentExchange].flatMap CompleteExchange.turns ++ [.user "Sure?"]) false).1

/-- Both requests are well-paired: no message stands for the silent reply, the two results of the
past share a message, and the call of the present is answered in the second request. -/
theorem secondQuestion_wellPaired :
    Model.Replies (model lookThenTell) ∧ (Turn.user "Sure?").role = .user ∧
      secondQuestion.sent.map (fun turns => (Message.ofTurns turns).map (·.blocks.length)) =
        [[1, 2, 2, 1], [1, 2, 2, 1, 1, 1]] ∧
      ∀ request ∈ secondQuestion.sent.map
          (Access.request ⟨endpoint, "key", "model"⟩ "" (ToolSet.definitions [])),
        ∃ messages : List Message,
          request.body.get? "messages" = some (.array (messages.map (·.toJson))) ∧
            Message.IsWellPaired messages := by
  refine ⟨model_replies lookThenTell, rfl, by decide +kernel, ?_⟩
  rw [secondQuestion]
  exact requests_wellPaired _ _ _ [] (model_replies lookThenTell) [silentExchange] rfl false

end Rehearsal
end ChatRelay
