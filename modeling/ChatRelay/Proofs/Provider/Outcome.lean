import ChatRelay.Proofs.Provider.Requests
import ChatRelay.Rehearsal.Script

/-!
# The outcome of a generation

A generation that is not called off asks until an answer calls no tool, until there is no answer, or
until its rounds are used up. Which of these it is depends on the answers alone: `course` reads it
off them. What the tools do only shows in the turns of the generation, where the results of the
calls follow each answer, and in the requests that carry these turns.
-/

namespace ChatRelay.Provider

/-! ## Answers -/

/-- What is received in an exchange; it may be that the request cannot be sent. -/
def received : Except String HttpReply → Except EngineError Turn
  | .error reason => .error (.requestFailed providerName reason)
  | .ok reply => reply.turn

def Model.answering (answers : Nat → Except EngineError Turn) : Model :=
  fun n _ => .answered false (answers n)

def Asks (answer : Except EngineError Turn) : Prop :=
  ∃ turn, answer = .ok turn ∧ turn.toolCalls ≠ []

structure Course where
  /-- The answers that call tools. -/
  asking : List Turn
  /-- What comes of the request after them, if there is one. -/
  last : Option (Except EngineError Turn)

/-- The course of so many rounds, the first of which gets the `n`-th answer. -/
def course (answers : Nat → Except EngineError Turn) : Nat → Nat → Course
  | _, 0 => ⟨[], none⟩
  | n, left + 1 =>
    match answers n with
    | .error cause => ⟨[], some (.error cause)⟩
    | .ok turn =>
      if turn.toolCalls.isEmpty then ⟨[], some (.ok turn)⟩
      else
        let later := course answers (n + 1) left
        ⟨turn :: later.asking, later.last⟩

variable {answers : Nat → Except EngineError Turn}

theorem asks_ok {turn : Turn} : Asks (.ok turn) ↔ turn.toolCalls ≠ [] := by
  simp [Asks]

theorem not_asks_error (cause : EngineError) : ¬Asks (.error cause) := by
  simp [Asks]

theorem course_of_not_asks {n : Nat} (h : ¬Asks (answers n)) (left : Nat) :
    course answers n (left + 1) = ⟨[], some (answers n)⟩ := by
  cases hanswer : answers n with
  | error cause => simp [course, hanswer]
  | ok turn =>
    have hcalls : turn.toolCalls = [] := by simpa [hanswer, asks_ok] using h
    simp [course, hanswer, hcalls]

theorem course_of_asks {n : Nat} {turn : Turn} (h : answers n = .ok turn)
    (hcalls : turn.toolCalls ≠ []) (left : Nat) :
    course answers n (left + 1) =
      ⟨turn :: (course answers (n + 1) left).asking, (course answers (n + 1) left).last⟩ := by
  simp [course, h, hcalls]

/-- How a course and the answers of its rounds belong together. -/
structure Course.Follows (c : Course) (answers : Nat → Except EngineError Turn) (n left : Nat) :
    Prop where
  length_le : c.asking.length ≤ left
  asking : ∀ k turn, c.asking[k]? = some turn → answers (n + k) = .ok turn ∧ turn.toolCalls ≠ []
  last : c.last =
    if c.asking.length < left then some (answers (n + c.asking.length)) else none
  not_asks : c.asking.length < left → ¬Asks (answers (n + c.asking.length))

theorem Course.Follows.cons {c : Course} {n left : Nat} (h : c.Follows answers (n + 1) left)
    {turn : Turn} (hanswer : answers n = .ok turn) (hcalls : turn.toolCalls ≠ []) :
    Course.Follows ⟨turn :: c.asking, c.last⟩ answers n (left + 1) where
  length_le := Nat.succ_le_succ h.length_le
  asking
    | 0, first, hfirst => by
      obtain rfl : turn = first := by simpa using hfirst
      exact ⟨hanswer, hcalls⟩
    | k + 1, later, hlater => by
      simpa [Nat.add_assoc, Nat.add_comm 1] using h.asking k later hlater
  last := by simpa [Nat.add_assoc, Nat.add_comm 1] using h.last
  not_asks hlt := by
    simpa [Nat.add_assoc, Nat.add_comm 1] using h.not_asks (Nat.lt_of_succ_lt_succ hlt)

theorem follows_course (n left : Nat) : (course answers n left).Follows answers n left := by
  induction left generalizing n with
  | zero => exact ⟨by simp [course], by simp [course], rfl, by simp⟩
  | succ left ih =>
    by_cases hasks : Asks (answers n)
    · obtain ⟨turn, hanswer, hcalls⟩ := hasks
      rw [course_of_asks hanswer hcalls]
      exact (ih (n + 1)).cons hanswer hcalls
    · rw [course_of_not_asks hasks]
      exact ⟨by simp, by simp, by simp, fun _ => hasks⟩

namespace Course.Follows
variable {c : Course} {left k : Nat}

theorem asks_of_lt (h : c.Follows answers 0 left) (hk : k < c.asking.length) :
    Asks (answers k) := by
  obtain ⟨hanswer, hcalls⟩ := h.asking k _ (List.getElem?_eq_getElem hk)
  exact ⟨_, by simpa using hanswer, hcalls⟩

/-- The answers ask as long as the course goes on, and not any more where it ends. -/
theorem length_eq (h : c.Follows answers 0 left) (hk : k < left)
    (hbefore : ∀ j < k, Asks (answers j)) (hends : ¬Asks (answers k)) : c.asking.length = k := by
  rcases Nat.lt_trichotomy c.asking.length k with hlt | heq | hgt
  · exact absurd (by simpa using hbefore _ hlt) (h.not_asks (Nat.lt_trans hlt hk))
  · exact heq
  · exact absurd (h.asks_of_lt hgt) hends

theorem last_eq_none_iff (h : c.Follows answers 0 left) :
    c.last = none ↔ ∀ k < left, Asks (answers k) := by
  rw [h.last]
  constructor
  · intro hnone k hk
    have hlength : ¬c.asking.length < left := by simpa using hnone
    exact h.asks_of_lt (by omega)
  · intro hall
    have hlength : ¬c.asking.length < left := by
      intro hlt
      exact h.not_asks hlt (by simpa using hall _ hlt)
    simp [hlength]

theorem last_of_error (h : c.Follows answers 0 left) (hk : k < left)
    (hbefore : ∀ j < k, Asks (answers j)) {cause : EngineError}
    (herror : answers k = .error cause) :
    c.asking.length = k ∧ c.last = some (.error cause) := by
  have hlength : c.asking.length = k :=
    h.length_eq hk hbefore (by simpa [herror] using not_asks_error cause)
  exact ⟨hlength, by simp [h.last, hlength, hk, herror]⟩

/-- The course that ends with an answer ends with one that calls no tool. -/
theorem answered_of_last (h : c.Follows answers 0 left) {last : Turn}
    (hlast : c.last = some (.ok last)) :
    c.asking.length < left ∧ answers c.asking.length = .ok last ∧ last.toolCalls = [] := by
  have hlt : c.asking.length < left := by
    by_contra hge
    simp [h.last, hge] at hlast
  have hanswer : answers c.asking.length = .ok last := by simpa [h.last, hlt] using hlast
  exact ⟨hlt, hanswer, by simpa [hanswer, asks_ok] using h.not_asks hlt⟩

theorem last_ok_iff (h : c.Follows answers 0 left) :
    (∃ last, c.last = some (.ok last)) ↔
      ∃ k < left, (∃ last, answers k = .ok last ∧ last.toolCalls = []) ∧
        ∀ j < k, ∃ turn, answers j = .ok turn := by
  constructor
  · rintro ⟨last, hlast⟩
    obtain ⟨hlt, hanswer⟩ := h.answered_of_last hlast
    refine ⟨c.asking.length, hlt, ⟨last, hanswer⟩, ?_⟩
    intro j hj
    obtain ⟨turn, hturn, -⟩ := h.asks_of_lt hj
    exact ⟨turn, hturn⟩
  · rintro ⟨k, hk, ⟨last, hanswer, hcalls⟩, hbefore⟩
    have hle : c.asking.length ≤ k := by
      by_contra hgt
      have hasks := h.asks_of_lt (Nat.lt_of_not_le hgt)
      rw [hanswer, asks_ok] at hasks
      exact hasks hcalls
    have hturn : ∃ turn, answers c.asking.length = .ok turn := by
      rcases Nat.eq_or_lt_of_le hle with heq | hlt
      · exact ⟨last, heq ▸ hanswer⟩
      · exact hbefore _ hlt
    simpa [h.last, Nat.lt_of_le_of_lt hle hk] using hturn

end Course.Follows

/-! ## Results -/

/-- The text that answers a call: the output of the tool of that name, or what went wrong. -/
def answerText (clock : WallClock) (tools : ToolSet) (c : ToolCall) : String :=
  match tools.find? c.name with
  | none => "Error: " ++ (ToolError.notFound c.name).message
  | some tool =>
    match (tool.run clock c.arguments).result with
    | .ok output => output
    | .error cause => "Error: " ++ cause.message

/-- The results of calls, the first of which is the `n`-th of the generation. -/
def resultsFrom (moments : Nat → Moment) (tools : ToolSet) (n : Nat) (calls : List ToolCall) :
    List Turn :=
  (calls.zipIdx n).map fun (c, i) => .toolResult c.id (answerText (moments i).clock tools c)

/-- Answers that call tools, each with the results of its calls. -/
def withResults (moments : Nat → Moment) (tools : ToolSet) : Nat → List Turn → List Turn
  | _, [] => []
  | n, turn :: rest =>
    turn :: resultsFrom moments tools n turn.toolCalls ++
      withResults moments tools (n + turn.toolCalls.length) rest

theorem resultText_callOutcome (clock : WallClock) (tools : ToolSet) (c : ToolCall) :
    Generation.resultText (Generation.callOutcome clock tools c).result =
      answerText clock tools c := by
  unfold Generation.callOutcome answerText
  split
  case h_1 tool htool =>
    simp only [htool]
    cases (tool.run clock c.arguments).result <;> rfl
  case h_2 hmissing =>
    simp only [hmissing]
    rfl

/-! ## Rounds -/

namespace Generation
variable {moments : Nat → Moment} {tools : ToolSet} {g : Generation}

theorem untouched_of_callAll {calls : List ToolCall}
    (h : (callAll moments tools calls g).1.calledOff = false) : g.calledOff = false := by
  by_contra hcalled
  rw [Bool.not_eq_false] at hcalled
  cases calls <;> simp [callAll, hcalled] at h

theorem untouched_of_rounds {model : Model} {maxRounds left : Nat}
    (h : (rounds moments tools model maxRounds left g).1.calledOff = false) :
    g.calledOff = false := by
  by_contra hcalled
  rw [Bool.not_eq_false] at hcalled
  cases left <;> simp [rounds, hcalled] at h

def withCalls (g : Generation) (moments : Nat → Moment) (tools : ToolSet)
    (calls : List ToolCall) : Generation :=
  let results := resultsFrom moments tools g.executed.length calls
  { g with
    transcript := g.transcript ++ results
    produced := g.produced ++ results
    executed := g.executed ++ calls }

/-- All calls are run if the generation is not called off. -/
theorem callAll_of_untouched {calls : List ToolCall}
    (h : (callAll moments tools calls g).1.calledOff = false) :
    callAll moments tools calls g = (g.withCalls moments tools calls, true) := by
  induction calls generalizing g with
  | nil => simp [callAll, withCalls, resultsFrom]
  | cons c rest ih =>
    have hoff := untouched_of_callAll h
    simp only [callAll, hoff, Bool.false_eq_true, if_false] at h ⊢
    have hcall := untouched_of_callAll h
    rw [ih h]
    simp only [withCalls, hcall]
    simp [call, add, resultsFrom, resultText_callOutcome, hoff]

/-- The generation, not called off, once an answer and the results of its calls have joined it. -/
def withRound (g : Generation) (moments : Nat → Moment) (tools : ToolSet) (turn : Turn) :
    Generation :=
  ({ g with sent := g.sent ++ [g.transcript], calledOff := false }.add turn).withCalls
    moments tools turn.toolCalls

section
variable (g : Generation) (moments : Nat → Moment) (tools : ToolSet) (turn : Turn)

@[simp] theorem sent_withRound :
    (g.withRound moments tools turn).sent = g.sent ++ [g.transcript] := rfl

@[simp] theorem executed_withRound :
    (g.withRound moments tools turn).executed = g.executed ++ turn.toolCalls := rfl

@[simp] theorem transcript_withRound : (g.withRound moments tools turn).transcript =
    g.transcript ++ turn :: resultsFrom moments tools g.executed.length turn.toolCalls := by
  simp [withRound, withCalls, add]

@[simp] theorem produced_withRound : (g.withRound moments tools turn).produced =
    g.produced ++ turn :: resultsFrom moments tools g.executed.length turn.toolCalls := by
  simp [withRound, withCalls, add]

end

theorem rounds_of_asks {turn : Turn} (hanswer : answers g.sent.length = .ok turn)
    (hcalls : turn.toolCalls ≠ []) {maxRounds left : Nat}
    (h : (rounds moments tools (.answering answers) maxRounds (left + 1) g).1.calledOff = false) :
    rounds moments tools (.answering answers) maxRounds (left + 1) g =
      rounds moments tools (.answering answers) maxRounds left
        (g.withRound moments tools turn) := by
  have hoff := untouched_of_rounds h
  have hempty : turn.toolCalls.isEmpty = false := by simpa using hcalls
  simp only [rounds, hoff, Model.answering, hanswer, hempty, Bool.false_eq_true, if_false] at h ⊢
  rw [callAll_of_untouched]
  · rfl
  · split at h
    case h_1 hall => simpa [hall] using untouched_of_rounds h
    case h_2 hall => simpa [hall] using h

/-- What a generation returns, by the course of its rounds and all that it has added. -/
def conclusion (maxRounds : Nat) (produced : List Turn) :
    Option (Except EngineError Turn) → Except EngineError Reply
  | none => .error (.toolLoopExceeded maxRounds)
  | some (.error cause) => .error cause
  | some (.ok turn) => .ok ⟨turn.content, produced ++ [turn]⟩

theorem conclusion_eq_ok {maxRounds : Nat} {produced : List Turn}
    {last : Option (Except EngineError Turn)} {reply : Reply} :
    conclusion maxRounds produced last = .ok reply ↔
      ∃ turn, last = some (.ok turn) ∧ reply = ⟨turn.content, produced ++ [turn]⟩ := by
  rcases last with _ | _ | turn <;> simp [conclusion, eq_comm]

theorem conclusion_eq_toolLoopExceeded {maxRounds : Nat} {produced : List Turn}
    {last : Option (Except EngineError Turn)}
    (h : last ≠ some (.error (.toolLoopExceeded maxRounds))) :
    conclusion maxRounds produced last = .error (.toolLoopExceeded maxRounds) ↔ last = none := by
  rcases last with _ | cause | turn
  · simp [conclusion]
  · simpa [conclusion] using h
  · simp [conclusion]

def conversations (g : Generation) (moments : Nat → Moment) (tools : ToolSet) (left : Nat)
    (asking : List Turn) : List (List Turn) :=
  (List.range (min (asking.length + 1) left)).map fun k =>
    g.transcript ++ withResults moments tools g.executed.length (asking.take k)

theorem conversations_withRound (turn : Turn) (left : Nat) (asking : List Turn) :
    g.conversations moments tools (left + 1) (turn :: asking) =
      g.transcript :: (g.withRound moments tools turn).conversations moments tools left asking := by
  simp [conversations, List.range_succ_eq_map, withResults]

/-- An answer that calls no tool, or none, ends the rounds. -/
theorem rounds_of_not_asks (moments : Nat → Moment) (tools : ToolSet) (hoff : g.calledOff = false)
    (hanswer : ¬Asks (answers g.sent.length)) (maxRounds left : Nat) :
    (rounds moments tools (.answering answers) maxRounds (left + 1) g).1.sent =
        g.sent ++ [g.transcript] ∧
      (rounds moments tools (.answering answers) maxRounds (left + 1) g).2 =
        conclusion maxRounds g.produced (some (answers g.sent.length)) := by
  cases h : answers g.sent.length with
  | error cause => simp [rounds, hoff, Model.answering, h, conclusion]
  | ok turn =>
    have hcalls : turn.toolCalls = [] := by simpa [h, asks_ok] using hanswer
    simp [rounds, hoff, Model.answering, h, hcalls, conclusion, add]

/-- What rounds send and return, by the course that the answers give them. -/
theorem rounds_by_course (maxRounds left : Nat)
    (h : (rounds moments tools (.answering answers) maxRounds left g).1.calledOff = false) :
    let c := course answers g.sent.length left
    (rounds moments tools (.answering answers) maxRounds left g).1.sent =
        g.sent ++ g.conversations moments tools left c.asking ∧
      (rounds moments tools (.answering answers) maxRounds left g).2 = conclusion maxRounds
        (g.produced ++ withResults moments tools g.executed.length c.asking) c.last := by
  induction left generalizing g with
  | zero => simp [rounds, course, conversations, conclusion]
  | succ left ih =>
    by_cases hasks : Asks (answers g.sent.length)
    · obtain ⟨turn, hanswer, hcalls⟩ := hasks
      -- an answer that calls tools is the first of the course; the rest is the course of what is
      -- left, from the generation with the results
      have hround := rounds_of_asks hanswer hcalls h
      rw [hround] at h ⊢
      obtain ⟨hsent, hreturn⟩ := ih h
      rw [hsent, hreturn, course_of_asks hanswer hcalls]
      simp [conversations_withRound, withResults]
    · obtain ⟨hsent, hreturn⟩ := rounds_of_not_asks moments tools (untouched_of_rounds h) hasks
        maxRounds left
      rw [hsent, hreturn, course_of_not_asks hasks]
      simp [conversations, withResults]

end Generation

/-! ## Generations -/

theorem received_ne_toolLoopExceeded (exchange : Except String HttpReply) (rounds : Nat) :
    received exchange ≠ .error (.toolLoopExceeded rounds) := by
  cases exchange with
  | error reason => simp [received]
  | ok reply =>
    unfold received HttpReply.turn
    grind

theorem role_of_received {exchange : Except String HttpReply} {turn : Turn}
    (h : received exchange = .ok turn) : turn.role = .assistant := by
  cases exchange with
  | error reason => simp [received] at h
  | ok reply => exact HttpReply.role_turn h

/-- A generation takes the course that the answers give it. -/
theorem generateAmid_by_course {moments : Nat → Moment} {tools : ToolSet} {turns : List Turn}
    (h : (generateAmid moments tools (.answering answers) turns false).1.calledOff = false) :
    ∃ c : Course, c.Follows answers 0 maxRounds ∧
      (generateAmid moments tools (.answering answers) turns false).1.sent =
        (List.range (min (c.asking.length + 1) maxRounds)).map (fun k =>
          turns ++ withResults moments tools 0 (c.asking.take k)) ∧
      (generateAmid moments tools (.answering answers) turns false).2 =
        Generation.conclusion maxRounds (withResults moments tools 0 c.asking) c.last := by
  obtain ⟨hsent, hreturn⟩ := Generation.rounds_by_course maxRounds maxRounds h
  exact ⟨course answers 0 maxRounds, follows_course 0 maxRounds, hsent, hreturn⟩

/-- A generation that nobody calls off, by the exchanges in which its requests are answered. It
sends no more requests than it has rounds, each of which carries the conversation with all that has
been added so far. It returns a reply if an answer calls no tool and no earlier one is missing,
whatever the tools do; the reply consists of the answers before, each with the results of its calls,
and that answer. It returns why there is no answer if the ones before all call tools, and that the
rounds are used up if all answers do. -/
theorem outcome_of_exchanges (moments : Nat → Moment) (access : Access) (system : String)
    (tools : ToolSet) (exchanges : Nat → Except String HttpReply) (turns : List Turn) :
    let answers n := received (exchanges n)
    let result := generateAmid moments tools (.answering answers) turns false
    let requests := result.1.sent.map (access.request system tools.definitions)
    let outcome := result.2
    result.1.calledOff = false →
      requests.length ≤ maxRounds ∧
      ∃ asking : List Turn,
        (∀ k turn, asking[k]? = some turn →
          answers k = .ok turn ∧ turn.role = .assistant ∧ turn.toolCalls ≠ []) ∧
        List.Forall₂ (fun request conversation => request.Carries system conversation) requests
          ((List.range (min (asking.length + 1) maxRounds)).map fun k =>
            turns ++ withResults moments tools 0 (asking.take k)) ∧
        ((∃ reply, outcome = .ok reply) ↔
          ∃ k < maxRounds, (∃ last, answers k = .ok last ∧ last.toolCalls = []) ∧
            ∀ j < k, ∃ turn, answers j = .ok turn) ∧
        (∀ reply, outcome = .ok reply →
          ∃ last, answers asking.length = .ok last ∧ last.role = .assistant ∧
            last.toolCalls = [] ∧
            reply = ⟨last.content, withResults moments tools 0 asking ++ [last]⟩) ∧
        (∀ k < maxRounds, (∀ j < k, Asks (answers j)) → ∀ cause, answers k = .error cause →
          outcome = .error cause ∧ requests.length = k + 1) ∧
        (outcome = .error (.toolLoopExceeded maxRounds) ↔ ∀ k < maxRounds, Asks (answers k)) := by
  intro answers result requests outcome huntouched
  obtain ⟨c, hcourse, hsent, hreturn⟩ := generateAmid_by_course huntouched
  replace hreturn :
      outcome = Generation.conclusion maxRounds (withResults moments tools 0 c.asking) c.last :=
    hreturn
  have hcount : requests.length = min (c.asking.length + 1) maxRounds := by
    simp [requests, result, hsent]
  refine ⟨hcount ▸ Nat.min_le_right _ _, c.asking, ?asking, ?carried, ?complete, ?reply, ?failed,
    ?exceeded⟩
  case asking =>
    intro k turn hturn
    obtain ⟨hanswer, hcalls⟩ := hcourse.asking k turn hturn
    rw [Nat.zero_add] at hanswer
    exact ⟨hanswer, role_of_received hanswer, hcalls⟩
  case carried =>
    rw [← hsent, List.forall₂_map_left_iff, List.forall₂_same]
    exact fun conversation _ => carries_request access system tools.definitions conversation
  case complete =>
    rw [← hcourse.last_ok_iff]
    simp [hreturn, Generation.conclusion_eq_ok, exists_comm]
  case reply =>
    intro reply hreply
    rw [hreturn, Generation.conclusion_eq_ok] at hreply
    obtain ⟨last, hlast, rfl⟩ := hreply
    obtain ⟨-, hanswer, hcalls⟩ := hcourse.answered_of_last hlast
    exact ⟨last, hanswer, role_of_received hanswer, hcalls, rfl⟩
  case failed =>
    intro k hk hbefore cause hcause
    obtain ⟨hlength, hlast⟩ := hcourse.last_of_error hk hbefore hcause
    rw [hreturn, hlast, hcount, hlength]
    exact ⟨rfl, Nat.min_eq_left hk⟩
  case exceeded =>
    rw [hreturn, ← hcourse.last_eq_none_iff]
    apply Generation.conclusion_eq_toolLoopExceeded
    rw [hcourse.last]
    split
    · simpa using received_ne_toolLoopExceeded _ _
    · simp

/-! ### Calls that go wrong -/

section Mishaps
open Rehearsal

/-- A reply that calls a tool that fails and one that does not exist, then one that calls none. -/
def digThenTell : Nat → Except String HttpReply
  | 0 => .ok ⟨200, [], .ok ("\x7b\"content\":[" ++
      "\x7b\"type\":\"tool_use\",\"id\":\"a\",\"name\":\"dig\",\"input\":\x7b\x7d\x7d," ++
      "\x7b\"type\":\"tool_use\",\"id\":\"b\",\"name\":\"fly\",\"input\":\x7b\x7d\x7d]\x7d")⟩
  | 1 => .ok ⟨200, [], .ok "\x7b\"content\":[\x7b\"type\":\"text\",\"text\":\"Stuck\"\x7d]\x7d"⟩
  | _ => .error "gone"

def shovel : ToolSet := .ofList [ScriptedTool.tool { name := "dig", script := .fail "rock" }]

def noon : Nat → Moment := fun _ => { clock := fun _ => "12:00" }

def wayOut : Generation × Except EngineError Reply :=
  generateAmid noon shovel (.answering fun n => received (digThenTell n))
    [.system " Be brief. ", .user "Out?"] false

/-- What stands in the second request of that generation. -/
def wayBack : List Turn := [
  .system " Be brief. ", .user "Out?",
  { role := .assistant, content := "", toolCalls := [⟨"a", "dig", .object []⟩,
    ⟨"b", "fly", .object []⟩] },
  .toolResult "a" "Error: Invalid parameters for tool dig: rock",
  .toolResult "b" "Error: Tool fly not found"]

/-- Both calls are answered by an error, and the generation goes on to its reply. -/
theorem wayOut_comes_to_reply :
    wayOut.1.calledOff = false ∧
      wayOut.2 = .ok ⟨"Stuck", wayBack.drop 2 ++ [.assistant "Stuck"]⟩ ∧
      List.Forall₂ (fun request conversation => request.Carries "You help." conversation)
        (wayOut.1.sent.map (Access.request ⟨endpoint, "key", "model"⟩ "You help."
          shovel.definitions))
        [wayBack.take 2, wayBack] := by
  have huntouched : wayOut.1.calledOff = false := by decide +kernel
  have hsent : wayOut.1.sent.length = 2 := by decide +kernel
  refine ⟨huntouched, by decide +kernel, ?_⟩
  unfold wayOut at huntouched hsent ⊢
  obtain ⟨-, asking, hasking, hcarried, -⟩ := outcome_of_exchanges noon ⟨endpoint, "key", "model"⟩
    "You help." shovel digThenTell [.system " Be brief. ", .user "Out?"] huntouched
  have hlength : asking.length = 1 := by
    have := hcarried.length_eq
    simp only [List.length_map, hsent, List.length_range, maxRounds] at this
    omega
  obtain ⟨turn, rfl⟩ := List.length_eq_one_iff.mp hlength
  obtain ⟨hanswer, -⟩ := hasking 0 turn rfl
  have hfirst : received (digThenTell 0) = .ok
      { role := .assistant, content := "", toolCalls := [⟨"a", "dig", .object []⟩,
        ⟨"b", "fly", .object []⟩] } := by decide +kernel
  obtain rfl := Except.ok.inj (hanswer.symm.trans hfirst)
  exact hcarried

end Mishaps

end ChatRelay.Provider
