import ChatRelay.Rehearsal.Exchange
import ChatRelay.Rehearsal.Script
import Mathlib.Logic.Function.Iterate

/-!
# Generations that are called off

A dialogue is a generation together with what it waits for: the answer to a request, the result of a
call, or nothing any more. It can be called off at any time. From then on it sends no request and
starts no tool, and as soon as what it waits for is there, or the wait for an answer is broken off,
it returns. It returns that it was cancelled, with three exceptions: an answer that calls no tool is
returned if it arrives all the same, so is the failure of a request, and after the last call of the
last round the rounds are used up.

The tool loop takes the steps of a dialogue.
-/

namespace ChatRelay.Provider

inductive Awaiting where
  /-- An answer, after which so many rounds are left. -/
  | answer (left : Nat)
  /-- The result of a call, after which others are still to be run. -/
  | result (call : ToolCall) (rest : List ToolCall) (left : Nat)
  /-- Nothing: it has returned. -/
  | nothing (outcome : Except EngineError Reply)

structure Dialogue where
  generation : Generation
  awaiting : Awaiting

namespace Dialogue

inductive Event where
  | callOff
  /-- The wait for an answer is broken off, which only happens to a generation that was called
  off. -/
  | interrupted
  | answered (outcome : Except EngineError Turn)
  /-- The tool that was running is done, in the moment that it met. -/
  | ran (moment : Moment)

/-- Turn to the first of some calls, or to the next round if there is none. -/
def proceed (g : Generation) : List ToolCall → Nat → Dialogue
  | c :: rest, left =>
    ⟨g, if g.calledOff then .nothing (.error .cancelled) else .result c rest left⟩
  | [], 0 => ⟨g, .nothing (.error (.toolLoopExceeded maxRounds))⟩
  | [], left + 1 =>
    if g.calledOff then ⟨g, .nothing (.error .cancelled)⟩
    else ⟨{ g with sent := g.sent ++ [g.transcript] }, .answer left⟩

def start (turns : List Turn) (calledOff : Bool) : Dialogue :=
  proceed { transcript := turns, calledOff } [] maxRounds

def hear (g : Generation) (left : Nat) : Except EngineError Turn → Dialogue
  | .error cause => ⟨g, .nothing (.error cause)⟩
  | .ok turn =>
    if turn.toolCalls.isEmpty then
      ⟨g.add turn, .nothing (.ok ⟨turn.content, (g.add turn).produced⟩)⟩
    else proceed (g.add turn) turn.toolCalls left

/-- What an event makes of a dialogue. Only the one that it waits for moves it on. -/
def step (tools : ToolSet) (d : Dialogue) (e : Event) : Dialogue :=
  match d.awaiting, e with
  | .nothing _, _ => d
  | _, .callOff => { d with generation := { d.generation with calledOff := true } }
  | .answer _, .interrupted =>
    if d.generation.calledOff then { d with awaiting := .nothing (.error .cancelled) } else d
  | .answer left, .answered outcome => hear d.generation left outcome
  | .result c rest left, .ran moment => proceed (d.generation.call moment tools c) rest left
  | _, _ => d

def run (tools : ToolSet) (d : Dialogue) (es : List Event) : Dialogue := es.foldl (step tools) d

def outcome? (d : Dialogue) : Option (Except EngineError Reply) :=
  match d.awaiting with
  | .nothing outcome => some outcome
  | _ => none

def running (d : Dialogue) : List ToolCall :=
  match d.awaiting with
  | .result c _ _ => [c]
  | _ => []

def isLastCall (d : Dialogue) : Bool :=
  match d.awaiting with
  | .result _ [] 0 => true
  | _ => false

/-- Whether the dialogue waits for an event of this kind. -/
def awaits (d : Dialogue) (e : Event) : Bool :=
  match d.awaiting, e with
  | .answer _, .interrupted | .answer _, .answered _ | .result _ _ _, .ran _ => true
  | _, _ => false

/-- What a dialogue comes to that was called off when what it waits for is there. -/
def verdict (d : Dialogue) : Event → Except EngineError Reply
  | .answered (.error cause) => .error cause
  | .answered (.ok turn) =>
    if turn.toolCalls.isEmpty then .ok ⟨turn.content, d.generation.produced ++ [turn]⟩
    else .error .cancelled
  | .ran _ => if d.isLastCall then .error (.toolLoopExceeded maxRounds) else .error .cancelled
  | .callOff | .interrupted => .error .cancelled

variable {tools : ToolSet} {d : Dialogue}

@[simp] theorem run_nil : d.run tools [] = d := rfl

@[simp] theorem run_cons (e : Event) (es : List Event) :
    d.run tools (e :: es) = (d.step tools e).run tools es := rfl

/-! ## After the call-off -/

theorem step_of_returned {outcome : Except EngineError Reply} (h : d.awaiting = .nothing outcome)
    (e : Event) : d.step tools e = d := by
  simp [step, h]

theorem run_of_returned {outcome : Except EngineError Reply} (h : d.awaiting = .nothing outcome)
    (es : List Event) : d.run tools es = d := by
  induction es with
  | nil => rfl
  | cons e es ih => rw [run_cons, step_of_returned h, ih]

theorem proceed_of_calledOff {g : Generation} (h : g.calledOff) (calls : List ToolCall)
    (left : Nat) : proceed g calls left = ⟨g, .nothing (.error
      (if calls = [] ∧ left = 0 then .toolLoopExceeded maxRounds else .cancelled))⟩ := by
  cases calls with
  | nil => cases left <;> simp [proceed, h]
  | cons c rest => simp [proceed, h]

/-- The dialogue has come to an end. It has sent nothing, and started no tool; the result of the
call that was running may have come in. -/
structure Ends (d : Dialogue) (outcome : Except EngineError Reply) (d' : Dialogue) : Prop where
  awaiting : d'.awaiting = .nothing outcome
  sent : d'.generation.sent = d.generation.sent
  executed : d'.generation.executed <+: d.generation.executed ++ d.running

/-- A tool whose run leaves the generation called off is the last one. -/
theorem ends_ran {c : ToolCall} {rest : List ToolCall} {left : Nat} {g : Generation}
    {moment : Moment} (hoff : (g.call moment tools c).calledOff) :
    Ends ⟨g, .result c rest left⟩ (verdict ⟨g, .result c rest left⟩ (.ran moment))
      (step tools ⟨g, .result c rest left⟩ (.ran moment)) := by
  have hverdict : verdict ⟨g, .result c rest left⟩ (.ran moment) = .error
      (if rest = [] ∧ left = 0 then .toolLoopExceeded maxRounds else .cancelled) := by
    cases rest <;> cases left <;> simp [verdict, isLastCall]
  simp only [step, hverdict, proceed_of_calledOff hoff]
  exact ⟨rfl, rfl, by simp [Generation.call, running]⟩

/-- An answer is the last one if the generation was called off before. -/
theorem ends_answered {left : Nat} {g : Generation} (hoff : g.calledOff)
    (answer : Except EngineError Turn) :
    Ends ⟨g, .answer left⟩ (verdict ⟨g, .answer left⟩ (.answered answer))
      (step tools ⟨g, .answer left⟩ (.answered answer)) := by
  cases answer with
  | error cause => exact ⟨rfl, rfl, by simp [step, hear, running]⟩
  | ok turn =>
    have hadded : (g.add turn).calledOff := hoff
    by_cases hcalls : turn.toolCalls = []
    · simp only [step, hear, verdict, hcalls, List.isEmpty_nil, if_true]
      exact ⟨rfl, rfl, by simp [Generation.add, running]⟩
    · simp only [step, hear, verdict, List.isEmpty_iff, hcalls, if_false, false_and,
        proceed_of_calledOff hadded]
      exact ⟨rfl, rfl, by simp [Generation.add, running]⟩

theorem ends_step (tools : ToolSet) (hoff : d.generation.calledOff) {e : Event} (he : d.awaits e) :
    d.Ends (d.verdict e) (d.step tools e) := by
  obtain ⟨g, awaiting⟩ := d
  cases awaiting with
  | nothing outcome => cases e <;> simp [awaits] at he
  | result c rest left =>
    cases e with
    | ran moment => exact ends_ran (by simpa [Generation.call] using .inl (.inl hoff))
    | _ => simp [awaits] at he
  | answer left =>
    cases e with
    | interrupted =>
      have hstep : step tools ⟨g, .answer left⟩ .interrupted =
          ⟨g, .nothing (.error .cancelled)⟩ := by simpa [step] using hoff
      rw [hstep]
      exact ⟨rfl, rfl, by simp [running]⟩
    | answered answer => exact ends_answered hoff answer
    | _ => simp [awaits] at he

/-- Other events change nothing. -/
theorem step_of_not_awaits (hoff : d.generation.calledOff) {e : Event} (he : ¬d.awaits e) :
    d.step tools e = d := by
  obtain ⟨⟨transcript, produced, calledOff, sent, executed⟩, awaiting⟩ := d
  obtain rfl : calledOff = true := hoff
  cases awaiting <;> cases e <;> simp [awaits, step] at he ⊢

/-- What a dialogue has come to that was called off: the first event that it waited for has ended
it. -/
theorem run_of_calledOff (tools : ToolSet) (hoff : d.generation.calledOff) (es : List Event) :
    match es.find? d.awaits with
    | none => d.run tools es = d
    | some e => d.Ends (d.verdict e) (d.run tools es) := by
  induction es with
  | nil => rfl
  | cons e es ih =>
    by_cases he : d.awaits e
    · have hends := ends_step tools hoff he
      simpa [he, run_of_returned hends.awaiting] using hends
    · simpa [he, step_of_not_awaits hoff he] using ih

/-! ## The call-off itself -/

theorem calledOff_proceed (g : Generation) (calls : List ToolCall) (left : Nat) :
    (proceed g calls left).generation.calledOff = g.calledOff := by
  cases calls with
  | nil =>
    cases left with
    | zero => rfl
    | succ left =>
      simp only [proceed]
      split <;> rfl
  | cons c rest => rfl

theorem calledOff_hear (g : Generation) (left : Nat) (answer : Except EngineError Turn) :
    (hear g left answer).generation.calledOff = g.calledOff := by
  cases answer with
  | error cause => rfl
  | ok turn =>
    simp only [hear]
    split
    · rfl
    · exact calledOff_proceed _ _ left

/-- The dialogue once it has been called off from outside. -/
def off (d : Dialogue) : Dialogue :=
  { d with generation := { d.generation with calledOff := true } }

/-- A dialogue is called off from outside, or while a tool is running, and then it ends with that
tool. -/
theorem step_of_fires (hbefore : d.generation.calledOff = false) {e : Event}
    (hfires : (d.step tools e).generation.calledOff) :
    d.awaits e = false ∧ d.step tools e = d.off ∨
      d.awaits e ∧ d.Ends (d.verdict e) (d.step tools e) := by
  obtain ⟨g, awaiting⟩ := d
  replace hbefore : g.calledOff = false := hbefore
  cases awaiting with
  | nothing outcome => simp [step, hbefore] at hfires
  | answer left =>
    cases e with
    | callOff => exact .inl ⟨rfl, rfl⟩
    | answered answer =>
      simp only [step, calledOff_hear, hbefore] at hfires
      cases hfires
    | _ => simp [step, hbefore] at hfires
  | result c rest left =>
    cases e with
    | callOff => exact .inl ⟨rfl, rfl⟩
    | ran moment =>
      simp only [step, calledOff_proceed] at hfires
      exact .inr ⟨rfl, ends_ran hfires⟩
    | _ => simp [step, hbefore] at hfires

/-- What a dialogue has come to since an event by which it was called off. -/
theorem run_of_fires (hbefore : d.generation.calledOff = false) {e : Event}
    (hfires : (d.step tools e).generation.calledOff) (after : List Event) :
    match (e :: after).find? d.awaits with
    | none => (d.step tools e).run tools after = d.off
    | some e' => d.Ends (d.verdict e') ((d.step tools e).run tools after) := by
  rcases step_of_fires hbefore hfires with ⟨hnot, hstep⟩ | ⟨hawaits, hends⟩
  · have hrun : match after.find? d.off.awaits with
        | none => d.off.run tools after = d.off
        | some e' => d.off.Ends (d.off.verdict e') (d.off.run tools after) :=
      run_of_calledOff tools rfl after
    have hsame : d.off.awaits = d.awaits := rfl
    rw [hsame] at hrun
    rw [hstep, List.find?_cons_of_neg (by simp [hnot])]
    split at hrun
    · exact hrun
    · exact ⟨hrun.awaiting, hrun.sent, hrun.executed⟩
  · rw [List.find?_cons_of_pos hawaits, run_of_returned hends.awaiting]
    exact hends

theorem outcome?_of_fires (hbefore : d.generation.calledOff = false) {e : Event}
    (hfires : (d.step tools e).generation.calledOff) : d.outcome? = none := by
  cases h : d.awaiting with
  | nothing outcome => simp [step_of_returned h, hbefore] at hfires
  | _ => simp [outcome?, h]

/-- Nothing is sent after the call-off, and no tool is run but the one that is running. -/
theorem sent_and_executed_of_fires (hbefore : d.generation.calledOff = false) {e : Event}
    (hfires : (d.step tools e).generation.calledOff) (after : List Event) :
    ((d.step tools e).run tools after).generation.sent = d.generation.sent ∧
      ((d.step tools e).run tools after).generation.executed <+:
        d.generation.executed ++ d.running := by
  have hend := run_of_fires hbefore hfires after
  split at hend
  · rw [hend]
    exact ⟨rfl, List.prefix_append _ _⟩
  · exact ⟨hend.sent, hend.executed⟩

/-- A dialogue that was called off has returned once there was what it waited for. -/
theorem outcome?_run_of_fires (hbefore : d.generation.calledOff = false) {e : Event}
    (hfires : (d.step tools e).generation.calledOff) (after : List Event) :
    ((d.step tools e).run tools after).outcome? =
      ((e :: after).find? d.awaits).map d.verdict := by
  have hend := run_of_fires hbefore hfires after
  split at hend
  case h_1 hnever =>
    rw [hend, hnever]
    change d.outcome? = none
    exact outcome?_of_fires hbefore hfires
  case h_2 e' hcame => simp [outcome?, hend.awaiting, hcame]

/-- When a dialogue that is called off returns that it was cancelled, or a reply. -/
theorem verdict_iff {e : Event} (he : d.awaits e) :
    (d.verdict e = .error .cancelled ∨ ∃ reply, d.verdict e = .ok reply) ↔
      d.isLastCall = false ∧ ∀ cause, e = .answered (.error cause) → cause = .cancelled := by
  obtain ⟨g, awaiting⟩ := d
  cases awaiting with
  | nothing outcome => cases e <;> simp [awaits] at he
  | result c rest left =>
    cases e with
    | ran moment => cases h : isLastCall ⟨g, .result c rest left⟩ <;> simp [verdict, h]
    | _ => simp [awaits] at he
  | answer left =>
    cases e with
    | interrupted => simp [verdict, isLastCall]
    | answered answer =>
      cases answer with
      | error cause => simp [verdict, isLastCall]
      | ok turn => by_cases hcalls : turn.toolCalls.isEmpty <;> simp [verdict, isLastCall, hcalls]
    | _ => simp [awaits] at he

/-! ## The tool loop -/

/-- What happens next, by a model that answers and the moments that calls meet. -/
def upcoming (moments : Nat → Moment) (model : Model) (d : Dialogue) : List Event :=
  match d.awaiting with
  | .answer _ =>
    match model (d.generation.sent.length - 1) d.generation.transcript with
    | .interrupted => [.callOff, .interrupted]
    | .answered calledOff answer => (if calledOff then [.callOff] else []) ++ [.answered answer]
  | .result _ _ _ => [.ran (moments d.generation.executed.length)]
  | .nothing _ => []

def next (moments : Nat → Moment) (tools : ToolSet) (model : Model) (d : Dialogue) : Dialogue :=
  d.run tools (d.upcoming moments model)

variable {moments : Nat → Moment} {model : Model}

def ComesTo (moments : Nat → Moment) (tools : ToolSet) (model : Model) (d d' : Dialogue) : Prop :=
  ∃ n, (next moments tools model)^[n] d = d'

theorem ComesTo.refl (d : Dialogue) : ComesTo moments tools model d d := ⟨0, rfl⟩

theorem ComesTo.step {d' : Dialogue}
    (h : ComesTo moments tools model (d.next moments tools model) d') :
    ComesTo moments tools model d d' := by
  obtain ⟨n, hn⟩ := h
  exact ⟨n + 1, hn⟩

theorem ComesTo.trans {d' d'' : Dialogue} (h : ComesTo moments tools model d d')
    (h' : ComesTo moments tools model d' d'') : ComesTo moments tools model d d'' := by
  obtain ⟨n, rfl⟩ := h
  obtain ⟨m, rfl⟩ := h'
  exact ⟨m + n, Function.iterate_add_apply _ m n d⟩

theorem comesTo_callAll (calls : List ToolCall) (left : Nat) (g : Generation) :
    ComesTo moments tools model (proceed g calls left)
      (match Generation.callAll moments tools calls g with
        | (g', true) => proceed g' [] left
        | (g', false) => ⟨g', .nothing (.error .cancelled)⟩) := by
  induction calls generalizing g with
  | nil => exact .refl _
  | cons c rest ih =>
    by_cases hoff : g.calledOff
    · simp only [Generation.callAll, proceed, hoff, if_true]
      exact .refl _
    · simp only [Generation.callAll, proceed, hoff]
      exact ComesTo.step (ih (g.call (moments g.executed.length) tools c))

theorem next_of_answered {g : Generation} {left : Nat} {calledOff : Bool}
    {answer : Except EngineError Turn} (hoff : g.calledOff = false)
    (hanswer : model g.sent.length g.transcript = .answered calledOff answer) :
    next moments tools model ⟨{ g with sent := g.sent ++ [g.transcript] }, .answer left⟩ =
      hear { g with sent := g.sent ++ [g.transcript], calledOff } left answer := by
  obtain ⟨transcript, produced, calledOff₀, sent, executed⟩ := g
  obtain rfl : calledOff₀ = false := hoff
  cases calledOff <;> simp [next, upcoming, hanswer, step]

theorem next_of_interrupted {g : Generation} {left : Nat}
    (hanswer : model g.sent.length g.transcript = .interrupted) :
    next moments tools model ⟨{ g with sent := g.sent ++ [g.transcript] }, .answer left⟩ =
      ⟨{ g with sent := g.sent ++ [g.transcript], calledOff := true },
        .nothing (.error .cancelled)⟩ := by
  simp [next, upcoming, hanswer, step]

/-- The rounds of a generation are the steps of a dialogue. -/
theorem comesTo_rounds (left : Nat) (g : Generation) :
    ComesTo moments tools model (proceed g [] left)
      ⟨(Generation.rounds moments tools model maxRounds left g).1,
        .nothing (Generation.rounds moments tools model maxRounds left g).2⟩ := by
  induction left generalizing g with
  | zero => exact .refl _
  | succ left ih =>
    cases hoff : g.calledOff with
    | true =>
      simp only [Generation.rounds, proceed, hoff, if_true]
      exact .refl _
    | false =>
      -- the dialogue waits for the answer, and takes up the calls where the loop runs them
      have hasked : proceed g [] (left + 1) =
          ⟨{ g with sent := g.sent ++ [g.transcript] }, .answer left⟩ := by simp [proceed, hoff]
      rw [hasked]
      apply ComesTo.step
      cases hanswer : model g.sent.length g.transcript with
      | interrupted =>
        rw [next_of_interrupted hanswer]
        simp only [Generation.rounds, hoff, hanswer]
        exact .refl _
      | answered calledOff answer =>
        rw [next_of_answered hoff hanswer]
        simp only [Generation.rounds, hoff, hanswer, Bool.false_eq_true, if_false]
        cases answer with
        | error cause => exact .refl _
        | ok turn =>
          simp only [hear]
          split
          · exact .refl _
          · refine (comesTo_callAll turn.toolCalls left _).trans ?_
            cases Generation.callAll moments tools turn.toolCalls _ with
            | mk g' allRan =>
              cases allRan with
              | true => exact ih g'
              | false => exact .refl _

/-- Started when it was already called off, a generation asks and runs nothing. Called off later,
from outside or by a tool, it asks nothing more and runs no tool but the one that is running, and
returns with the first event that it waited for. Then it returns that it was cancelled, or an answer
without calls, unless that event is the end of the last call of the last round or the failure of the
request. These are the generations of the tool loop. -/
theorem stops_once_called_off (tools : ToolSet) (turns : List Turn) :
    (∀ es, let d := (start turns true).run tools es
      d.generation.sent = [] ∧ d.generation.executed = [] ∧
        d.outcome? = some (.error .cancelled)) ∧
    (∀ before e after,
      let d := (start turns false).run tools before
      let d' := (d.step tools e).run tools after
      d.generation.calledOff = false → (d.step tools e).generation.calledOff →
        d'.generation.sent = d.generation.sent ∧
        d'.generation.executed <+: d.generation.executed ++ d.running ∧
        d'.outcome? = ((e :: after).find? d.awaits).map d.verdict ∧
        ∀ outcome, d'.outcome? = some outcome →
          ((outcome = .error .cancelled ∨ ∃ reply, outcome = .ok reply) ↔
            d.isLastCall = false ∧ ∀ cause,
              (e :: after).find? d.awaits = some (.answered (.error cause)) →
                cause = .cancelled)) ∧
    ∀ moments model calledOff, ComesTo moments tools model (start turns calledOff)
      ⟨(generateAmid moments tools model turns calledOff).1,
        .nothing (generateAmid moments tools model turns calledOff).2⟩ := by
  refine ⟨?beforehand, ?underway, fun moments model calledOff => comesTo_rounds maxRounds _⟩
  case beforehand =>
    intro es
    have hstart : (start turns true).awaiting = .nothing (.error .cancelled) := rfl
    simp only [run_of_returned hstart]
    exact ⟨rfl, rfl, rfl⟩
  case underway =>
    intro before e after d d' hbefore hfires
    obtain ⟨hsent, hexecuted⟩ := sent_and_executed_of_fires hbefore hfires after
    have hreturns := outcome?_run_of_fires hbefore hfires after
    refine ⟨hsent, hexecuted, hreturns, ?_⟩
    intro outcome houtcome
    rw [hreturns, Option.map_eq_some_iff] at houtcome
    obtain ⟨e', hfind, rfl⟩ := houtcome
    simpa [hfind] using verdict_iff (List.find?_some hfind)

/-! ### A tool that calls off the generation -/

section Desk
open Rehearsal

def desk : ToolSet :=
  .ofList [ScriptedTool.tool { name := "look", script := .reply "ok" },
    ScriptedTool.tool { name := "quit", cancels := true, script := .reply "ok" }]

/-- The tool that calls off the generation is the only one that is run. -/
theorem quitting_first_stops :
    let d := (start [.user "Go on."] false).run desk [.answered (.ok
      { role := .assistant, content := "",
        toolCalls := [⟨"a", "quit", .object []⟩, ⟨"b", "look", .object []⟩] })]
    let d' := d.step desk (.ran { clock := fun _ => "12:00" })
    d.generation.calledOff = false ∧ d'.generation.calledOff ∧
      d'.generation.sent = [[.user "Go on."]] ∧
      d'.generation.executed <+: [⟨"a", "quit", .object []⟩] ∧
      d'.outcome? = some (.error .cancelled) := by
  intro d d'
  have hbefore : d.generation.calledOff = false := by decide +kernel
  have hfires : d'.generation.calledOff := by decide +kernel
  obtain ⟨hsent, hexecuted, hreturns, -⟩ :=
    (stops_once_called_off desk [.user "Go on."]).2.1 [_] (.ran { clock := fun _ => "12:00" }) []
      hbefore hfires
  exact ⟨hbefore, hfires, hsent, hexecuted, hreturns⟩

def callingReply (id name : String) : Exchange :=
  .reply ⟨200, [], .ok ("\x7b\"content\":[\x7b\"type\":\"tool_use\",\"id\":\"" ++ id ++
    "\",\"name\":\"" ++ name ++ "\",\"input\":\x7b\x7d\x7d]\x7d")⟩

/-- Seven rounds with one look each, and a last one with a call of the other tool. -/
def lookingSevenTimes : Generation × Except EngineError Reply :=
  generate (fun _ => "12:00") desk
    (Rehearsal.model (List.replicate 7 (callingReply "a" "look") ++ [callingReply "b" "quit"]))
    [.user "Go on."] false

/-- The last call of the last round calls off the generation, which returns all the same that it has
used up its rounds. -/
theorem quitting_last_exceeds :
    lookingSevenTimes.1.calledOff ∧
      lookingSevenTimes.1.executed.map (·.name) = List.replicate 7 "look" ++ ["quit"] ∧
      lookingSevenTimes.2 = .error (.toolLoopExceeded 8) := by
  decide +kernel

end Desk

end Dialogue
end ChatRelay.Provider
