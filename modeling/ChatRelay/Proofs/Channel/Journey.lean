import ChatRelay.Batch.Run
import ChatRelay.Proofs.Channel.Slots

/-!
# Requests that are called off

A journey is a request on its way through a channel, with the store that it uses, the word that it
has been called off, and what others get to see of it. A request that is called off before the
engine has returned leaves no trace, and its result is that it was cancelled, unless the engine
returns a failure of another kind: that failure comes first.
-/

namespace ChatRelay

structure Journey (σ : Type) where
  store : σ
  execution : Execution
  /-- Whether the request has been called off. -/
  calledOff : Bool := false
  /-- What the engine returned, once it has. -/
  returned : Option (Except EngineError Provider.Reply) := none
  /-- The outputs that were invoked, by name, and with what. -/
  sent : List (String × Dispatch) := []

inductive Journey.Event where
  | callOff
  | enriched (slot : Nat) (outcome : EnricherOutcome)
  | compose
  | generated (outcome : Except EngineError Provider.Reply)
  | keep (fault : Option StoreError)
  | delivered (slot : Nat) (success : Bool)

namespace Execution

/-- Whether the engine has not returned yet, where there are so many enrichers. -/
def Awaits (enrichers : Nat) : Execution → Prop
  | .enriching _ _ slots => slots.length = enrichers
  | .generating _ _ _ => True
  | _ => False

def isGenerating : Execution → Bool
  | .generating _ _ _ => true
  | _ => false

/-- What the outputs are invoked with when the reply is kept. -/
def dispatches : Execution → List (String × Dispatch)
  | .keeping p _ reply => p.outputs.map fun o => (o.name, p.dispatch reply)
  | _ => []

section
variable {enrichers : Nat} {x : Execution}

theorem Awaits.enriched (h : x.Awaits enrichers) (slot : Nat) (outcome : EnricherOutcome) :
    (x.enriched slot outcome).Awaits enrichers := by
  cases x with
  | enriching p message slots => exact (length_fillSlot ..).trans h
  | _ => exact h

theorem Awaits.compose (h : x.Awaits enrichers) (calledOff : Bool) :
    (x.compose calledOff).Awaits enrichers ∨
      calledOff ∧ x.compose calledOff = .finished (.error .cancelled) := by
  cases x with
  | enriching p message slots =>
    simp only [Execution.compose]
    split
    · exact .inl h
    · cases calledOff with
      | true => exact .inr ⟨rfl, rfl⟩
      | false => exact .inl trivial
  | _ => exact .inl h

theorem generated_of_not (h : x.isGenerating = false) (calledOff : Bool)
    (outcome : Except EngineError Provider.Reply) : x.generated calledOff outcome = x := by
  cases x with
  | generating p message prompt => cases h
  | _ => rfl

/-- A request that has been called off ends when the engine returns. -/
theorem generated_off (h : x.isGenerating) (outcome : Except EngineError Provider.Reply) :
    x.generated true outcome = .finished (.error (match outcome with
      | .error cause => .ofEngine cause
      | .ok _ => .cancelled)) := by
  cases x with
  | generating p message prompt => cases outcome <;> rfl
  | _ => cases h

/-- It has nothing to keep and nothing to deliver. -/
theorem Awaits.quiet {σ : Type} [Store σ] (h : x.Awaits enrichers) (fault : Option StoreError)
    (s : σ) (slot : Nat) (success : Bool) :
    x.keep fault s = (s, x) ∧ x.dispatches = [] ∧ x.delivered slot success = x := by
  cases x with
  | enriching p message slots => exact ⟨rfl, rfl, rfl⟩
  | generating p message prompt => exact ⟨rfl, rfl, rfl⟩
  | _ => cases h

end

end Execution

namespace Journey
variable {σ : Type}

def start (channels : ChannelRegistry) (id : String) (request : Request)
    (overrides : Option (List Output)) (skipsOutputs : Bool) (s : σ) : Journey σ :=
  { store := s, execution := .begin channels id request overrides skipsOutputs }

/-- The failure of the engine that is not a cancellation. -/
def failure? (j : Journey σ) : Option EngineError :=
  match j.returned with
  | some (.error .cancelled) => none
  | some (.error cause) => some cause
  | _ => none

section
variable [Store σ]

def step (j : Journey σ) : Event → Journey σ
  | .callOff => { j with calledOff := true }
  | .enriched slot outcome => { j with execution := j.execution.enriched slot outcome }
  | .compose => { j with execution := j.execution.compose j.calledOff }
  | .generated outcome =>
    { j with
      execution := j.execution.generated j.calledOff outcome
      returned := if j.execution.isGenerating then some outcome else j.returned }
  | .keep fault =>
    { j with
      store := (j.execution.keep fault j.store).1
      execution := (j.execution.keep fault j.store).2
      sent := j.sent ++ j.execution.dispatches }
  | .delivered slot success => { j with execution := j.execution.delivered slot success }

def run (j : Journey σ) (es : List Event) : Journey σ := es.foldl step j

@[simp] theorem run_append (j : Journey σ) (es es' : List Event) :
    j.run (es ++ es') = (j.run es).run es' := List.foldl_append

@[simp] theorem run_cons (j : Journey σ) (e : Event) (es : List Event) :
    j.run (e :: es) = (j.step e).run es := rfl

@[simp] theorem run_nil (j : Journey σ) : j.run [] = j := rfl

end

/-- The engine has not returned, and nobody has noticed anything. -/
structure IsEarly (enrichers : Nat) (s : σ) (j : Journey σ) : Prop where
  store : j.store = s
  sent : j.sent = []
  returned : j.returned = none
  execution : j.execution.Awaits enrichers ∨
    j.calledOff ∧ j.execution = .finished (.error .cancelled)

/-- The request was called off before the engine returned, and nobody has noticed anything. -/
structure IsOff (enrichers : Nat) (s : σ) (j : Journey σ) : Prop where
  store : j.store = s
  sent : j.sent = []
  calledOff : j.calledOff
  execution : j.returned = none ∧ j.execution.Awaits enrichers ∨
    j.execution = .finished (.error ((j.failure?.map .generation).getD .cancelled))

theorem isEarly_start {channels : ChannelRegistry} {id : String} {channel : Channel}
    {request : Request} {message : String} (hc : channels.get id = .ok channel)
    (hm : channel.transform request = .ok message) (overrides : Option (List Output))
    (skipsOutputs : Bool) (s : σ) :
    (start channels id request overrides skipsOutputs s).IsEarly channel.enrichers.length s := by
  refine ⟨rfl, rfl, rfl, .inl ?_⟩
  simp [start, Execution.begin, hc, Execution.start, hm, Execution.Awaits, Execution.emptySlots]

/-- What a run makes of an execution that was called off: its batch is put back for the newer input,
and one whose engine failed otherwise is treated as any failed batch. -/
theorem IsOff.concluded {enrichers : Nat} {s : σ} {j : Journey σ} (h : j.IsOff enrichers s)
    {r : BatchRun} {batch : List Pending} {lease : Nat}
    (hp : r.phase = .executing batch lease j.execution) {result : Except PipelineError Completion}
    (hx : j.execution = .finished result) (outputs : List Output) :
    (r.concluded outputs).phase = match j.failure? with
      | none => .requeuing batch (.start r.ticket batch)
      | some cause =>
        if r.attempt.isFinal then .notify outputs (.dismissed batch (.generation cause))
        else .restoring batch batch (.generation cause) := by
  rcases h.execution with ⟨-, hawaits⟩ | hverdict
  · simp [hx, Execution.Awaits] at hawaits
  · rw [hverdict] at hp
    cases hf : j.failure? with
    | none => simp [BatchRun.concluded, hp, hf, BatchRun.Phase.concluded]
    | some cause =>
      simp only [BatchRun.concluded, hp, hf, BatchRun.Phase.concluded, Option.map_some,
        Option.getD_some, BatchRun.putsBack, PipelineError.isRetryable]
      by_cases hfinal : r.attempt.isFinal <;> simp [hfinal]

variable [Store σ] {enrichers : Nat} {s : σ} {j : Journey σ}

theorem returned_stays (e : Event) (h : (j.step e).returned = none) : j.returned = none := by
  cases e with
  | generated outcome =>
    simp only [step] at h
    split at h
    · cases h
    · exact h
  | _ => exact h

/-- A journey that is through stays as it is. -/
theorem step_of_finished {result : Except PipelineError Completion}
    (hx : j.execution = .finished result) (e : Event) :
    j.step e = j ∨ j.step e = { j with calledOff := true } := by
  obtain ⟨store, x, calledOff, returned, sent⟩ := j
  obtain rfl : x = .finished result := hx
  cases e with
  | callOff => exact .inr rfl
  | keep fault => exact .inl (by simp [step, Execution.keep, Execution.dispatches])
  | _ => exact .inl rfl

/-- What may become of a journey while the engine has not returned. -/
inductive Waits (enrichers : Nat) (j : Journey σ) : Journey σ → Prop
  | waiting (x : Execution) (calledOff : Bool) (hx : x.Awaits enrichers)
      (hc : j.calledOff → calledOff) : Waits enrichers j { j with execution := x, calledOff }
  | cancelled (hc : j.calledOff) :
      Waits enrichers j { j with execution := .finished (.error .cancelled) }
  | returned (outcome : Except EngineError Provider.Reply) (hg : j.execution.isGenerating) :
      Waits enrichers j { j with
        execution := j.execution.generated j.calledOff outcome
        returned := some outcome }

theorem waits_step (hx : j.execution.Awaits enrichers) (e : Event) :
    j.Waits enrichers (j.step e) := by
  have hsame : j.Waits enrichers j := .waiting j.execution j.calledOff hx id
  cases e with
  | callOff => exact .waiting j.execution true hx fun _ => rfl
  | enriched slot outcome => exact .waiting _ j.calledOff (hx.enriched slot outcome) id
  | compose =>
    rcases hx.compose j.calledOff with hwait | ⟨hoff, hcancelled⟩
    · exact .waiting _ j.calledOff hwait id
    · rw [step, hcancelled]
      exact .cancelled hoff
  | generated outcome =>
    cases hg : j.execution.isGenerating with
    | false => simpa [step, hg, Execution.generated_of_not hg] using hsame
    | true => simpa [step, hg] using Waits.returned outcome hg
  | keep fault =>
    obtain ⟨hkeep, hsent, -⟩ := hx.quiet fault j.store 0 true
    simpa [step, hkeep, hsent] using hsame
  | delivered slot success =>
    obtain ⟨-, -, hdelivered⟩ := hx.quiet none j.store slot success
    simpa [step, hdelivered] using hsame

theorem IsEarly.step (h : j.IsEarly enrichers s) (e : Event) (hr : (j.step e).returned = none) :
    (j.step e).IsEarly enrichers s := by
  obtain ⟨hstore, hsent, hreturned, hx | ⟨hoff, hx⟩⟩ := h
  · have hw := waits_step hx e
    generalize j.step e = j' at hw hr
    cases hw with
    | waiting x calledOff hx hc => exact ⟨hstore, hsent, hr, .inl hx⟩
    | cancelled hc => exact ⟨hstore, hsent, hr, .inr ⟨hc, rfl⟩⟩
    | returned outcome hg => cases hr
  · rcases step_of_finished hx e with hsame | hsame
    · rw [hsame]
      exact ⟨hstore, hsent, hreturned, .inr ⟨hoff, hx⟩⟩
    · rw [hsame]
      exact ⟨hstore, hsent, hreturned, .inr ⟨rfl, hx⟩⟩

theorem IsOff.step (h : j.IsOff enrichers s) (e : Event) : (j.step e).IsOff enrichers s := by
  obtain ⟨hstore, hsent, hoff, ⟨hreturned, hx⟩ | hx⟩ := h
  · have hw := waits_step hx e
    generalize j.step e = j' at hw
    cases hw with
    | waiting x calledOff hx hc => exact ⟨hstore, hsent, hc hoff, .inl ⟨hreturned, hx⟩⟩
    | cancelled hc => exact ⟨hstore, hsent, hoff, .inr (by simp [failure?, hreturned])⟩
    | returned outcome hg =>
      refine ⟨hstore, hsent, hoff, .inr ?_⟩
      simp only [hoff, Execution.generated_off hg, failure?]
      cases outcome with
      | ok reply => rfl
      | error cause => cases cause <;> rfl
  · have hsame : j.step e = j := by
      rcases step_of_finished hx e with hsame | hsame
      · exact hsame
      · rw [hsame, ← hoff]
    rw [hsame]
    exact ⟨hstore, hsent, hoff, .inr hx⟩

theorem IsEarly.callOff (h : j.IsEarly enrichers s) : (j.step .callOff).IsOff enrichers s := by
  obtain ⟨hstore, hsent, hreturned, hx⟩ := h
  refine ⟨hstore, hsent, rfl, ?_⟩
  rcases hx with hx | ⟨-, hx⟩
  · exact .inl ⟨hreturned, hx⟩
  · exact .inr (hx.trans (by simp [Journey.step, failure?, hreturned]))

theorem returned_run {es : List Event} (h : (j.run es).returned = none) : j.returned = none := by
  induction es generalizing j with
  | nil => exact h
  | cons e es ih => exact returned_stays e (ih h)

theorem IsEarly.run (h : j.IsEarly enrichers s) {es : List Event}
    (hr : (j.run es).returned = none) : (j.run es).IsEarly enrichers s := by
  induction es generalizing j with
  | nil => exact h
  | cons e es ih =>
    -- the engine has not returned in the end, so it has not after this event
    exact ih (h.step e (returned_run hr)) hr

theorem IsOff.run (h : j.IsOff enrichers s) (es : List Event) : (j.run es).IsOff enrichers s := by
  induction es generalizing j with
  | nil => exact h
  | cons e es ih => exact ih (h.step e)

/-! ## Coming to an end -/

/-- All enrichers are done, and then the engine returns. -/
def completing (enrichers : Nat) (outcomes : Nat → EnricherOutcome)
    (outcome : Except EngineError Provider.Reply) : List Event :=
  (List.range enrichers).map (fun k => .enriched k (outcomes k)) ++ [.compose, .generated outcome]

theorem run_of_finished {result : Except PipelineError Completion}
    (hx : j.execution = .finished result) (es : List Event) :
    (j.run es).execution = .finished result := by
  induction es generalizing j with
  | nil => exact hx
  | cons e es ih =>
    apply ih
    rcases step_of_finished hx e with hsame | hsame
    · rw [hsame, hx]
    · rw [hsame, hx]

/-- Enrichers fill their slots, and no others change. -/
theorem run_enriched {p : Passage} {message : String} {slots : List (Option Enrichment)}
    (hx : j.execution = .enriching p message slots) (outcomes : Nat → EnricherOutcome)
    (ks : List Nat) : ∃ slots', (j.run (ks.map fun k => .enriched k (outcomes k))).execution =
        .enriching p message slots' ∧ slots'.length = slots.length ∧
      ∀ k < slots.length, (k ∈ ks ∨ ∃ a, slots[k]? = some (some a)) →
        ∃ a, slots'[k]? = some (some a) := by
  induction ks generalizing j slots with
  | nil => exact ⟨slots, hx, rfl, fun k _ hk => hk.resolve_left (by simp)⟩
  | cons k₀ ks ih =>
    have hstep : (j.step (.enriched k₀ (outcomes k₀))).execution =
        .enriching p message (fillSlot slots k₀ (outcomes k₀).enrichment) := by
      simp only [Journey.step, hx, Execution.enriched]
    obtain ⟨slots', hrun, hlen, hfilled⟩ := ih hstep
    rw [length_fillSlot] at hlen hfilled
    refine ⟨slots', hrun, hlen, fun k hk hwhy => hfilled k hk ?_⟩
    rcases hwhy with hmem | hold
    · rcases List.mem_cons.mp hmem with hk₀ | hmem
      · exact .inr (filled_fillSlot _ hk (.inl hk₀))
      · exact .inl hmem
    · exact .inr (filled_fillSlot _ hk (.inr hold))

theorem run_enriched_of_generating {p : Passage} {message : String} {prompt : Prompt}
    (hx : j.execution = .generating p message prompt) (outcomes : Nat → EnricherOutcome)
    (ks : List Nat) : (j.run (ks.map fun k => .enriched k (outcomes k))).execution =
      .generating p message prompt := by
  induction ks generalizing j with
  | nil => exact hx
  | cons k ks ih =>
    apply ih
    simp only [Journey.step, hx, Execution.enriched]

/-- A request that was called off comes to its end once the enrichers are done and the engine
returns. -/
theorem IsOff.completes (h : j.IsOff enrichers s) (outcomes : Nat → EnricherOutcome)
    (outcome : Except EngineError Provider.Reply) :
    ∃ result, (j.run (completing enrichers outcomes outcome)).execution = .finished result := by
  rcases h.execution with ⟨hreturned, hawaits⟩ | hx
  · have hoff := (h.run ((List.range enrichers).map fun k => .enriched k (outcomes k))).calledOff
    rw [completing, run_append]
    cases hx : j.execution with
    | enriching p message slots =>
      -- every slot is filled by its own event, so the turn of the engine comes
      obtain ⟨slots', hrun, hlen, hfilled⟩ := run_enriched hx outcomes (List.range enrichers)
      have hslots : slots.length = enrichers := by simpa [hx, Execution.Awaits] using hawaits
      obtain ⟨contributions, hall⟩ := filled?_of_filled fun k hk =>
        hfilled k (hlen ▸ hk) (.inl (by simpa [← hslots, ← hlen] using hk))
      simp [Journey.step, hrun, Execution.compose, hall, hoff, Execution.generated]
    | generating p message prompt =>
      have hrun := run_enriched_of_generating hx outcomes (List.range enrichers)
      cases outcome <;>
        simp [Journey.step, hrun, Execution.compose, hoff, Execution.generated]
    | _ => simp [hx, Execution.Awaits] at hawaits
  · exact ⟨_, run_of_finished hx _⟩

end Journey
end ChatRelay
