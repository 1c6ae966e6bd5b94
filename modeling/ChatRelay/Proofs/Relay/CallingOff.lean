import ChatRelay.Proofs.Channel.Journey
import ChatRelay.Proofs.Relay.Leasing
import ChatRelay.Proofs.Relay.Records

/-!
# Executions that are called off

The execution of a run is a journey, called off when its lease is cancelled. So what holds of
journeys holds of the executions of a relay, whatever happens to it.
-/

namespace ChatRelay

/-- What becomes of an execution does not depend on the store. -/
theorem Execution.keep_snd {σ τ : Type} [Store σ] [Store τ] (x : Execution)
    (fault : Option StoreError) (s : σ) (t : τ) : (x.keep fault s).2 = (x.keep fault t).2 := by
  cases x <;> rfl

namespace BatchRun

/-- What an event of its run makes of an execution. -/
def advance {σ : Type} [Store σ] (calledOff : Bool) (s : σ) (x : Execution) :
    Relay.RunEvent → Execution
  | .access fault => (x.keep fault s).2
  | .enriched slot outcome => x.enriched slot outcome
  | .compose => x.compose calledOff
  | .generated outcome => x.generated calledOff outcome
  | .delivered slot success => x.delivered slot success
  | _ => x

section
variable {σ : Type} [Store σ] {setup : Relay.Setup} {s : σ} {r : BatchRun} {batch : List Pending}
  {lease : Nat} {x : Execution}

theorem not_executing_ofFresh (answered drained fresh : List Pending) :
    (r.ofFresh answered drained fresh).phase ≠ .executing batch lease x := by
  unfold ofFresh
  cases Batch.normalize fresh <;> simp

theorem not_executing_ofNotice (slots : List (Option Bool)) (ending : Ending) :
    Phase.ofNotice slots ending ≠ .executing batch lease x := by
  unfold Phase.ofNotice
  cases filled? slots <;> simp

theorem not_executing_concluded {b : List Pending} (outputs : List Output)
    (result : Except PipelineError Completion) :
    Phase.concluded r outputs b result ≠ .executing batch lease x := by
  unfold Phase.concluded
  split
  · split <;> simp
  · simp
  · split
    · simp
    · exact not_executing_ofNotice _ _

/-- An execution is there only if it was before, or a lease has been taken. -/
theorem Turns.executing_of [LawfulStore σ] {s' : σ} {r' : BatchRun} {e : Relay.RunEvent}
    (h : r.Turns setup s e s' r') (hp' : r'.phase = .executing batch lease x) :
    e = .lease ∧ r.phase = .leasing batch ∨ ∃ x₀, r.phase = .executing batch lease x₀ := by
  cases h with
  | unmoved hd he => exact .inr ⟨x, hp'⟩
  | leased l y hp =>
    obtain ⟨rfl, -⟩ := Phase.executing.inj hp'
    exact .inl ⟨rfl, hp⟩
  | executed hp hs he =>
    obtain ⟨rfl, rfl, -⟩ := Phase.executing.inj hp'
    exact .inr ⟨_, hp⟩
  | drained hp =>
    unfold ofDrained at hp'
    split at hp'
    · cases hp'
    · split at hp'
      · exact (not_executing_ofFresh _ _ _ hp').elim
      · cases hp'
  | checked hp => exact (not_executing_ofFresh _ _ _ hp').elim
  | unchecked cause hp => exact (not_executing_ofFresh _ _ _ hp').elim
  | undrained cause hp =>
    dsimp only at hp'
    split at hp'
    · exact (not_executing_ofNotice _ _ hp').elim
    · cases hp'
  | concluded hp => exact (not_executing_concluded _ _ hp').elim
  | @restored b left m cause hp => cases left <;> cases hp'
  | unrestored cause hp => exact (not_executing_ofNotice _ _ hp').elim
  | notified slot success hp => exact (not_executing_ofNotice _ _ hp').elim
  | _ => cases hp'

theorem turn_executing (c : Circumstances) (hp : r.phase = .executing batch lease x)
    {e : Relay.RunEvent} {b : List Pending} {l : Nat} {x' : Execution}
    (hp' : (r.turn setup c s e).2.phase = .executing b l x') : x' = advance c.calledOff s x e := by
  have hsame : Phase.executing batch lease x = .executing b l x' → x' = x := fun h =>
    (Phase.executing.inj h).2.2.symm
  cases e with
  | access fault =>
    simp only [turn, access, hp] at hp'
    exact (Phase.executing.inj hp').2.2.symm
  | lease =>
    simp only [turn, BatchRun.leased, hp] at hp'
    exact hsame hp'
  | release =>
    simp only [turn, BatchRun.concluded, hp] at hp'
    split at hp'
    · exact (not_executing_concluded _ _ hp').elim
    · exact hsame (hp.symm.trans hp')
  | arm =>
    simp only [turn, isArming, hp, Bool.false_eq_true, if_false] at hp'
    exact hsame hp'
  | notified slot success =>
    simp only [turn, BatchRun.notified, hp] at hp'
    exact hsame hp'
  | _ =>
    simp only [turn, mapExecution, hp] at hp'
    exact (Phase.executing.inj hp').2.2.symm

end

end BatchRun

namespace Relay

/-! ## Executions are journeys -/

section
variable {σ : Type} [Store σ]

/-- An execution is what some journey of its request has come to. -/
def IsJourney (setup : Setup) (s : σ) (q : Request) (x : Execution) (calledOff : Bool) : Prop :=
  ∃ es, ((Journey.start setup.channels setup.primary q none false s).run es).execution = x ∧
    ((Journey.start setup.channels setup.primary q none false s).run es).calledOff = calledOff

namespace IsJourney
variable {setup : Setup} {s : σ} {q : Request} {x : Execution}

/-- The request may be called off at any time. -/
theorem mono {calledOff calledOff' : Bool} (h : IsJourney setup s q x calledOff)
    (hc : calledOff → calledOff') : IsJourney setup s q x calledOff' := by
  obtain ⟨es, hx, hoff⟩ := h
  cases calledOff with
  | true => exact ⟨es, hx, hoff.trans (hc rfl).symm⟩
  | false =>
    cases calledOff' with
    | false => exact ⟨es, hx, hoff⟩
    | true => exact ⟨es ++ [.callOff], by simpa [Journey.step] using hx, by simp [Journey.step]⟩

theorem advance {calledOff : Bool} (h : IsJourney setup s q x calledOff) (s' : σ) (e : RunEvent) :
    IsJourney setup s q (BatchRun.advance calledOff s' x e) calledOff := by
  obtain ⟨es, hx, hoff⟩ := h
  cases e with
  | access fault =>
    refine ⟨es ++ [.keep fault], ?_, by simp [Journey.step, hoff]⟩
    simp only [Journey.run_append, Journey.run_cons, Journey.run_nil, Journey.step, hx]
    exact x.keep_snd fault _ s'
  | enriched slot outcome =>
    exact ⟨es ++ [.enriched slot outcome], by simp [Journey.step, hx, BatchRun.advance],
      by simp [Journey.step, hoff]⟩
  | compose =>
    exact ⟨es ++ [.compose], by simp [Journey.step, hx, hoff, BatchRun.advance],
      by simp [Journey.step, hoff]⟩
  | generated outcome =>
    exact ⟨es ++ [.generated outcome], by simp [Journey.step, hx, hoff, BatchRun.advance],
      by simp [Journey.step, hoff]⟩
  | delivered slot success =>
    exact ⟨es ++ [.delivered slot success], by simp [Journey.step, hx, BatchRun.advance],
      by simp [Journey.step, hoff]⟩
  | _ => exact ⟨es, hx, hoff⟩

end IsJourney

theorem isCalledOff_eq {relay : Relay} {r : BatchRun} {batch : List Pending} {lease : Nat}
    {x : Execution} (hp : r.phase = .executing batch lease x) :
    relay.isCalledOff r = relay.leases.isCancelled lease := by
  simp [isCalledOff, BatchRun.lease?, hp]

variable [LawfulStore σ] {setup : Setup} {s₀ s : σ} {policy : RetryPolicy} {h : History}
  {relay : Relay}

/-- The execution of a run is a journey of its request, which is called off when the lease of the
run is cancelled. -/
theorem Occurs.isJourney (ho : Occurs setup s₀ policy h s relay) {i : Nat} {r : BatchRun}
    {batch : List Pending} {lease : Nat} {x : Execution} (hr : relay.runs[i]? = some r)
    (hp : r.phase = .executing batch lease x) :
    IsJourney setup s₀ (r.request batch) x (relay.isCalledOff r) := by
  induction ho generalizing r batch lease x with
  | fresh => simp [Relay.fresh] at hr
  | @step h s relay e ho ih =>
    rw [isCalledOff_eq hp]
    cases onward hr with
    | @turned r₀ re c he hr₀ hc hs heq =>
      subst heq
      have hturn : r₀.Turns setup s re _ _ := BatchRun.turns_turn c (ho.steady hr₀) re
      have hreq : BatchRun.request (r₀.turn setup c s re).2 batch = r₀.request batch := by
        simp [BatchRun.request, hturn.frame.1]
      rw [hreq]
      rcases hturn.executing_of hp with ⟨rfl, hp₀⟩ | ⟨x₀, hp₀⟩
      · -- the journey begins here, and may be called off from the start for all that is known
        have hx : x = .begin setup.channels setup.primary (r₀.request batch) none false := by
          simp only [BatchRun.turn, BatchRun.leased, hp₀] at hp
          exact (BatchRun.Phase.executing.inj hp).2.2.symm
        have hbegins : IsJourney setup s₀ (r₀.request batch) x false := ⟨[], hx.symm, rfl⟩
        exact hbegins.mono (by simp)
      · rw [BatchRun.turn_executing c hp₀ hp, hc]
        refine ((ih hr₀ hp₀).advance s re).mono fun hoff => ?_
        rw [isCalledOff_eq hp₀] at hoff
        exact keeps_leases e lease hoff
    | stayed he hr₀ =>
      refine (ih hr₀ hp).mono fun hoff => ?_
      rw [isCalledOff_eq hp] at hoff
      exact keeps_leases e lease hoff
    | started payload attempt firing he hr₀ heq =>
      rw [heq, BatchRun.ofPayload] at hp
      split at hp <;> cases hp

end

/-! ## What a request comes to that is called off in time -/

/-- A request that is called off before the engine has returned keeps nothing and invokes no output.
Its result is that it was cancelled, and a run puts its batch back for the newer input, unless the
engine returns a failure of another kind: then that failure is its result, and the run treats its
batch as any failed one. -/
theorem called_off_before_return {σ : Type} [Store σ] {channels : ChannelRegistry} {id : String}
    {channel : Channel} (request : Request) {message : String}
    (hc : channels.get id = .ok channel) (hm : channel.transform request = .ok message)
    (overrides : Option (List Output)) (skipsOutputs : Bool) (s : σ)
    (before after : List Journey.Event)
    (hb : ((Journey.start channels id request overrides skipsOutputs s).run before).returned =
      none) :
    let j := (Journey.start channels id request overrides skipsOutputs s).run
      (before ++ .callOff :: after)
    j.store = s ∧ j.sent = [] ∧
      (j.failure? = none → j.execution.Awaits channel.enrichers.length ∨
        j.execution = .finished (.error .cancelled)) ∧
      (∀ cause, j.failure? = some cause →
        j.execution = .finished (.error (.generation cause))) ∧
      (∀ outcomes outcome, ∃ result,
        (j.run (Journey.completing channel.enrichers.length outcomes outcome)).execution =
          .finished result) ∧
      ∀ {r : BatchRun} {batch : List Pending} {lease : Nat}
        {result : Except PipelineError Completion} (outputs : List Output),
        r.phase = .executing batch lease j.execution → j.execution = .finished result →
        (r.concluded outputs).phase = match j.failure? with
          | none => .requeuing batch (.start r.ticket batch)
          | some cause =>
            if r.attempt.isFinal then .notify outputs (.dismissed batch (.generation cause))
            else .restoring batch batch (.generation cause) := by
  intro j
  have hearly := (Journey.isEarly_start hc hm overrides skipsOutputs s).run hb
  have hoff : j.IsOff channel.enrichers.length s := by
    have hrest := hearly.callOff.run after
    rwa [← Journey.run_cons, ← Journey.run_append] at hrest
  refine ⟨hoff.store, hoff.sent, fun hnone => ?_, fun cause hcause => ?_, hoff.completes,
    fun {r batch lease result} outputs hp hx => hoff.concluded hp hx outputs⟩
  · rcases hoff.execution with ⟨-, hwaits⟩ | hx
    · exact .inl hwaits
    · exact .inr (by simpa [hnone] using hx)
  · rcases hoff.execution with ⟨hreturned, -⟩ | hx
    · simp [Journey.failure?, hreturned] at hcause
    · simpa [hcause] using hx

/-- A request that is called off while the engine is at work on it. -/
def interrupted (outcome : Except EngineError Provider.Reply) : Journey Memory :=
  (Journey.start plain.channels plain.primary ⟨"hello", "u", "chat", none, none⟩ none false {}).run
    ([.compose] ++ .callOff :: [.generated outcome])

theorem interrupted_by_reply :
    (interrupted (.ok ⟨"reply", []⟩)).execution = .finished (.error .cancelled) ∧
      (interrupted (.ok ⟨"reply", []⟩)).sent = [] := by
  have hc : plain.channels.get plain.primary =
      .ok { id := "assistant", systemPrompt := "Be brief." } := rfl
  have h := called_off_before_return ⟨"hello", "u", "chat", none, none⟩ hc rfl none false
    ({} : Memory) [.compose] [.generated (.ok ⟨"reply", []⟩)] rfl
  exact ⟨(h.2.2.1 rfl).resolve_left id, h.2.1⟩

/-- Newer input comes in while a run is at the engine, which then fails. -/
def interruptedRun : List Event :=
  accepting 0 ⟨"u", "chat", "A"⟩ "one" "m1" 5 ++ starting 0 ++ asking 0 ++
    [.notice "u", .run 0 (.generated (.error (.requestFailed "p" "down"))), .run 0 .release]

/-- The failure of the engine is the result, although the request had been called off: the run does
not put its batch back for the newer input, but for a retry, and after the last attempt it tells the
user that the batch is given up. -/
theorem interrupted_by_failure :
    (interrupted (.error (.requestFailed "p" "down"))).calledOff ∧
      (interrupted (.error (.requestFailed "p" "down"))).execution.result? =
        some (.error (.generation (.requestFailed "p" "down"))) ∧
      record 0 (course plain ({} : Memory) .standard interruptedRun).1 =
        [.leased [⟨"one", "m1", 5, "A"⟩],
          .concluded (.error (.generation (.requestFailed "p" "down")))] ∧
      (course plain ({} : Memory) .none interruptedRun).2.2.runs[0]?.bind (·.ending?) =
        some (.dismissed [⟨"one", "m1", 5, "A"⟩]
          (.generation (.requestFailed "p" "down"))) := by
  decide +kernel

end Relay
end ChatRelay
