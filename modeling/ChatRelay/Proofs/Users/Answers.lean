import ChatRelay.Channel.Stock
import ChatRelay.Proofs.Users.Others

/-!
# What a relay is answered

The engine answers to what it is asked, outputs to what they are sent, and enrichers to the request,
by the clock and by the conversation of its user. So the answers in the run of a user can be told
from their part of the relay and their belongings in the store.
-/

namespace ChatRelay
open Conversations

/-- An enricher that looks at no conversation but that of the user who asks. -/
def Enricher.IsDiscreet (e : Enricher) : Prop :=
  ∀ (w w' : Surroundings) (request : Request), w.minute = w'.minute →
    (∀ limit, w.recent request.user limit = w'.recent request.user limit) →
    e.enrich w request = e.enrich w' request

theorem Enricher.isDiscreet_history (limit : Nat) : (history limit).IsDiscreet := by
  intro w w' request _ hrecent
  simp only [history, recollect, hrecent]

theorem Enricher.isDiscreet_clock : clock.IsDiscreet := by
  intro w w' request hminute _
  simp only [clock, hminute]

def Relay.Setup.IsDiscreet (setup : Relay.Setup) : Prop :=
  ∀ c ∈ setup.channels, ∀ e ∈ c.enrichers, e.IsDiscreet

/-- What is outside of relay and store: the clock, by the milliseconds that have passed, and the
engine. Enrichers and outputs are those of the channels. -/
structure Outside where
  minute : Nat → String
  engine : Prompt → Except EngineError Provider.Reply

/-- The answers to a run, those of enrichers and outputs by their slots. -/
structure Answers where
  enriched : Nat → EnricherOutcome := fun _ => .contributed .empty
  generated : Except EngineError Provider.Reply := .error .cancelled
  delivered : Nat → Bool := fun _ => false
  notified : Nat → Bool := fun _ => false

/-- The event with these answers in place of its own. -/
def Relay.RunEvent.answered (a : Answers) : RunEvent → RunEvent
  | .enriched slot _ => .enriched slot (a.enriched slot)
  | .generated _ => .generated a.generated
  | .delivered slot _ => .delivered slot (a.delivered slot)
  | .notified slot _ => .notified slot (a.notified slot)
  | e => e

@[simp] theorem Relay.RunEvent.answered_answered (a b : Answers) (e : RunEvent) :
    (e.answered a).answered b = e.answered b := by
  cases e <;> rfl

/-- The answers to an execution; where nobody is asked, they do not matter. -/
def Execution.answers (o : Outside) (w : Surroundings) : Execution → Answers
  | .enriching p message _ =>
    { enriched := fun slot => (p.channel.enrichers[slot]?).elim (.contributed .empty)
        (·.enrich w (p.enrichmentRequest message)) }
  | .generating _ _ prompt => { generated := o.engine prompt }
  | .delivering p reply _ =>
    { delivered := fun slot => (p.outputs[slot]?).any (·.send (p.dispatch reply) |>.succeeded) }
  | _ => {}

def BatchRun.answers (o : Outside) (setup : Relay.Setup) (w : Surroundings) (r : BatchRun) :
    Answers :=
  match r.phase with
  | .executing _ _ x => x.answers o w
  | .notifying _ _ =>
    let notice := r.notice setup.primary setup.fallback
    { notified := fun slot => ((outputsOf setup)[slot]?).any (·.send notice |>.succeeded) }
  | _ => {}

/-! ## The channel of a request -/

namespace BatchRun

/-- Enrichers that are at work are those of a channel of the setup. -/
def Routed (setup : Relay.Setup) (r : BatchRun) : Prop :=
  ∀ (batch : List Pending) (lease : Nat) (p : Passage) (message : String)
    (slots : List (Option Enrichment)),
    r.phase = .executing batch lease (.enriching p message slots) → p.channel ∈ setup.channels

variable {setup : Relay.Setup} {r : BatchRun}

theorem routed_ofPayload (payload : Json) (attempt : Timer.Attempt) (firing : Option Nat) :
    (ofPayload payload attempt firing).Routed setup := by
  intro batch lease p message slots hp
  unfold ofPayload at hp
  split at hp <;> cases hp

theorem routed_begin {channels : ChannelRegistry} {id : String} {request : Request}
    {p : Passage} {message : String} {slots : List (Option Enrichment)}
    (h : Execution.begin channels id request none false = .enriching p message slots) :
    p.channel ∈ channels := by
  unfold Execution.begin at h
  split at h
  · next c hc =>
    unfold Execution.start at h
    split at h
    · obtain ⟨rfl, -, -⟩ := Execution.enriching.inj h
      unfold ChannelRegistry.get at hc
      split at hc
      · next own hfind =>
        obtain rfl := Except.ok.inj hc
        exact List.mem_of_find?_eq_some hfind
      · cases hc
    · cases h
  · cases h

/-- Enrichers are at work only on what they were at work before. -/
theorem enriching_of_advance {σ : Type} [Store σ] {calledOff : Bool} {s : σ} {x : Execution}
    {e : Relay.RunEvent} {p : Passage} {message : String} {slots : List (Option Enrichment)}
    (h : advance calledOff s x e = .enriching p message slots) :
    ∃ slots₀, x = .enriching p message slots₀ := by
  cases e with
  | access fault =>
    cases x with
    | keeping q m reply =>
      simp only [advance, Execution.keep, Execution.deliver] at h
      split at h <;> cases h
    | _ => exact ⟨slots, h⟩
  | enriched slot outcome =>
    cases x with
    | enriching q m slots₀ =>
      obtain ⟨rfl, rfl, -⟩ := Execution.enriching.inj h
      exact ⟨slots₀, rfl⟩
    | _ => exact ⟨slots, h⟩
  | compose =>
    cases x with
    | enriching q m slots₀ =>
      simp only [advance, Execution.compose] at h
      split at h
      · exact ⟨slots, h⟩
      · split at h <;> cases h
    | _ => exact ⟨slots, h⟩
  | generated outcome =>
    cases x with
    | generating q m prompt =>
      simp only [advance, Execution.generated] at h
      split at h
      · cases h
      · split at h <;> cases h
    | _ => exact ⟨slots, h⟩
  | delivered slot success =>
    cases x with
    | delivering q reply outs =>
      simp only [advance, Execution.delivered, Execution.deliver] at h
      split at h <;> cases h
    | _ => exact ⟨slots, h⟩
  | _ => exact ⟨slots, h⟩

theorem Routed.turn {σ : Type} [Store σ] [LawfulStore σ] {s : σ} (h : r.Routed setup)
    (hr : r.Steady) (c : Circumstances) (e : Relay.RunEvent) :
    (r.turn setup c s e).2.Routed setup := by
  intro batch lease p message slots hp'
  have hturn : r.Turns setup s e _ _ := turns_turn c hr e
  rcases hturn.executing_of hp' with ⟨rfl, hp⟩ | ⟨x, hp⟩
  · simp only [BatchRun.turn, BatchRun.leased, hp] at hp'
    exact routed_begin (Phase.executing.inj hp').2.2
  · obtain ⟨slots₀, rfl⟩ := enriching_of_advance (turn_executing c hp hp').symm
    exact h _ _ _ _ _ hp

/-- The answers depend on the clock and on the conversation of the user of the run. -/
theorem answers_renamed {o : Outside} {w w' : Surroundings} {place code : Nat → Nat}
    (hx : r.Addressed) (hrouted : r.Routed setup) (hsetup : setup.IsDiscreet)
    (hminute : w.minute = w'.minute)
    (hrecent : ∀ limit, w.recent r.ticket.user limit = w'.recent r.ticket.user limit) :
    (r.renamed place code).answers o setup w' = r.answers o setup w := by
  obtain ⟨firing, attempt, ticket, leftOut, phase⟩ := r
  cases phase with
  | executing batch lease x =>
    cases x with
    | enriching p message slots =>
      have hu : p.request.user = ticket.user := hx _ _ _ _ rfl rfl
      have hchannel := hsetup _ (hrouted _ _ _ _ _ rfl)
      have henrich : ∀ slot : Nat, (p.channel.enrichers[slot]?).elim (.contributed .empty)
          (·.enrich w' (p.enrichmentRequest message)) =
            (p.channel.enrichers[slot]?).elim (.contributed .empty)
              (·.enrich w (p.enrichmentRequest message)) := by
        intro slot
        cases he : p.channel.enrichers[slot]? with
        | none => rfl
        | some e =>
          refine (hchannel e (List.mem_of_getElem? he) w w' _ hminute fun limit => ?_).symm
          change w.recent p.request.user limit = w'.recent p.request.user limit
          rw [hu]
          exact hrecent limit
      exact congrArg (fun f => ({ enriched := f } : Answers)) (funext henrich)
    | _ => rfl
  | _ => rfl

end BatchRun

namespace Relay
open Timer

def Event.answered {σ : Type} [Store σ] (o : Outside) (setup : Setup) (s : σ) (relay : Relay) :
    Event → Event
  | .run i e => .run i (e.answered ((relay.runs[i]?).elim {}
      (·.answers o setup ⟨o.minute relay.queue.now, recent s⟩)))
  | e => e

def Event.erased : Event → Event
  | .run i e => .run i (e.answered {})
  | e => e

section
variable {σ : Type} [Store σ] {o : Outside} {setup : Setup} {s s' : σ} {relay : Relay}
  {user : String}

theorem Event.concerns_answered (e : Event) :
    (e.answered o setup s relay).concerns relay user = e.concerns relay user := by
  cases e <;> rfl

theorem Event.isPosted_answered (e : Event) :
    (e.answered o setup s relay).isPosted = e.isPosted := by
  cases e <;> rfl

/-- The answers to a user are those that their part meets over their belongings. -/
theorem Event.relative_answered [SeparateStore σ] (h : relay.Shared)
    (hrouted : ∀ {i : Nat} {r : BatchRun}, relay.runs[i]? = some r → r.Routed setup)
    (hsetup : setup.IsDiscreet) (hstore : belongings s user = belongings s' user) {e : Event}
    (he : e.concerns relay user) :
    (e.answered o setup s relay).relative relay user =
      (e.relative relay user).erased.answered o setup s' (relay.part user) := by
  cases e with
  | run i e =>
    obtain ⟨r, hr, hof⟩ := of_any he
    have hu : r.ticket.user = user := of_decide_eq_true hof
    simp only [answered, relative, erased, run_part hr hof, hr, Option.elim_some,
      RunEvent.answered_answered]
    refine congrArg (fun a => Event.run _ (e.answered a)) (Eq.symm ?_)
    refine BatchRun.answers_renamed (h.addressed hr) (hrouted hr) hsetup ?_ fun limit => ?_
    · rfl
    · exact recent_eq_of_belongings (hu ▸ hstore) limit
  | _ => rfl

end

theorem routed_step {σ : Type} [Store σ] [LawfulStore σ] {setup : Setup} {s : σ} {relay : Relay}
    (h : ∀ {i : Nat} {r : BatchRun}, relay.runs[i]? = some r → r.Routed setup)
    (hst : relay.Steady) (e : Event) {i : Nat} {r' : BatchRun}
    (hr' : (relay.step setup s e).2.runs[i]? = some r') : r'.Routed setup := by
  cases onward hr' with
  | turned c he hr hc hs heq =>
    subst heq
    exact (h hr).turn (hst hr) c _
  | stayed he hr => exact h hr
  | started payload attempt firing hne hr heq =>
    subst heq
    exact BatchRun.routed_ofPayload payload attempt firing

end Relay
end ChatRelay
