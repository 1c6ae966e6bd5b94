import ChatRelay.Proofs.Relay.Deeds

/-!
# Histories

A relay comes about by events from one of which nothing has happened yet, over a store in which no
messages wait. Events come in any order, and any number of times, as long as lists do not fail, the
relay's own messages are the only ones, and nobody else schedules tasks. What is true of the start
and kept by every event is true of every relay that comes about.
-/

namespace ChatRelay.Relay
open Timer KeyedLists

/-- One event, and the relay before and after it. -/
structure Transition where
  before : Relay
  event : Event
  after : Relay

def Transition.deed (t : Transition) : Deed := t.before.deed t.event

/-- What has happened, the latest first. -/
abbrev History := List Transition

/-- The messages that were accepted from a user, in the order in which they came into the list. -/
def accepted (user : String) : History → List Pending
  | [] => []
  | t :: h =>
    accepted user h ++
      match t.deed with
      | .accepted u m => if u = user then [m] else []
      | _ => []

section
variable {σ : Type} [Store σ]

/-- The relay comes about, with its store and its history. -/
inductive Comes (setup : Setup) (s₀ : σ) (policy : RetryPolicy) : History → σ → Relay → Prop
  | fresh : Comes setup s₀ policy [] s₀ (Relay.fresh policy)
  | step {h : History} {s : σ} {relay : Relay} {e : Event} (hc : Comes setup s₀ policy h s relay)
      (ha : relay.admits e) :
      Comes setup s₀ policy (⟨relay, e, (relay.step setup s e).2⟩ :: h) (relay.step setup s e).1
        (relay.step setup s e).2

def replay (setup : Setup) : List Event → History → σ → Relay → History × σ × Relay
  | [], h, s, relay => (h, s, relay)
  | e :: es, h, s, relay =>
    let next := relay.step setup s e
    replay setup es (⟨relay, e, next.2⟩ :: h) next.1 next.2

def admitsAll (setup : Setup) : List Event → σ → Relay → Bool
  | [], _, _ => true
  | e :: es, s, relay =>
    relay.admits e && admitsAll setup es (relay.step setup s e).1 (relay.step setup s e).2

/-! ## Courses of events -/

/-- A setup with a channel that only passes messages to the engine. -/
def plain : Setup where
  channels := [{ id := "assistant", systemPrompt := "Be brief." }]
  fallback := "Sorry."
  debounceMillis := 100

def spoken : Setup where
  channels := [{
    id := "assistant", systemPrompt := "Be brief."
    outputs := [{ name := "out", medium := .handler, send := fun _ => .delivered }] }]
  fallback := "Sorry."
  debounceMillis := 100

/-- A message of a user is accepted, by the deposit of this place. -/
def accepting (deposit : Nat) (ticket : Ticket) (text sourceId : String) (enqueuedAt : Int) :
    List Event :=
  [.enqueue ticket text sourceId enqueuedAt, .push deposit none, .arm deposit]

def starting (g : Nat) : List Event :=
  [.timer (.wait 100), .timer (.wake g), .timer (.claim g), .timer (.takeHandle g),
    .timer (.acquire g)]

def asking (run : Nat) : List Event :=
  [.run run (.access none), .run run (.access none), .run run .lease, .run run .compose]

/-- A run goes on with what the engine came to, up to its next use of the store. -/
def concluding (run : Nat) (outcome : Except EngineError Provider.Reply) : List Event :=
  [.run run (.generated outcome), .run run (.access none), .run run .release,
    .run run (.access none)]

/-- A run replies to its one output, up to its next use of the store. -/
def replying (run : Nat) (text : String) : List Event :=
  [.run run (.generated (.ok ⟨text, []⟩)), .run run (.access none), .run run (.delivered 0 true),
    .run run .release, .run run (.access none)]

/-- Newer input of the user calls off what a run generates; its batch of one message is put back,
and the task armed again. -/
def superseding (run : Nat) (user : String) : List Event :=
  [.notice user, .run run (.generated (.error .cancelled)), .run run .release,
    .run run (.access none), .run run .arm]

/-- A run is through, and its firing gets as far as seeing to a retry. -/
def returning (run g : Nat) : List Event :=
  [.return run, .timer (.unlock g), .timer (.tidy g), .timer (.dropHandle g)]

theorem Comes.replay {setup : Setup} {s₀ s : σ} {policy : RetryPolicy} {h : History}
    {relay : Relay} (hc : Comes setup s₀ policy h s relay) {es : List Event}
    (ha : admitsAll setup es s relay) :
    Comes setup s₀ policy (Relay.replay setup es h s relay).1 (Relay.replay setup es h s relay).2.1
      (Relay.replay setup es h s relay).2.2 := by
  induction es generalizing h s relay with
  | nil => exact hc
  | cons e es ih =>
    rw [admitsAll, Bool.and_eq_true] at ha
    exact ih (hc.step ha.1) ha.2

/-- What comes of events that start with a fresh relay. -/
def course (setup : Setup) (s₀ : σ) (policy : RetryPolicy) (es : List Event) :
    History × σ × Relay := replay setup es [] s₀ (Relay.fresh policy)

theorem comes_course (setup : Setup) (s₀ : σ) (policy : RetryPolicy) (es : List Event)
    (ha : admitsAll setup es s₀ (Relay.fresh policy)) :
    Comes setup s₀ policy (course setup s₀ policy es).1 (course setup s₀ policy es).2.1
      (course setup s₀ policy es).2.2 := Comes.fresh.replay ha

end

variable {σ : Type} [Store σ] [LawfulStore σ]

/-- A store in order in which no messages wait. Anything may have been answered before. -/
structure IsEmptied (s : σ) : Prop where
  sound : LawfulStore.Sound s
  texts : ∀ user, texts s (Pending.listKey user) = []

theorem isEmptied_memory : IsEmptied ({} : Memory) := ⟨trivial, fun _ => rfl⟩

namespace Comes
variable {setup : Setup} {s₀ s : σ} {policy : RetryPolicy} {h : History} {relay : Relay}

theorem tended (hc : Comes setup s₀ policy h s relay) : relay.Tended := by
  induction hc with
  | fresh =>
    exact ⟨rfl, rfl, by simp [Relay.fresh, Queue.firing?], by simp [Relay.fresh],
      by simp [Relay.fresh, Queue.firing?]⟩
  | step hc ha ih => exact (happens_step setup _ ih ha).tended ih

/-- What holds at the start and is kept by whatever happens. -/
theorem invariant {P : History → σ → Relay → Prop} (hc : Comes setup s₀ policy h s relay)
    (hfresh : P [] s₀ (Relay.fresh policy))
    (hstep : ∀ {h s relay d s' relay' t}, Comes setup s₀ policy h s relay → P h s relay →
      t.before = relay → t.after = relay' → t.deed = d → Happens setup s relay d s' relay' →
      P (t :: h) s' relay') : P h s relay := by
  induction hc with
  | fresh => exact hfresh
  | step hc ha ih => exact hstep hc ih rfl rfl rfl (happens_step setup _ hc.tended ha)

theorem sound (hc : Comes setup s₀ policy h s relay) (hs : LawfulStore.Sound s₀) :
    LawfulStore.Sound s := by
  apply hc.invariant (P := fun _ s _ => LawfulStore.Sound s) hs
  intro h s relay d s' relay' t hc ih _ _ _ hap
  cases hap with
  | accepted hd hp => exact LawfulStore.sound_append _ _ ih
  | ran leases hr hp hd => exact hp.sound ih
  | _ => exact ih

theorem queue_sound (hc : Comes setup s₀ policy h s relay) : relay.queue.Sound := by
  refine hc.invariant (P := fun _ _ relay => relay.queue.Sound)
    (Queue.sound_of_no_firings rfl rfl) ?_
  intro h s relay d s' relay' t hc ih _ _ _ hap
  obtain ⟨e, hq | hq, -⟩ := hap.keeps
  · exact hq ▸ ih
  · exact hq ▸ ih.step e

end Comes

end ChatRelay.Relay
