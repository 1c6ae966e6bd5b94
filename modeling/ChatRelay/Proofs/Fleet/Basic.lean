import ChatRelay.Proofs.Relay.Occurrences
import ChatRelay.Rehearsal.World

/-!
# Fleets

Any number of relays work over one store. They share nothing else: each has its own timer queue, its
own leases and its own runs, and takes its events in its own time. Fleets come about by any events
of their relays, in any order.
-/

namespace ChatRelay
open AnsweredIds

structure Fleet.Member where
  setup : Relay.Setup
  relay : Relay

abbrev Fleet := List Fleet.Member

namespace Fleet

/-- Where a run is: the place of its relay in the fleet, and its place there. -/
structure Place where
  relay : Nat
  run : Nat
deriving DecidableEq

def run? (fleet : Fleet) (p : Place) : Option BatchRun :=
  fleet[p.relay]?.bind (·.relay.runs[p.run]?)

def fresh (members : List (Relay.Setup × RetryPolicy)) : Fleet :=
  members.map fun (setup, policy) => ⟨setup, .fresh policy⟩

def step {σ : Type} [Store σ] (s : σ) (fleet : Fleet) (k : Nat) (e : Relay.Event) : σ × Fleet :=
  match fleet[k]? with
  | some m =>
    let next := m.relay.step m.setup s e
    (next.1, fleet.set k { m with relay := next.2 })
  | none => (s, fleet)

/-- The fleet before an event, the relay that takes the event, and the event. -/
structure Moment where
  fleet : Fleet
  relay : Nat
  event : Relay.Event

/-- What has happened, the latest first. -/
abbrev Past := List Moment

/-- The fleets that there have been, the latest first. -/
def trail (past : Past) (fleet : Fleet) : List Fleet := fleet :: past.map (·.fleet)

section
variable {σ : Type} [Store σ]

def replay : List (Nat × Relay.Event) → Past → σ → Fleet → Past × σ × Fleet
  | [], past, s, fleet => (past, s, fleet)
  | (k, e) :: es, past, s, fleet =>
    let next := fleet.step s k e
    replay es (⟨fleet, k, e⟩ :: past) next.1 next.2

/-- What comes of events that start with fresh relays. -/
def course (members : List (Relay.Setup × RetryPolicy)) (s₀ : σ) (es : List (Nat × Relay.Event)) :
    Past × σ × Fleet := replay es [] s₀ (fresh members)

/-- The fleet comes about, with its store and its past. -/
inductive Occurs (members : List (Relay.Setup × RetryPolicy)) (s₀ : σ) : Past → σ → Fleet → Prop
  | fresh : Occurs members s₀ [] s₀ (fresh members)
  | step {past : Past} {s : σ} {fleet : Fleet} (k : Nat) (e : Relay.Event)
      (ho : Occurs members s₀ past s fleet) :
      Occurs members s₀ (⟨fleet, k, e⟩ :: past) (fleet.step s k e).1 (fleet.step s k e).2

theorem Occurs.replay {members : List (Relay.Setup × RetryPolicy)} {s₀ s : σ} {past : Past}
    {fleet : Fleet} (ho : Occurs members s₀ past s fleet) (es : List (Nat × Relay.Event)) :
    Occurs members s₀ (Fleet.replay es past s fleet).1 (Fleet.replay es past s fleet).2.1
      (Fleet.replay es past s fleet).2.2 := by
  induction es generalizing past s fleet with
  | nil => exact ho
  | cons ke es ih => exact ih (ho.step ke.1 ke.2)

theorem occurs_course (members : List (Relay.Setup × RetryPolicy)) (s₀ : σ)
    (es : List (Nat × Relay.Event)) :
    Occurs members s₀ (course members s₀ es).1 (course members s₀ es).2.1
      (course members s₀ es).2.2 := Occurs.fresh.replay es

end

def Steady (fleet : Fleet) : Prop := ∀ {p : Place} {r : BatchRun}, fleet.run? p = some r → r.Steady

theorem run?_of_getElem? {fleet : Fleet} {p : Place} {m : Member} (hm : fleet[p.relay]? = some m) :
    fleet.run? p = m.relay.runs[p.run]? := by rw [run?, hm, Option.bind_some]

theorem run?_set {fleet : Fleet} {k : Nat} {m : Member} (hm : fleet[k]? = some m) (m' : Member)
    (p : Place) :
    Fleet.run? (fleet.set k m') p =
      if k = p.relay then m'.relay.runs[p.run]? else fleet.run? p := by
  split
  · next hk =>
    subst hk
    exact run?_of_getElem? (List.getElem?_set_self (List.getElem?_eq_some_iff.mp hm).1)
  · next hk => rw [run?, List.getElem?_set_ne hk, run?]

theorem Steady.relay {fleet : Fleet} (hst : fleet.Steady) {k : Nat} {m : Member}
    (hm : fleet[k]? = some m) : m.relay.Steady := fun {i} _ hr =>
  hst (p := ⟨k, i⟩) ((run?_of_getElem? hm).trans hr)

/-- Where a run comes from that is there after an event. -/
inductive Onward {σ : Type} [Store σ] [LawfulStore σ] (s : σ) (fleet : Fleet) (k : Nat)
    (e : Relay.Event) (s' : σ) (p : Place) (r' : BatchRun) : Prop
  | turned {r : BatchRun} {re : Relay.RunEvent} {setup : Relay.Setup} (hk : k = p.relay)
      (he : e = .run p.run re) (hr : fleet.run? p = some r) (ht : r.Turns setup s re s' r')
  | stayed (hr : fleet.run? p = some r')
  | started (payload : Json) (attempt : Timer.Attempt) (firing : Option Nat)
      (hr : fleet.run? p = none) (hr' : r' = .ofPayload payload attempt firing)

section
variable {σ : Type} [Store σ] [LawfulStore σ] {s : σ} {fleet : Fleet} {k : Nat} {e : Relay.Event}

theorem onward (hst : fleet.Steady) {p : Place} {r' : BatchRun}
    (hr' : (fleet.step s k e).2.run? p = some r') :
    Onward s fleet k e (fleet.step s k e).1 p r' := by
  unfold step at hr' ⊢
  split at hr'
  · next m hm =>
    dsimp only at hr' ⊢
    rw [run?_set hm] at hr'
    split at hr'
    · next hk =>
      subst hk
      cases Relay.onward hr' with
      | @turned r re c he hr hc hs heq =>
        have ht : r.Turns m.setup s re _ _ := BatchRun.turns_turn c (hst.relay hm hr) re
        exact .turned rfl he ((run?_of_getElem? hm).trans hr) (hs ▸ heq ▸ ht)
      | stayed he hr => exact .stayed ((run?_of_getElem? hm).trans hr)
      | started payload attempt firing he hr heq =>
        exact .started payload attempt firing ((run?_of_getElem? hm).trans hr) heq
    · exact .stayed hr'
  · exact .stayed hr'

theorem Steady.step (hst : fleet.Steady) : (fleet.step s k e).2.Steady := by
  intro p r' hr'
  cases onward hst hr' with
  | turned hk he hr ht => exact ht.steady (hst hr)
  | stayed hr => exact hst hr
  | started payload attempt firing hr heq => exact heq ▸ BatchRun.steady_ofPayload ..

theorem run_stays (hst : fleet.Steady) {p : Place} {r : BatchRun} (hr : fleet.run? p = some r) :
    ∃ r', (fleet.step s k e).2.run? p = some r' := by
  unfold step
  split
  · next m hm =>
    rw [run?_set hm]
    split
    · next hk =>
      subst hk
      rw [run?_of_getElem? hm] at hr
      obtain ⟨r', hr', -⟩ := Relay.run_stays m.setup s (hst.relay hm) e hr
      exact ⟨r', hr'⟩
    · exact ⟨r, hr⟩
  · exact ⟨r, hr⟩

theorem marked_stays (hst : fleet.Steady) {user id : String} (hm : Marked s user id) :
    Marked (fleet.step s k e).1 user id := by
  unfold step
  split
  · next m hk => exact (Relay.stores_step (hst.relay hk) e).marked_stays hm
  · exact hm

end

theorem run?_fresh (members : List (Relay.Setup × RetryPolicy)) (p : Place) :
    (fresh members).run? p = none := by
  cases hm : members[p.relay]? <;> simp [run?, fresh, hm, Relay.fresh]

theorem Occurs.steady {σ : Type} [Store σ] [LawfulStore σ] {s₀ s : σ} {past : Past}
    {members : List (Relay.Setup × RetryPolicy)} {fleet : Fleet}
    (ho : Occurs members s₀ past s fleet) : fleet.Steady := by
  induction ho with
  | fresh => intro p r hr; simp [run?_fresh] at hr
  | step k e ho ih => exact ih.step

end Fleet

/-- The relays of a rehearsal. -/
def Rehearsal.World.fleet (w : World) : Fleet := w.members.map fun m => ⟨w.setup, m.relay⟩

/-- The relays of a rehearsal are a fleet: they take their events as one. -/
theorem Rehearsal.World.fleet_relayEvent (w : World) (k : Nat) (e : Relay.Event) :
    ((w.relayEvent k e).store, (w.relayEvent k e).fleet) = w.fleet.step w.store k e := by
  cases hm : w.members[k]? with
  | none => simp [relayEvent, member?, fleet, Fleet.step, hm]
  | some m =>
    have hset := Relay.modify_of_getElem? hm fun m' : Member =>
      { m' with relay := (m.relay.step w.setup w.store e).2 }
    simp [relayEvent, member?, fleet, Fleet.step, hm, setRelay, modifyMember, hset, List.map_set]

end ChatRelay
