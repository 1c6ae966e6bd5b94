import ChatRelay.Proofs.Users.Answers

/-!
# Users do not influence each other

A step on behalf of one user leaves what another one has as it is, and what a step does to a user is
determined by what they have. So what a relay says to a user is what it would say if their steps
were all that happens, whatever it does for others in between.
-/

namespace ChatRelay.Relay
open Timer KeyedLists Conversations AnsweredIds

deriving instance DecidableEq for RunEvent, Event

/-- Whether an event is the same for everybody: time passes, or the end has come. -/
def Event.isCommon : Event → Bool
  | .timer (.wait _) | .timer .shutdown | .cancelAll => true
  | _ => false

/-- A step on behalf of one user is none on behalf of another. -/
theorem Event.concerns_other {relay : Relay} {user other : String} {e : Event} (hne : other ≠ user)
    (hcommon : e.isCommon = false) (he : e.concerns relay other) :
    e.concerns relay user = false := by
  have hid : Ticket.dedupId other ≠ Ticket.dedupId user := fun h => hne (Ticket.dedupId_injective h)
  have hany : ∀ {α : Type} {o : Option α} {p q : α → Bool}, (∀ a, p a → q a = false) → o.any p →
      o.any q = false := by
    intro α o p q hpq ho
    cases o with
    | none => rfl
    | some a => exact hpq a ho
  have hdeposit : ∀ d : Deposit, d.isOf other → d.isOf user = false := fun d hd =>
    decide_eq_false (of_decide_eq_true hd ▸ hne)
  have hrun : ∀ r : BatchRun, r.isOf other → r.isOf user = false := fun r hr =>
    decide_eq_false (of_decide_eq_true hr ▸ hne)
  have hfiring : ∀ f : Firing, Queue.isOf (Ticket.dedupId other) f →
      Queue.isOf (Ticket.dedupId user) f = false := fun f hf =>
    decide_eq_false (Queue.isOf_iff.mp hf ▸ hid)
  cases e with
  | enqueue ticket text sourceId enqueuedAt => exact decide_eq_false (of_decide_eq_true he ▸ hne)
  | requeue ticket messages => exact decide_eq_false (of_decide_eq_true he ▸ hne)
  | push i fault => exact hany hdeposit he
  | arm i => exact hany hdeposit he
  | notice u => exact decide_eq_false (of_decide_eq_true he ▸ hne)
  | timer e =>
    cases e with
    | schedule task => exact decide_eq_false (of_decide_eq_true he ▸ hid)
    | wait millis => cases hcommon
    | shutdown => cases hcommon
    | _ => exact hany hfiring he
  | handle payload attempt => exact hrun _ he
  | run i e => exact hany hrun he
  | «return» i => exact hany hrun he
  | cancelAll => cases hcommon

section
variable {σ : Type} [Store σ]

/-! ## Runs with their answers -/

section
variable (o : Outside) (setup : Setup)

/-- One event, with the answers that it meets. -/
def answeredStep (p : σ × Relay) (e : Event) : σ × Relay :=
  p.2.step setup p.1 (e.answered o setup p.1 p.2)

def proceed (es : List Event) (p : σ × Relay) : σ × Relay := es.foldl (answeredStep o setup) p

variable (user : String)

/-- The steps of a user, as they look to the user, without the answers. -/
def steps : List Event → σ × Relay → List Event
  | [], _ => []
  | e :: es, p =>
    let later := steps es (answeredStep o setup p e)
    if e.concerns p.2 user then (e.relative p.2 user).erased :: later else later

def said : List Event → σ × Relay → List Saying
  | [], _ => []
  | e :: es, p =>
    let later := said es (answeredStep o setup p e)
    if e.concerns p.2 user then p.2.sayings setup (answeredStep o setup p e).2 e ++ later else later

/-- A step in the part of a user, where there is nobody else. -/
def aloneStep (p : σ × Relay) (e : Event) : σ × Relay :=
  ((answeredStep o setup p e).1, (answeredStep o setup p e).2.part user)

def saidAlone : List Event → σ × Relay → List Saying
  | [], _ => []
  | e :: es, p =>
    p.2.sayings setup (answeredStep o setup p e).2 e ++ saidAlone es (aloneStep o setup user p e)

end

variable {o : Outside} {setup : Setup} {user : String} {p p' : σ × Relay}

theorem sayings_answered (relay relay' : Relay) (s : σ) (e : Event) :
    relay.sayings setup relay' (e.answered o setup s relay) = relay.sayings setup relay' e := by
  cases e <;> rfl

/-! ## However the relay comes about -/

variable [LawfulStore σ]

/-- What goes without saying for a relay that users share, and for its store. -/
structure Settled (setup : Setup) (p : σ × Relay) : Prop where
  shared : p.2.Shared
  sound : LawfulStore.Sound p.1
  routed : ∀ {i : Nat} {r : BatchRun}, p.2.runs[i]? = some r → r.Routed setup

theorem Settled.step (h : Settled setup p) {e : Event} (he : e.isPosted) :
    Settled setup (p.2.step setup p.1 e) where
  shared := h.shared.step setup p.1 he
  sound := (stores_step h.shared.steady e).sound h.sound
  routed := routed_step h.routed h.shared.steady e

/-- The relay comes about with its store, of which others may make use. All tasks are those of
tickets. -/
inductive Reached (setup : Setup) : σ × Relay → Prop
  | fresh {s : σ} (policy : RetryPolicy) (hs : LawfulStore.Sound s) :
      Reached setup (s, Relay.fresh policy)
  | step {p : σ × Relay} {e : Event} (hp : Reached setup p) (he : e.isPosted) :
      Reached setup (p.2.step setup p.1 e)
  | elsewhere {p : σ × Relay} (op : Store.Operation) (hp : Reached setup p) :
      Reached setup ((Store.perform p.1 op).2, p.2)

theorem Reached.settled (hp : Reached setup p) : Settled setup p := by
  induction hp with
  | fresh policy hs => exact ⟨shared_fresh policy, hs, by simp [Relay.fresh]⟩
  | step hp he ih => exact ih.step he
  | elsewhere op hp ih => exact ⟨ih.shared, Pending.sound_perform ih.sound op, ih.routed⟩

theorem Reached.happen (hp : Reached setup p) {es : List Event} (hes : ∀ e ∈ es, e.isPosted) :
    Reached setup (Relay.happen setup es p) := by
  induction es generalizing p with
  | nil => exact hp
  | cons e es ih =>
    obtain ⟨he, hes⟩ := List.forall_mem_cons.mp hes
    exact ih (hp.step he) hes

theorem Settled.isFor_of_mem_sayings (hp : Settled setup p) {e : Event}
    (he : e.concerns p.2 user) {y : Saying} (hy : y ∈ p.2.sayings setup p'.2 e) :
    y.IsFor user := by
  cases e with
  | run i re =>
    obtain ⟨r, hr, hof⟩ := of_any he
    have hu : r.ticket.user = user := of_decide_eq_true hof
    simp only [sayings, hr] at hy
    split at hy
    · next q q' hq _ =>
      obtain rfl := Option.some.inj hq
      exact hu ▸ BatchRun.isFor_of_mem_sayings (hp.shared.addressed hr) hy
    · cases hy
  | _ => cases hy

/-! ## What a user has -/

variable [SeparateStore σ]

/-- Two relays with their stores look the same to a user. -/
structure Alike (user : String) (p p' : σ × Relay) : Prop where
  part : p.2.part user = p'.2.part user
  belongings : belongings p.1 user = belongings p'.1 user

/-- What a relay says to a user, and what becomes of what they have, is what it would be if their
steps were all that happens. -/
theorem Settled.alone (hp : Settled setup p) (hsetup : setup.IsDiscreet) {es : List Event}
    (hes : ∀ e ∈ es, e.isPosted) {s : σ} (hs : LawfulStore.Sound s)
    (hstore : belongings p.1 user = belongings s user) :
    let own := steps o setup user es p
    let last := own.foldl (aloneStep o setup user) (s, p.2.part user)
    said o setup user es p = saidAlone o setup user own (s, p.2.part user) ∧
      (proceed o setup es p).2.part user = last.2 ∧
      belongings (proceed o setup es p).1 user = belongings last.1 user := by
  induction es generalizing p s with
  | nil => exact ⟨rfl, rfl, hstore⟩
  | cons e es ih =>
    obtain ⟨he, hes⟩ := List.forall_mem_cons.mp hes
    have hnext : Settled setup (answeredStep o setup p e) :=
      hp.step (by rwa [Event.isPosted_answered])
    by_cases hown : e.concerns p.2 user
    · let own := (e.relative p.2 user).erased
      let part := p.2.part user
      let alone := aloneStep o setup user (s, part) own
      have hown' : (e.answered o setup p.1 p.2).concerns p.2 user := by
        rwa [Event.concerns_answered]
      have hrelative : (e.answered o setup p.1 p.2).relative p.2 user =
          own.answered o setup s part :=
        Event.relative_answered hp.shared hp.routed hsetup hstore hown
      have hpart : (answeredStep o setup p e).2.part user = alone.2 := by
        rw [answeredStep, part_step setup p.1 s hp.shared hstore hown', hrelative]
        rfl
      have hstore' : belongings (answeredStep o setup p e).1 user =
          belongings alone.1 user := by
        rw [answeredStep, belongings_step setup p.1 s hp.shared hp.sound hs hstore hown', hrelative]
        rfl
      have hsaid : p.2.sayings setup (answeredStep o setup p e).2 e =
          part.sayings setup (answeredStep o setup (s, part) own).2 own := by
        have h := sayings_part setup p.1 s hp.shared hstore hown'
        rwa [hrelative, sayings_answered, sayings_answered] at h
      have hsound : LawfulStore.Sound alone.1 :=
        (stores_step (Steady.part hp.shared.steady user) _).sound hs
      obtain ⟨hlater, hlast⟩ := ih hnext hes hsound hstore'
      rw [hpart] at hlater hlast
      simp only [said, steps, if_pos hown]
      exact ⟨congrArg₂ _ hsaid hlater, hlast⟩
    · -- nothing that the user has is changed, and nothing is said to them
      have hother : (e.answered o setup p.1 p.2).concerns p.2 user = false := by
        rw [Event.concerns_answered]
        exact Bool.eq_false_of_not_eq_true hown
      have hpart : (answeredStep o setup p e).2.part user = p.2.part user :=
        (spares_step setup p.1 hp.shared hother).part hp.shared
      have hstore' : belongings (answeredStep o setup p e).1 user =
          belongings s user :=
        (belongings_step_other setup p.1 hp.shared hp.sound hother).trans hstore
      obtain ⟨hlater, hlast⟩ := ih hnext hes hs hstore'
      rw [hpart] at hlater hlast
      simp only [said, steps, if_neg hown]
      exact ⟨hlater, hlast⟩

/-- What a user has is what they had. -/
structure Undisturbed (user : String) (p p' : σ × Relay) : Prop where
  pending : texts p'.1 (Pending.listKey user) = texts p.1 (Pending.listKey user)
  timer : Table.get? p'.2.queue.timers (Ticket.dedupId user) =
    Table.get? p.2.queue.timers (Ticket.dedupId user)
  lock : Table.get? p'.2.queue.locks (Ticket.dedupId user) =
    Table.get? p.2.queue.locks (Ticket.dedupId user)
  live : Table.get? p'.2.leases.live user = Table.get? p.2.leases.live user
  answered (id : String) : Marked p'.1 user id ↔ Marked p.1 user id
  conversation (limit : Nat) : recent p'.1 user limit = recent p.1 user limit
  firings : Places.Same (Queue.isOf (Ticket.dedupId user)) p.2.queue.firings p'.2.queue.firings
  deposits : Places.Same (Deposit.isOf user) p.2.deposits p'.2.deposits
  runs : Places.Same (BatchRun.isOf user) p.2.runs p'.2.runs
  calledOff {i : Nat} {r : BatchRun} : p.2.runs[i]? = some r → r.isOf user →
    p'.2.isCalledOff r = p.2.isCalledOff r
  alike : Alike user p' p

theorem Settled.undisturbed (hp : Settled setup p) {e : Event} (he : e.concerns p.2 user = false) :
    Undisturbed user p (p.2.step setup p.1 e) := by
  have hspares := spares_step setup p.1 hp.shared he
  have hstore := belongings_step_other setup p.1 hp.shared hp.sound he
  exact {
    pending := congrArg Belongings.texts hstore
    timer := hspares.queue.timer
    lock := hspares.queue.lock
    live := hspares.live
    answered := fun id => marked_iff_of_belongings hstore id
    conversation := fun limit => recent_eq_of_belongings hstore limit
    firings := hspares.queue.firings
    deposits := hspares.deposits
    runs := hspares.runs
    calledOff := fun hr hof => hspares.isCalledOff hp.shared hr hof
    alike := ⟨hspares.part hp.shared, hstore⟩ }

/-- What a step makes of what a user has, and what is said to them, depends on what they have. -/
theorem Settled.alike_step (hp : Settled setup p) (hp' : Settled setup p')
    (ha : Alike user p p') {e e' : Event} (he : e.concerns p.2 user) (he' : e'.concerns p'.2 user)
    (heq : e.relative p.2 user = e'.relative p'.2 user) :
    Alike user (p.2.step setup p.1 e) (p'.2.step setup p'.1 e') ∧
      p.2.sayings setup (p.2.step setup p.1 e).2 e =
        p'.2.sayings setup (p'.2.step setup p'.1 e').2 e' := by
  refine ⟨⟨?_, ?_⟩, ?_⟩
  · rw [part_step setup p.1 p.1 hp.shared rfl he,
      part_step setup p'.1 p.1 hp'.shared ha.belongings.symm he', ha.part, heq]
  · rw [belongings_step setup p.1 p.1 hp.shared hp.sound hp.sound rfl he,
      belongings_step setup p'.1 p.1 hp'.shared hp'.sound hp.sound ha.belongings.symm he',
      ha.part, heq]
  · rw [sayings_part setup p.1 p.1 hp.shared rfl he,
      sayings_part setup p'.1 p.1 hp'.shared ha.belongings.symm he', ha.part, heq]

/-- Two relays that look the same to a user go on alike with the same steps of the user. -/
theorem Settled.alike_proceed (hp : Settled setup p) (hp' : Settled setup p')
    (ha : Alike user p p') (hsetup : setup.IsDiscreet) {es es' : List Event}
    (hes : ∀ e ∈ es, e.isPosted) (hes' : ∀ e ∈ es', e.isPosted)
    (heq : steps o setup user es p = steps o setup user es' p') :
    said o setup user es p = said o setup user es' p' ∧
      Alike user (proceed o setup es p) (proceed o setup es' p') := by
  obtain ⟨hsaid, hpart, hstore⟩ := hp.alone hsetup hes hp.sound rfl
  obtain ⟨hsaid', hpart', hstore'⟩ := hp'.alone hsetup hes' hp.sound ha.belongings.symm
  rw [← heq, ← ha.part] at hsaid' hpart' hstore'
  exact ⟨hsaid.trans hsaid'.symm, hpart.trans hpart'.symm, hstore.trans hstore'.symm⟩

/-- Users do not influence each other. A step on behalf of one user leaves what any other one has as
it is: the messages that wait, the timer, the lock, the lease, the source ids that were answered and
the conversation; and what is said in it is said for that user. What a step on behalf of a user
makes of what they have, and what is said to them, depends on nothing but that and the step. So two
runs with the same steps of a user, in between whatever steps of others, give the same requests and
dispatches for them, if the engine and outputs answer to what they are asked and enrichers look at
the conversation of their user only. -/
theorem users_apart (hp : Reached setup p) (user : String) :
    (∀ (other : String) (e : Event), other ≠ user → e.isCommon = false → e.concerns p.2 other →
      Undisturbed user p (p.2.step setup p.1 e) ∧
        ∀ y ∈ p.2.sayings setup (p.2.step setup p.1 e).2 e, y.IsFor other) ∧
    ∀ p', Reached setup p' → Alike user p p' →
      (∀ e e', e.concerns p.2 user → e'.concerns p'.2 user →
        e.relative p.2 user = e'.relative p'.2 user →
        Alike user (p.2.step setup p.1 e) (p'.2.step setup p'.1 e') ∧
          p.2.sayings setup (p.2.step setup p.1 e).2 e =
            p'.2.sayings setup (p'.2.step setup p'.1 e').2 e') ∧
      ∀ o es es', setup.IsDiscreet → (∀ e ∈ es, e.isPosted) → (∀ e ∈ es', e.isPosted) →
        steps o setup user es p = steps o setup user es' p' →
        said o setup user es p = said o setup user es' p' ∧
          Alike user (proceed o setup es p) (proceed o setup es' p') := by
  have hsettled := hp.settled
  refine ⟨fun other e hne hcommon he => ⟨?_, fun y hy => ?_⟩, fun p' hp' ha =>
    ⟨fun e e' he he' heq => ?_, fun o es es' hsetup hes hes' heq => ?_⟩⟩
  · exact hsettled.undisturbed (Event.concerns_other hne hcommon he)
  · exact hsettled.isFor_of_mem_sayings he hy
  · exact hsettled.alike_step hp'.settled ha he he' heq
  · exact hsettled.alike_proceed hp'.settled ha hsetup hes hes' heq

end

/-- A setup whose channel recalls the conversation, tells the time and has one output. -/
def recalling : Setup where
  channels := [{
    id := "assistant", systemPrompt := "Be brief.", enrichers := [.history 5, .clock]
    outputs := [{ name := "out", medium := .handler, send := fun _ => .delivered }] }]
  fallback := "Sorry."
  debounceMillis := 100

/-- A run passes its batch through the channel, up to the outputs. -/
def passing (run : Nat) : List Event :=
  [.run run (.access none), .run run (.access none), .run run .lease,
    .run run (.enriched 0 (.contributed .empty)), .run run (.enriched 1 (.contributed .empty)),
    .run run .compose, .run run (.generated (.error .cancelled)), .run run (.access none)]

/-- Two users, the id of one of whom begins with that of the other, have each sent a message. -/
def twoUsers : Memory × Relay :=
  happen recalling (accepting 0 ⟨"a:b", "chat", "A"⟩ "one" "m1" 5 ++
    accepting 1 ⟨"a", "chat", "A"⟩ "two" "m1" 6) ({}, Relay.fresh .standard)

theorem twoUsers_apart :
    let o : Outside := ⟨fun _ => "12:00", fun _ => .ok ⟨"hello", []⟩⟩
    let alone := starting 1 ++ passing 0
    let together := starting 0 ++ (starting 1).tail ++ passing 0 ++ .notice "a:b" :: passing 1
    Undisturbed "a" twoUsers (twoUsers.2.step recalling twoUsers.1 (.notice "a:b")) ∧
      said o recalling "a" alone twoUsers = said o recalling "a" together twoUsers ∧
      (said o recalling "a" alone twoUsers).length = 3 := by
  intro o alone together
  have hdiscreet : recalling.IsDiscreet := by
    intro c hc e he
    obtain rfl := List.mem_singleton.mp hc
    rcases List.mem_pair.mp he with rfl | rfl
    · exact Enricher.isDiscreet_history 5
    · exact Enricher.isDiscreet_clock
  have hreached : Reached recalling twoUsers :=
    Reached.happen (.fresh .standard trivial) (by decide +kernel)
  obtain ⟨hothers, htwo⟩ := users_apart hreached "a"
  obtain ⟨-, hruns⟩ := htwo twoUsers hreached ⟨rfl, rfl⟩
  obtain ⟨hsaid, -⟩ := hruns o alone together hdiscreet (by decide +kernel) (by decide +kernel)
    (by decide +kernel)
  exact ⟨(hothers "a:b" (.notice "a:b") (by decide) rfl rfl).1, hsaid, by decide +kernel⟩

end ChatRelay.Relay
