import ChatRelay.Proofs.Relay.Acceptance
import ChatRelay.Rehearsal.Command

/-!
# What an answer tells about a message

A rehearsal carries a call to accept a message out without a break, with the failures that it has in
store. The answer to a request is then read off what the call returns: a message is in its list if
the answer says that it was accepted, and also if only its task was refused.
-/

namespace ChatRelay.Rehearsal.World
open Relay

/-- The setup and the store of a world, and one of its relays. -/
structure Shows (w : World) (i : Nat) (setup : Setup) (p : AnyStore × Relay) : Prop where
  setup : w.setup = setup
  store : w.store = p.1
  relay : (w.member? i).map (·.relay) = some p.2

section
variable {w : World} {i : Nat} {setup : Setup} {p : AnyStore × Relay}

theorem Shows.congr {w' : World} (h : w.Shows i setup p) (hsetup : w'.setup = w.setup)
    (hstore : w'.store = w.store) (hmembers : w'.members = w.members) : w'.Shows i setup p where
  setup := hsetup.trans h.setup
  store := hstore.trans h.store
  relay := by
    rw [member?, hmembers]
    exact h.relay

theorem Shows.relayEvent (h : w.Shows i setup p) (e : Event) :
    (w.relayEvent i e).Shows i setup (p.2.step setup p.1 e) := by
  obtain ⟨m, hm, hrelay⟩ := Option.map_eq_some_iff.mp h.relay
  have hi : w.members[i]? = some m := hm
  have hstep : m.relay.step w.setup w.store e = p.2.step setup p.1 e := by
    rw [hrelay, h.setup, h.store]
  refine ⟨?_, ?_, ?_⟩
  · simp only [World.relayEvent, hm]
    exact h.setup
  · simp only [World.relayEvent, hm, hstep]
    rfl
  · simp only [World.relayEvent, hstep, setRelay, modifyMember, member?,
      List.getElem?_modify_eq, hi]
    rfl

/-- Events of relays leave the failures that are in store. -/
theorem relayEvent_faults (w : World) (i : Nat) (e : Event) :
    (w.relayEvent i e).faults = w.faults ∧ (w.relayEvent i e).appends = w.appends := by
  unfold World.relayEvent
  split <;> exact ⟨rfl, rfl⟩

theorem Shows.deposit? (h : w.Shows i setup p) (d : Nat) :
    w.deposit? i d = p.2.deposits[d]? := by
  obtain ⟨m, hm, hrelay⟩ := Option.map_eq_some_iff.mp h.relay
  rw [World.deposit?, hm, ← hrelay]
  rfl

theorem Shows.pushNext (h : w.Shows i setup p) {d : Nat} {ticket : Ticket}
    {messages left : List Pending}
    (hd : p.2.deposits[d]? = some ⟨ticket, messages, .pushing left⟩) :
    (w.pushNext i d).Shows i setup
      (p.2.step setup p.1 (.push d (w.faults.onAppend w.appends))) := by
  rw [World.pushNext, h.deposit?, hd]
  have hcounted : ({ w with appends := w.appends + 1 } : World).Shows i setup p :=
    h.congr rfl rfl rfl
  exact hcounted.relayEvent (.push d (w.faults.onAppend w.appends))

end

/-- The call to accept a message as a world carries it out. -/
def call (w : World) (ticket : Ticket) (text sourceId : String) : Call where
  ticket := ticket
  text := text
  sourceId := sourceId
  enqueuedAt := w.firstStamp + w.stamps
  fault := w.faults.onAppend w.appends

/-- A world carries the call out, whatever it comes to. -/
theorem Shows.enqueue {w : World} {i : Nat} {setup : Setup} {p : AnyStore × Relay}
    (h : w.Shows i setup p) (ticket : Ticket) (text sourceId : String) :
    (w.enqueue i ticket text sourceId).1 =
        ((w.call ticket text sourceId).result? setup p).getD (.ok ()) ∧
      (w.enqueue i ticket text sourceId).2.Shows i setup
        ((w.call ticket text sourceId).done setup p) := by
  have hplace : ((w.member? i).map (·.relay.deposits.length)).getD 0 = p.2.deposits.length := by
    obtain ⟨m, hm, hrelay⟩ := Option.map_eq_some_iff.mp h.relay
    rw [hm, ← hrelay]
    rfl
  have hstamped : ({ w with stamps := w.stamps + 1 } : World).Shows i setup p := h.congr rfl rfl rfl
  have hbegun := hstamped.relayEvent (.enqueue ticket text sourceId (w.firstStamp + w.stamps))
  have hfiled := hbegun.pushNext List.getElem?_concat_length
  rw [(relayEvent_faults ..).1, (relayEvent_faults ..).2] at hfiled
  have hdone := hfiled.relayEvent (.arm p.2.deposits.length)
  have henqueue : (w.enqueue i ticket text sourceId) =
      let begun := ({ w with stamps := w.stamps + 1 } : World).relayEvent i
        (.enqueue ticket text sourceId (w.firstStamp + w.stamps))
      let final := (begun.pushNext i p.2.deposits.length).relayEvent i (.arm p.2.deposits.length)
      (((final.deposit? i p.2.deposits.length).bind (·.result?)).getD (.ok ()), final) := by
    rw [← hplace]
    rfl
  rw [henqueue]
  refine ⟨?_, hdone⟩
  dsimp only
  rw [hdone.deposit?]
  rfl

/-! ## Answers to requests -/

/-- What an answer tells about the store and the tasks after it. -/
inductive Tells (setup : Setup) (p p' : AnyStore × Relay) (request : Ingest.HttpRequest) :
    Ingest.HttpResponse → Prop
  | rejected {response : Ingest.HttpResponse} (hv : Ingest.verdict request = .answer response)
      (hstatus : response.status ≠ 202) (hstore : p'.1 = p.1) (htasks : SameTasks p.2 p'.2) :
      Tells setup p p' request response
  | unstored {s : Submission} (hv : Ingest.verdict request = .accept s) (cause : StoreError)
      (hstore : p'.1 = p.1) (htasks : SameTasks p.2 p'.2) :
      Tells setup p p' request (Ingest.unavailable (.store cause))
  | unarmed {s : Submission} (hv : Ingest.verdict request = .accept s) (cause : TaskError)
      {m : Pending} (htext : m.text = s.text) (hlabel : m.label = (Ingest.ticket s).label)
      (hstore : Filed p.1 p'.1 s.user m) (htasks : SameTasks p.2 p'.2) :
      Tells setup p p' request (Ingest.unavailable (.task cause))
  | accepted {s : Submission} (hv : Ingest.verdict request = .accept s) {m : Pending}
      (htext : m.text = s.text) (hlabel : m.label = (Ingest.ticket s).label)
      (hid : ∀ id ∈ s.messageId, m.sourceId = id) (hstore : Filed p.1 p'.1 s.user m)
      (htasks : Armed setup ((Ingest.ticket s).task setup.debounceMillis) p.2 p'.2) :
      Tells setup p p' request (Ingest.accepted m.sourceId)

theorem status_review {s : Submission} {response : Ingest.HttpResponse}
    (h : Ingest.review s = .answer response) : response.status ≠ 202 := by
  unfold Ingest.review at h
  split at h
  · cases h
    decide
  · cases h

theorem status_post {request : Ingest.HttpRequest} {response : Ingest.HttpResponse}
    (h : Ingest.post request = .answer response) : response.status ≠ 202 := by
  unfold Ingest.post at h
  split at h
  · cases h
    decide
  · split at h
    · exact status_review h
    · split at h
      · cases h
        exact (by decide : (400 : Nat) ≠ 202)
      · cases h
        exact (by decide : (422 : Nat) ≠ 202)

/-- What is answered at once is not accepted. -/
theorem status_of_answer {request : Ingest.HttpRequest} {response : Ingest.HttpResponse}
    (h : Ingest.verdict request = .answer response) : response.status ≠ 202 := by
  unfold Ingest.verdict at h
  split at h
  · exact status_post h
  all_goals
    cases h
    decide

/-- The answer to a submission that was handed on, by what came of it. -/
def answerTo (messageId : String) : Except RelayError Unit → Ingest.HttpResponse
  | .ok () => Ingest.accepted messageId
  | .error cause => Ingest.unavailable cause

/-- A submission is handed on, and the answer says what came of it. -/
theorem Shows.submit {w : World} {i : Nat} {setup : Setup} {p : AnyStore × Relay}
    (h : w.Shows i setup p) (hs : LawfulStore.Sound p.1) {request : Ingest.HttpRequest}
    {s : Submission} (hv : Ingest.verdict request = .accept s) {messageId : String}
    (hid : ∀ id ∈ s.messageId, messageId = id) :
    let enqueued := w.enqueueAndNotify i (Ingest.ticket s) s.text messageId
    ∃ p', enqueued.2.Shows i setup p' ∧
      Tells setup p p' request (answerTo messageId enqueued.1) := by
  obtain ⟨hreturned, hshows⟩ := h.enqueue (Ingest.ticket s) s.text messageId
  let c := w.call (Ingest.ticket s) s.text messageId
  obtain ⟨result, hresult, ho⟩ : ∃ result, c.result? setup p = some result ∧
      c.Outcome setup p result := Call.outcome hs nofun
  have hbegun : SameTasks p.2 (c.reached setup p).2 := (c.begun_same setup p).2
  rw [hresult] at hreturned
  simp only [enqueueAndNotify, publishNotice, hreturned]
  refine ⟨c.done setup p, ?_, ?_⟩
  · unfold World.publish
    split
    · exact hshows
    · exact hshows.congr rfl rfl rfl
  · -- nothing comes between the steps of the call, so their changes add up
    cases ho with
    | accepted hlist htasks hstore harmed =>
      refine .accepted (m := c.message) hv rfl rfl hid ?_ (.of_same (hbegun.trans htasks) harmed)
      rw [hstore]
      exact hlist
    | unstored hfault hlist htasks hdone =>
      refine .unstored hv _ ?_ ?_
      · rw [hdone]
        exact hlist
      · rw [hdone]
        exact hbegun.trans htasks
    | unarmed cause hlist htasks hstore hsame =>
      refine .unarmed (m := c.message) hv cause rfl rfl ?_ ((hbegun.trans htasks).trans hsame)
      rw [hstore]
      exact hlist

theorem Shows.serve {w : World} {i : Nat} {setup : Setup} {p : AnyStore × Relay}
    (h : w.Shows i setup p) (hs : LawfulStore.Sound p.1) (request : Ingest.HttpRequest) :
    ∃ p', (w.serve i request).2.Shows i setup p' ∧
      Tells setup p p' request (w.serve i request).1 := by
  cases hv : Ingest.verdict request with
  | answer response =>
    rw [World.serve, hv]
    exact ⟨p, h, .rejected hv (status_of_answer hv) rfl (.refl _)⟩
  | accept s =>
    -- with the id of the submission or with a fresh one
    obtain ⟨messageId, w', hserve, hw', hid⟩ : ∃ (messageId : String) (w' : World),
        w.serve i request =
          (answerTo messageId (w'.enqueueAndNotify i (Ingest.ticket s) s.text messageId).1,
            (w'.enqueueAndNotify i (Ingest.ticket s) s.text messageId).2) ∧
        w'.Shows i setup p ∧ ∀ id ∈ s.messageId, messageId = id := by
      cases hm : s.messageId with
      | some messageId =>
        refine ⟨messageId, w, ?_, h, by simp⟩
        simp only [World.serve, hv, hm]
        rcases w.enqueueAndNotify i (Ingest.ticket s) s.text messageId with ⟨_ | _, final⟩ <;> rfl
      | none =>
        refine ⟨w.takeId.1, w.takeId.2, ?_, h.congr rfl rfl rfl, nofun⟩
        simp only [World.serve, hv, hm]
        rcases w.takeId.2.enqueueAndNotify i (Ingest.ticket s) s.text w.takeId.1 with
          ⟨_ | _, final⟩ <;> rfl
    rw [hserve]
    exact hw'.submit hs hv hid

/-! ## Calls in any state -/

/-- Whatever has happened to a relay, and whatever else happens during a call: a call that returns
an error of the store has changed neither lists nor tasks, one that returns an error of the queue
has put its message behind those of its user and changed no tasks, and one that succeeds has done so
and armed its task. The same goes for requests: one that is answered at once changes nothing, and
any other is answered as its call returns. -/
theorem calls_and_answers_tell_changes :
    (∀ (σ : Type) [Store σ] [LawfulStore σ] (setup : Setup) (s₀ : σ) (policy : RetryPolicy)
      (h : History) (p : σ × Relay) (c : Call), Occurs setup s₀ policy h p.1 p.2 →
        LawfulStore.Sound s₀ → c.IsAlone p →
          ((c.begun setup p).1 = p.1 ∧ SameTasks p.2 (c.begun setup p).2) ∧
          ∃ result, c.result? setup p = some result ∧ c.Outcome setup p result) ∧
    ∀ (w : World) (i : Nat) (setup : Setup) (p : AnyStore × Relay) (request : Ingest.HttpRequest),
      w.Shows i setup p → LawfulStore.Sound p.1 →
        ∃ p', (w.serve i request).2.Shows i setup p' ∧
          Tells setup p p' request (w.serve i request).1 := by
  constructor
  · intro σ _ _ setup s₀ policy h p c ho hs ha
    obtain ⟨h', hreached⟩ := (ho.step (.enqueue c.ticket c.text c.sourceId c.enqueuedAt)).happen
      c.meanwhile
    exact ⟨c.begun_same setup p, Call.outcome (hreached.sound hs) ha⟩
  · intro w i setup p request h hs
    exact h.serve hs request

def openWorld : World where
  setup := plain
  members := [{ relay := Relay.fresh .none }]
  minute := ""
  clock _ := ""
  firstStamp := 0
  freshId _ := "fresh"

def posting : Ingest.HttpRequest where
  method := "POST"
  target := "/api/messages"
  headers := [("Content-Type", "application/json")]
  body := "\x7b\"user_id\":\"u1\",\"text\":\"hi\"\x7d"

/-- The relay is shut down when a message comes. -/
def closed : Memory × Relay := (course plain ({} : Memory) .none [.timer .shutdown]).2

def lateCall : Call where
  ticket := ⟨"u1", "c1", "A"⟩
  text := "hi"
  sourceId := "m1"
  enqueuedAt := 0

theorem closed_and_open_calls :
    lateCall.result? plain closed = some (.error (.task .shutdown)) ∧
    ((lateCall.begun plain closed).1 = closed.1 ∧
      SameTasks closed.2 (lateCall.begun plain closed).2) ∧
    (openWorld.serve 0 posting).1 = Ingest.accepted "fresh" ∧
    ∃ p', (openWorld.serve 0 posting).2.Shows 0 plain p' ∧
      Tells plain (.memory {}, Relay.fresh .none) p' posting (openWorld.serve 0 posting).1 := by
  obtain ⟨hcalls, hanswers⟩ := calls_and_answers_tell_changes
  have hclosed := hcalls Memory plain {} .none _ closed lateCall (occurs_course ..) trivial nofun
  exact ⟨by decide +kernel, hclosed.1, by decide +kernel,
    hanswers openWorld 0 plain (.memory {}, Relay.fresh .none) posting ⟨rfl, rfl, rfl⟩ trivial⟩

/-- A client that is told twice that its message is not accepted has it in the list twice. -/
theorem refused_twice_waits_twice :
    let first := (openWorld.stopQueue 0).serve 0 posting
    let second := first.2.serve 0 posting
    (Pending.takeAll (openWorld.stopQueue 0).store "u1").1 = [] ∧
    first.1 = Ingest.unavailable (.task .shutdown) ∧ first.1.status = 503 ∧
    (Pending.takeAll first.2.store "u1").1.map (·.text) = ["hi"] ∧
    second.1.status = 503 ∧
    (Pending.takeAll second.2.store "u1").1.map (·.text) = ["hi", "hi"] := by
  decide +kernel

end ChatRelay.Rehearsal.World
