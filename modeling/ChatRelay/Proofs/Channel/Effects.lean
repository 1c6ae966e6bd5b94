import ChatRelay.Proofs.Channel.Journey
import ChatRelay.Store.Memory

/-!
# What an execution brings about

An execution either fails and has no effect, or it returns a reply and has all of its effects: the
conversation store is asked once to add the message and the turns of the engine, and every output
is invoked once. What becomes of one effect has no bearing on the others. The store may fail, and an
output may fail or panic, of which only the result of the execution tells.
-/

namespace ChatRelay

theorem ChannelRegistry.id_of_get {channels : ChannelRegistry} {id : String} {channel : Channel}
    (h : channels.get id = .ok channel) : channel.id = id := by
  rw [get] at h
  cases hfind : channels.find? id with
  | none => simp [hfind] at h
  | some c =>
    obtain rfl : c = channel := by simpa [hfind] using h
    simpa using List.find?_some hfind

theorem OutputOutcome.succeeded_iff {o : OutputOutcome} : o.succeeded ↔ o = .delivered := by
  cases o <;> simp [OutputOutcome.succeeded]

namespace Journey

/-- What the conversation store was asked to add, for whom, and how it failed, if it did. -/
structure Write where
  user : String
  turns : List Turn
  fault : Option StoreError
deriving DecidableEq, Repr

variable {σ : Type}

/-- What the store is asked to add at an event. -/
def write? (j : Journey σ) : Event → Option Write
  | .keep fault =>
    match j.execution with
    | .keeping p message reply => some ⟨p.request.user, turnsToKeep message reply, fault⟩
    | _ => none
  | _ => none

/-- The output that comes to its end at an event. Outputs end once; a second word about one of them
is not heard. -/
def report? (j : Journey σ) : Event → Option Report
  | .delivered slot success =>
    match j.execution with
    | .delivering _ _ slots => if slots[slot]? = some none then some ⟨slot, success⟩ else none
    | _ => none
  | _ => none

def Event.unfailing : Event → Event
  | .keep _ => .keep none
  | e => e

variable [Store σ]

/-- What is seen of a journey at its events, one after the other. -/
def along {α : Type} (see : Journey σ → Event → Option α) (j : Journey σ) : List Event → List α
  | [] => []
  | e :: es => (see j e).toList ++ along see (j.step e) es

def writes (j : Journey σ) (es : List Event) : List Write := along write? j es

def reports (j : Journey σ) (es : List Event) : List Report := along report? j es

/-- The store once the message and the reply have been kept, or could not be. -/
def stored (s : σ) (w : Write) : σ :=
  match w.fault with
  | some _ => s
  | none => Conversations.addTurns s w.user w.turns

/-! ## The effects so far -/

structure Untouched (s : σ) (j : Journey σ) (ws : List Write) (rs : List Report) : Prop where
  store : j.store = s
  sent : j.sent = []
  writes : ws = []
  reports : rs = []

structure Released (p : Passage) (message : String) (s : σ) (reply : Provider.Reply)
    (j : Journey σ) (ws : List Write) : Prop where
  returned : j.returned = some (.ok reply)
  write : ∃ fault, ws = [⟨p.request.user, turnsToKeep message reply, fault⟩]
  store : ∀ w ∈ ws, j.store = stored s w
  sent : j.sent = p.outputs.map fun o => (o.name, p.dispatch reply)

/-- What has been written and reported while a message passes through, by where it is. -/
def Effects (p : Passage) (message : String) (s : σ) (j : Journey σ) (ws : List Write)
    (rs : List Report) : Prop :=
  match j.execution with
  | .enriching p' message' _ | .generating p' message' _ =>
    p' = p ∧ message' = message ∧ Untouched s j ws rs
  | .keeping p' message' reply =>
    p' = p ∧ message' = message ∧ j.returned = some (.ok reply) ∧ Untouched s j ws rs
  | .delivering p' reply slots =>
    p' = p ∧ Released p message s reply j ws ∧ slots.length = p.outputs.length ∧ Tells rs slots
  | .finished (.error _) => Untouched s j ws rs
  | .finished (.ok c) => ∃ (reply : Provider.Reply) (successes : List Bool),
      c = ⟨reply.text, reply.turns, successes.all id⟩ ∧ Released p message s reply j ws ∧
      successes.length = p.outputs.length ∧ Tells rs (successes.map some)

variable {p : Passage} {message : String} {s : σ} {j : Journey σ} {ws : List Write}
  {rs : List Report}

/-- Whether or not all outputs are done, the effects are those of a reply that is released. -/
theorem effects_deliver {reply : Provider.Reply} {slots : List (Option Bool)}
    (hx : j.execution = .deliver p reply slots) (h : Released p message s reply j ws)
    (hlen : slots.length = p.outputs.length) (ht : Tells rs slots) :
    Effects p message s j ws rs := by
  rw [Execution.deliver] at hx
  cases hfilled : filled? slots with
  | none =>
    simp only [Effects, hx, hfilled]
    exact ⟨trivial, h, hlen, ht⟩
  | some successes =>
    obtain rfl := eq_map_of_filled? hfilled
    simp only [Effects, hx, hfilled]
    exact ⟨reply, successes, rfl, h, by simpa using hlen, ht⟩

theorem Effects.failed {cause : PipelineError} (h : Effects p message s j ws rs)
    (hx : j.execution = .finished (.error cause)) : Untouched s j ws rs := by
  simpa only [Effects, hx] using h

theorem Effects.completed {c : Completion} (h : Effects p message s j ws rs)
    (hx : j.execution = .finished (.ok c)) : ∃ (reply : Provider.Reply) (successes : List Bool),
      c = ⟨reply.text, reply.turns, successes.all id⟩ ∧ Released p message s reply j ws ∧
      successes.length = p.outputs.length ∧ Tells rs (successes.map some) := by
  simpa only [Effects, hx] using h

theorem Effects.step (h : Effects p message s j ws rs) (e : Event) :
    Effects p message s (j.step e) (ws ++ (j.write? e).toList) (rs ++ (j.report? e).toList) := by
  obtain ⟨store, x, calledOff, returned, sent⟩ := j
  cases x with
  | enriching p' m slots =>
    obtain ⟨rfl, rfl, hstore, hsent, rfl, rfl⟩ := h
    cases e with
    | compose =>
      simp only [Journey.step, Execution.compose]
      cases filled? slots with
      | none => exact ⟨rfl, rfl, hstore, hsent, rfl, rfl⟩
      | some contributions =>
        cases calledOff with
        | true => exact ⟨hstore, hsent, rfl, rfl⟩
        | false => exact ⟨rfl, rfl, hstore, hsent, rfl, rfl⟩
    | keep fault =>
      exact ⟨rfl, rfl, hstore, by simpa [Journey.step, Execution.dispatches] using hsent, rfl, rfl⟩
    | _ => exact ⟨rfl, rfl, hstore, hsent, rfl, rfl⟩
  | generating p' m prompt =>
    obtain ⟨rfl, rfl, hstore, hsent, rfl, rfl⟩ := h
    cases e with
    | generated outcome =>
      cases outcome with
      | error cause => exact ⟨hstore, hsent, rfl, rfl⟩
      | ok reply =>
        cases calledOff with
        | true => exact ⟨hstore, hsent, rfl, rfl⟩
        | false => exact ⟨rfl, rfl, rfl, hstore, hsent, rfl, rfl⟩
    | keep fault =>
      exact ⟨rfl, rfl, hstore, by simpa [Journey.step, Execution.dispatches] using hsent, rfl, rfl⟩
    | _ => exact ⟨rfl, rfl, hstore, hsent, rfl, rfl⟩
  | keeping p' m reply =>
    obtain ⟨rfl, rfl, hreturned, hstore, hsent, rfl, rfl⟩ := h
    cases e with
    | keep fault =>
      refine effects_deliver rfl ⟨hreturned, ⟨fault, rfl⟩, ?_, ?_⟩ ?_ (tells_emptySlots p'.outputs)
      · intro w hw
        obtain rfl : w = _ := List.mem_singleton.mp hw
        subst hstore
        cases fault <;> rfl
      · simpa [Journey.step, Execution.dispatches] using hsent
      · simp [Execution.emptySlots]
    | _ => exact ⟨rfl, rfl, hreturned, hstore, hsent, rfl, rfl⟩
  | delivering p' reply slots =>
    obtain ⟨rfl, ⟨hreturned, hwrite, hstore, hsent⟩, hlen, ht⟩ := h
    cases e with
    | delivered slot success =>
      simp only [write?, Option.toList_none, List.append_nil]
      refine effects_deliver rfl ⟨hreturned, hwrite, hstore, hsent⟩
        ((length_fillSlot ..).trans hlen) ?_
      by_cases hslot : slots[slot]? = some none
      · simpa [report?, hslot] using ht.fillSlot hslot success
      · simpa [report?, hslot, fillSlot_of_not hslot] using ht
    | keep fault =>
      simp only [write?, report?, Option.toList_none, List.append_nil]
      exact ⟨rfl, ⟨hreturned, hwrite, hstore,
        by simpa [Journey.step, Execution.dispatches] using hsent⟩, hlen, ht⟩
    | _ =>
      simp only [write?, report?, Option.toList_none, List.append_nil]
      exact ⟨rfl, ⟨hreturned, hwrite, hstore, hsent⟩, hlen, ht⟩
  | finished result =>
    -- nothing happens any more, and nothing is written or reported
    have hnone : ws ++ (write? ⟨store, .finished result, calledOff, returned, sent⟩ e).toList = ws ∧
        rs ++ (report? ⟨store, .finished result, calledOff, returned, sent⟩ e).toList = rs := by
      cases e <;> simp [write?, report?]
    rw [hnone.1, hnone.2]
    rcases step_of_finished (j := ⟨store, .finished result, calledOff, returned, sent⟩) rfl e
      with hsame | hsame
    · rwa [hsame]
    · rw [hsame]
      cases result with
      | error cause =>
        obtain ⟨hstore, hsent, hws, hrs⟩ := h
        exact ⟨hstore, hsent, hws, hrs⟩
      | ok c =>
        obtain ⟨reply, successes, hc, ⟨hreturned, hwrite, hstore, hsent⟩, hlen, ht⟩ := h
        exact ⟨reply, successes, hc, ⟨hreturned, hwrite, hstore, hsent⟩, hlen, ht⟩

theorem Effects.run (h : Effects p message s j ws rs) (es : List Event) :
    Effects p message s (j.run es) (ws ++ j.writes es) (rs ++ j.reports es) := by
  induction es generalizing j ws rs with
  | nil => simpa [writes, reports, along] using h
  | cons e es ih => simpa [writes, reports, along] using ih (h.step e)

/-- An execution sets out with no effects, and what it does is said of its own channel and message;
one that fails at once passes through no channel. -/
theorem effects_start (channels : ChannelRegistry) (id : String) (request : Request)
    (overrides : Option (List Output)) (skipsOutputs : Bool) (s : σ) :
    (∃ cause, (start channels id request overrides skipsOutputs s).execution =
        .finished (.error cause)) ∨
      ∃ channel message, channels.get id = .ok channel ∧
        channel.transform request = .ok message ∧
        Effects ⟨channel, request, overrides, skipsOutputs⟩ message s
          (start channels id request overrides skipsOutputs s) [] [] := by
  cases hc : channels.get id with
  | error cause => exact .inl ⟨.config cause, by simp [start, Execution.begin, hc]⟩
  | ok channel =>
    cases hm : channel.transform request with
    | error cause => exact .inl ⟨cause, by simp [start, Execution.begin, hc, Execution.start, hm]⟩
    | ok message =>
      refine .inr ⟨channel, message, rfl, hm, ?_⟩
      simp only [Effects, start, Execution.begin, hc, Execution.start, hm]
      exact ⟨trivial, trivial, rfl, rfl, rfl, rfl⟩

/-- An execution that never sets out does nothing. -/
theorem untouched_of_finished {cause : PipelineError} (hx : j.execution = .finished (.error cause))
    (hsent : j.sent = []) (es : List Event) :
    Untouched j.store (j.run es) (j.writes es) (j.reports es) := by
  induction es generalizing j with
  | nil => exact ⟨rfl, hsent, rfl, rfl⟩
  | cons e es ih =>
    have hnone : (j.write? e).toList = [] ∧ (j.report? e).toList = [] := by
      cases e <;> simp [write?, report?, hx]
    have hstep : (j.step e).execution = j.execution ∧ (j.step e).store = j.store ∧
        (j.step e).sent = j.sent := by
      rcases step_of_finished hx e with hsame | hsame <;> rw [hsame] <;> exact ⟨rfl, rfl, rfl⟩
    obtain ⟨hstep, hstore, hsame⟩ := hstep
    have h := ih (hstep.trans hx) (hsame.trans hsent)
    rw [hstore] at h
    simpa [writes, reports, along, hnone] using h

/-! ## When the store fails -/

/-- Two journeys that differ in the contents of their stores at most. -/
structure Alike (j j' : Journey σ) : Prop where
  execution : j.execution = j'.execution
  calledOff : j.calledOff = j'.calledOff
  returned : j.returned = j'.returned
  sent : j.sent = j'.sent

theorem keep_snd (x : Execution) (fault fault' : Option StoreError) (s s' : σ) :
    (x.keep fault s).2 = (x.keep fault' s').2 := by
  cases x <;> rfl

theorem Alike.step {j' : Journey σ} (h : Alike j j') (e : Event) :
    Alike (j.step e) (j'.step e.unfailing) ∧ j.report? e = j'.report? e.unfailing := by
  obtain ⟨store, x, calledOff, returned, sent⟩ := j
  obtain ⟨store', x', calledOff', returned', sent'⟩ := j'
  obtain ⟨rfl, rfl, rfl, rfl⟩ : x = x' ∧ calledOff = calledOff' ∧ returned = returned' ∧
    sent = sent' := ⟨h.execution, h.calledOff, h.returned, h.sent⟩
  cases e with
  | keep fault => exact ⟨⟨keep_snd .., rfl, rfl, rfl⟩, rfl⟩
  | _ => exact ⟨⟨rfl, rfl, rfl, rfl⟩, rfl⟩

theorem Alike.run {j' : Journey σ} (h : Alike j j') (es : List Event) :
    Alike (j.run es) (j'.run (es.map Event.unfailing)) ∧
      j.reports es = j'.reports (es.map Event.unfailing) := by
  induction es generalizing j j' with
  | nil => exact ⟨h, rfl⟩
  | cons e es ih =>
    obtain ⟨hnext, hreport⟩ := h.step e
    obtain ⟨hrun, hreports⟩ := ih hnext
    refine ⟨hrun, ?_⟩
    rw [reports, reports] at hreports
    simp only [reports, List.map_cons, along, hreport, hreports]

/-! ## All effects or none -/

/-- When all outputs have told how they ended, all of them are good if every report is. -/
theorem forall_reports_iff {rs : List Report} {n : Nat}
    (h : (rs.map (·.slot)).Perm (List.range n)) {outcomes : Nat → OutputOutcome}
    (hrs : ∀ r ∈ rs, r.success = (outcomes r.slot).succeeded) :
    (∀ r ∈ rs, r.success) ↔ ∀ k < n, outcomes k = .delivered := by
  constructor
  · intro hall k hk
    obtain ⟨r, hr, rfl⟩ := List.mem_map.mp (h.mem_iff.mpr (List.mem_range.mpr hk))
    rw [← OutputOutcome.succeeded_iff, ← hrs r hr]
    exact hall r hr
  · intro hall r hr
    rw [hrs r hr, OutputOutcome.succeeded_iff]
    exact hall _ (List.mem_range.mp (h.mem_iff.mp (List.mem_map_of_mem hr)))

/-- An execution that fails has added nothing to the conversation and invoked no output. One that
returns a reply has asked the store once to add the message, as the channel transformed it, and the
turns of the engine; it has invoked each output in force once, with the reply and the message as it
came in, whatever became of the others; and it says that the outputs succeeded if all of them did.
Whether the store failed makes no other difference. -/
theorem all_or_nothing (channels : ChannelRegistry) (id : String) (request : Request)
    (overrides : Option (List Output)) (skipsOutputs : Bool) (s : σ) (es : List Event) :
    let j₀ := start channels id request overrides skipsOutputs s
    let j := j₀.run es
    (∀ cause, j.execution = .finished (.error cause) →
      j₀.writes es = [] ∧ j.store = s ∧ j.sent = []) ∧
    (∀ c, j.execution = .finished (.ok c) → ∃ channel message reply fault,
      channels.get id = .ok channel ∧ channel.transform request = .ok message ∧
      j.returned = some (.ok reply) ∧ c.text = reply.text ∧ c.turns = reply.turns ∧
      j₀.writes es = [⟨request.user, .user message :: reply.turns, fault⟩] ∧
      j.store = (match fault with
        | some _ => s
        | none => Conversations.addTurns s request.user (.user message :: reply.turns)) ∧
      let outputs := if skipsOutputs then [] else overrides.getD channel.outputs
      j.sent = outputs.map (fun o =>
        (o.name, ⟨reply.text, request.user, id, request.chat, request.message⟩)) ∧
      ((j₀.reports es).map (·.slot)).Perm (List.range outputs.length) ∧
      (c.delivered ↔ ∀ r ∈ j₀.reports es, r.success) ∧
      ∀ outcomes : Nat → OutputOutcome,
        (∀ r ∈ j₀.reports es, r.success = (outcomes r.slot).succeeded) →
        (c.delivered ↔ ∀ k < outputs.length, outcomes k = .delivered)) ∧
    let j' := j₀.run (es.map Event.unfailing)
    j'.execution = j.execution ∧ j'.sent = j.sent ∧
      j₀.reports (es.map Event.unfailing) = j₀.reports es := by
  intro j₀ j
  obtain ⟨halike, hreports⟩ := Alike.run (j := j₀) ⟨rfl, rfl, rfl, rfl⟩ es
  refine ⟨fun cause hx => ?_, fun c hx => ?_, halike.execution.symm, halike.sent.symm,
    hreports.symm⟩
  · rcases effects_start channels id request overrides skipsOutputs s with
      ⟨cause₀, hx₀⟩ | ⟨channel, message, -, -, heffects⟩
    · obtain ⟨hstore, hsent, hwrites, -⟩ := untouched_of_finished hx₀ rfl es
      exact ⟨hwrites, hstore, hsent⟩
    · have h := (heffects.run es).failed hx
      exact ⟨h.writes, h.store, h.sent⟩
  · rcases effects_start channels id request overrides skipsOutputs s with
      ⟨cause₀, hx₀⟩ | ⟨channel, message, hc, hm, heffects⟩
    · cases hx.symm.trans (run_of_finished hx₀ es)
    · obtain ⟨reply, successes, rfl, ⟨hreturned, ⟨fault, hwrite⟩, hstore, hsent⟩, hlen, ht⟩ :=
        (heffects.run es).completed hx
      have hperm := ht.perm
      rw [hlen] at hperm
      refine ⟨channel, message, reply, fault, hc, hm, hreturned, rfl, rfl, hwrite, ?_, ?_, hperm,
        ht.all, fun outcomes hrs => ht.all.trans (forall_reports_iff hperm hrs)⟩
      · rw [hwrite] at hstore
        exact hstore _ (List.mem_singleton_self _)
      · rw [← ChannelRegistry.id_of_get hc]
        exact hsent

/-- Two outputs, of which the second panics. -/
def unevenOutputs : List Output :=
  [{ name := "first", medium := .handler, send := fun _ => .delivered },
    { name := "second", medium := .handler, send := fun _ => .panicked "overflow" }]

/-- They stand in for the outputs of the channel, and the store is down. -/
def halfDelivered : Journey Memory × List Event :=
  (start [{ id := "assistant", systemPrompt := "Be brief." }] "assistant"
      ⟨"hello", "u", "chat", none, none⟩ (some unevenOutputs) false {},
    [.compose, .generated (.ok ⟨"reply", [.assistant "reply"]⟩), .keep (some (.unavailable "down")),
      .delivered 1 false, .delivered 0 true])

theorem halfDelivered_effects :
    let (j₀, es) := halfDelivered
    (j₀.run es).execution = .finished (.ok ⟨"reply", [.assistant "reply"], false⟩) ∧
      (j₀.writes es).map (·.turns) = [[.user "hello", .assistant "reply"]] ∧
      (j₀.run es).sent = ["first", "second"].map fun name =>
        (name, ⟨"reply", "u", "assistant", "chat", "hello"⟩) := by
  refine ⟨rfl, ?_⟩
  obtain ⟨-, hok, -⟩ := all_or_nothing [{ id := "assistant", systemPrompt := "Be brief." }]
    "assistant" ⟨"hello", "u", "chat", none, none⟩ (some unevenOutputs) false ({} : Memory)
    halfDelivered.2
  obtain ⟨channel, message, reply, fault, hc, hm, hreturned, -, -, hwrites, -, hsent, -⟩ :=
    hok ⟨"reply", [.assistant "reply"], false⟩ rfl
  obtain rfl : _ = channel := Except.ok.inj hc
  obtain rfl : "hello" = message := Except.ok.inj hm
  obtain rfl : _ = reply := Except.ok.inj (Option.some.inj hreturned)
  exact ⟨congrArg (List.map (·.turns)) hwrites, hsent⟩

end Journey
end ChatRelay
