import ChatRelay.Proofs.Channel.Effects
import ChatRelay.Proofs.Conversation.Merging

/-!
# Enrichers that fail

An enricher that fails or panics contributes nothing, so what the engine is asked is the same as on
a channel without it. Once the engine is asked, the enrichers have no part in an execution any more:
`Execution.withEnrichers` exchanges the enrichers of its channel, and every step commutes with it.
-/

namespace ChatRelay

/-! ## What is contributed -/

def EnricherOutcome.contribution? : EnricherOutcome → Option Enrichment
  | .contributed e => some e
  | .failed _ | .panicked _ => none

def EnricherOutcome.succeeded (o : EnricherOutcome) : Bool := o.contribution?.isSome

namespace Enrichment

/-- The conversation for a message with contributions: the first history that is not empty, then
one turn of the user. Texts that are not blank follow the message, each after a blank line. -/
def conversation (message : String) (contributions : List Enrichment) : List Turn :=
  let additions := (contributions.filterMap (·.context)).filter fun text => !Text.isBlankText text
  ((contributions.filterMap (·.history)).find? fun turns => !turns.isEmpty).getD [] ++
    [.user (if additions.isEmpty then message
      else message ++ "\n\n" ++ "\n\n".intercalate additions)]

/-- What nothing adds nothing to can be collected from the successful outcomes alone. -/
theorem filterMap_enrichment {α : Type} {f : Enrichment → Option α} (hf : f .empty = none)
    (outcomes : List EnricherOutcome) :
    (outcomes.map (·.enrichment)).filterMap f =
      (outcomes.filterMap (·.contribution?)).filterMap f := by
  rw [List.filterMap_map, List.filterMap_filterMap]
  congr 1
  funext o
  cases o <;> simp [EnricherOutcome.enrichment, EnricherOutcome.contribution?, hf]

theorem merge_history (es : List Enrichment) : (merge es).history =
    (es.filterMap (·.history)).find? fun turns => !turns.isEmpty := by
  rw [merge, ← List.head?_filterMap, ← List.head?_filter, List.filter_filterMap]
  rfl

theorem merge_enrichment (outcomes : List EnricherOutcome) :
    merge (outcomes.map (·.enrichment)) = merge (outcomes.filterMap (·.contribution?)) := by
  simp only [merge, ← List.head?_filterMap]
  rw [filterMap_enrichment rfl, filterMap_enrichment rfl]

end Enrichment

/-- What the engine is asked, whether or not some enrichers failed. -/
theorem Passage.prompt_enrichment (p : Passage) (message : String)
    (outcomes : List EnricherOutcome) :
    p.prompt message (outcomes.map (·.enrichment)) =
      ⟨p.channel.systemPrompt,
        Enrichment.conversation message (outcomes.filterMap (·.contribution?)),
        p.channel.tools p.request⟩ := by
  have hadditions := Enrichment.not_blank_of_mem_additions
    (outcomes.filterMap (·.contribution?))
  simp only [Passage.prompt, Enrichment.merge_enrichment, Enrichment.merge_history,
    Enrichment.conversation, ← Enrichment.additions_eq, ← Enrichment.assemble_join _ hadditions]
  rfl

theorem contributions_filter (assigned : List (Enricher × EnricherOutcome)) :
    ((assigned.filter (·.2.succeeded)).map (·.2)).filterMap (·.contribution?) =
      (assigned.map (·.2)).filterMap (·.contribution?) := by
  rw [List.filterMap_map, List.filterMap_filter, List.filterMap_map]
  congr 1
  funext ⟨enricher, o⟩
  cases o <;> rfl

/-! ## Other enrichers -/

def Passage.withEnrichers (p : Passage) (enrichers : List Enricher) : Passage :=
  { p with channel := { p.channel with enrichers } }

namespace Execution

def withEnrichers (enrichers : List Enricher) : Execution → Execution
  | .enriching p message slots => .enriching (p.withEnrichers enrichers) message slots
  | .generating p message prompt => .generating (p.withEnrichers enrichers) message prompt
  | .keeping p message reply => .keeping (p.withEnrichers enrichers) message reply
  | .delivering p reply slots => .delivering (p.withEnrichers enrichers) reply slots
  | .finished result => .finished result

def prompt? : Execution → Option Prompt
  | .generating _ _ prompt => some prompt
  | _ => none

variable (enrichers : List Enricher) (x : Execution)

@[simp] theorem prompt?_withEnrichers : (x.withEnrichers enrichers).prompt? = x.prompt? := by
  cases x <;> rfl

@[simp] theorem result?_withEnrichers : (x.withEnrichers enrichers).result? = x.result? := by
  cases x <;> rfl

@[simp] theorem isGenerating_withEnrichers :
    (x.withEnrichers enrichers).isGenerating = x.isGenerating := by
  cases x <;> rfl

@[simp] theorem dispatches_withEnrichers :
    (x.withEnrichers enrichers).dispatches = x.dispatches := by
  cases x <;> rfl

theorem deliver_withEnrichers (p : Passage) (reply : Provider.Reply) (slots : List (Option Bool)) :
    deliver (p.withEnrichers enrichers) reply slots =
      (deliver p reply slots).withEnrichers enrichers := by
  unfold deliver
  split <;> rfl

theorem enriched_withEnrichers (slot : Nat) (outcome : EnricherOutcome) :
    (x.withEnrichers enrichers).enriched slot outcome =
      (x.enriched slot outcome).withEnrichers enrichers := by
  cases x <;> rfl

theorem compose_withEnrichers (calledOff : Bool) :
    (x.withEnrichers enrichers).compose calledOff =
      (x.compose calledOff).withEnrichers enrichers := by
  cases x with
  | enriching p message slots =>
    simp only [withEnrichers, compose]
    split
    · rfl
    · split <;> rfl
  | _ => rfl

theorem generated_withEnrichers (calledOff : Bool) (outcome : Except EngineError Provider.Reply) :
    (x.withEnrichers enrichers).generated calledOff outcome =
      (x.generated calledOff outcome).withEnrichers enrichers := by
  cases x with
  | generating p message prompt => cases outcome <;> cases calledOff <;> rfl
  | _ => rfl

theorem delivered_withEnrichers (slot : Nat) (success : Bool) :
    (x.withEnrichers enrichers).delivered slot success =
      (x.delivered slot success).withEnrichers enrichers := by
  cases x with
  | delivering p reply slots => exact deliver_withEnrichers enrichers p reply _
  | _ => rfl

theorem keep_withEnrichers {σ : Type} [Conversations σ] (fault : Option StoreError) (s : σ) :
    (x.withEnrichers enrichers).keep fault s =
      ((x.keep fault s).1, (x.keep fault s).2.withEnrichers enrichers) := by
  cases x with
  | keeping p message reply =>
    exact Prod.ext rfl (deliver_withEnrichers enrichers p reply _)
  | _ => rfl

end Execution

namespace Journey
variable {σ : Type} [Store σ]

def withEnrichers (enrichers : List Enricher) (j : Journey σ) : Journey σ :=
  { j with execution := j.execution.withEnrichers enrichers }

variable (enrichers : List Enricher) (j : Journey σ)

theorem step_withEnrichers (e : Event) :
    (j.withEnrichers enrichers).step e = (j.step e).withEnrichers enrichers := by
  cases e <;> simp [withEnrichers, step, Execution.enriched_withEnrichers,
    Execution.compose_withEnrichers, Execution.generated_withEnrichers,
    Execution.keep_withEnrichers, Execution.delivered_withEnrichers]

theorem run_withEnrichers (es : List Event) :
    (j.withEnrichers enrichers).run es = (j.run es).withEnrichers enrichers := by
  induction es generalizing j with
  | nil => rfl
  | cons e es ih => rw [run_cons, step_withEnrichers, ih, run_cons]

theorem along_withEnrichers {α : Type} {see : Journey σ → Event → Option α}
    (hsee : ∀ (j : Journey σ) e, see (j.withEnrichers enrichers) e = see j e) (es : List Event) :
    along see (j.withEnrichers enrichers) es = along see j es := by
  induction es generalizing j with
  | nil => rfl
  | cons e es ih => rw [along, along, hsee, step_withEnrichers, ih]

theorem writes_withEnrichers (es : List Event) :
    (j.withEnrichers enrichers).writes es = j.writes es := by
  refine along_withEnrichers enrichers j (fun j e => ?_) es
  obtain ⟨store, x, calledOff, returned, sent⟩ := j
  cases e <;> cases x <;> rfl

theorem reports_withEnrichers (es : List Event) :
    (j.withEnrichers enrichers).reports es = j.reports es := by
  refine along_withEnrichers enrichers j (fun j e => ?_) es
  obtain ⟨store, x, calledOff, returned, sent⟩ := j
  cases e <;> cases x <;> rfl

/-! ## Until the engine is asked -/

/-- Every enricher comes to its end, in any order, and perhaps the request is called off in the
meantime. -/
structure Enriches (outcomes : List EnricherOutcome) (es : List Event) : Prop where
  only : ∀ e ∈ es, e = .callOff ∨ ∃ k o, outcomes[k]? = some o ∧ e = .enriched k o
  all : ∀ k o, outcomes[k]? = some o → .enriched k o ∈ es

/-- The enrichers come to their end in a given order. -/
def completions (outcomes : List EnricherOutcome) (order : List Nat) : List Event :=
  order.filterMap fun k => (outcomes[k]?).map (.enriched k)

theorem enriches_completions {outcomes : List EnricherOutcome} {order : List Nat}
    (h : ∀ k < outcomes.length, k ∈ order) : Enriches outcomes (completions outcomes order) where
  only := by
    intro e he
    obtain ⟨k, -, hk⟩ := List.mem_filterMap.mp he
    obtain ⟨o, ho, rfl⟩ := Option.map_eq_some_iff.mp hk
    exact .inr ⟨k, o, ho, rfl⟩
  all := by
    intro k o ho
    obtain ⟨hk, -⟩ := List.getElem?_eq_some_iff.mp ho
    exact List.mem_filterMap.mpr ⟨k, h k hk, by simp [ho]⟩

theorem callOff_notMem_completions (outcomes : List EnricherOutcome) (order : List Nat) :
    .callOff ∉ completions outcomes order := by
  simp [completions]

/-- A slot for each outcome, filled with nothing but what that outcome contributes. -/
structure Slots (outcomes : List EnricherOutcome) (slots : List (Option Enrichment)) : Prop where
  length : slots.length = outcomes.length
  right : ∀ (k : Nat) (e : Enrichment), slots[k]? = some (some e) →
    ∃ o : EnricherOutcome, outcomes[k]? = some o ∧ o.enrichment = e

section
variable {outcomes : List EnricherOutcome} {slots : List (Option Enrichment)} {p : Passage}
  {message : String} {j : Journey σ}

theorem slots_emptySlots {β : Type} {items : List β} (h : items.length = outcomes.length) :
    Slots outcomes (Execution.emptySlots items) := by
  refine ⟨by simpa [Execution.emptySlots] using h, fun k e hk => ?_⟩
  simp [Execution.emptySlots, List.getElem?_replicate] at hk

theorem Slots.fillSlot (h : Slots outcomes slots) {k : Nat} {o : EnricherOutcome}
    (ho : outcomes[k]? = some o) : Slots outcomes (fillSlot slots k o.enrichment) := by
  refine ⟨(length_fillSlot ..).trans h.length, fun i e hi => ?_⟩
  rw [ChatRelay.fillSlot, List.getElem?_modify] at hi
  by_cases hki : k = i
  · subst hki
    rcases hs : slots[k]? with _ | _ | e'
    · simp [hs] at hi
    · exact ⟨o, ho, by simpa [hs] using hi⟩
    · obtain rfl : e' = e := by simpa [hs] using hi
      exact h.right k e' hs
  · exact h.right i e (by simpa [hki] using hi)

/-- When every slot is filled, the slots are what all outcomes contribute. -/
theorem Slots.eq_map (h : Slots outcomes slots)
    (hall : ∀ k < slots.length, ∃ e, slots[k]? = some (some e)) :
    slots = (outcomes.map (·.enrichment)).map some := by
  refine List.ext_getElem? fun k => ?_
  by_cases hk : k < slots.length
  · obtain ⟨e, he⟩ := hall k hk
    obtain ⟨o, ho, rfl⟩ := h.right k e he
    simp [he, ho]
  · rw [List.getElem?_eq_none (by omega), List.getElem?_eq_none (by simpa [h.length] using hk)]

/-- The enrichers fill their slots one by one. -/
theorem run_enriching (hx : j.execution = .enriching p message slots)
    (hslots : Slots outcomes slots) {es : List Event}
    (hes : ∀ e ∈ es, e = .callOff ∨ ∃ k o, outcomes[k]? = some o ∧ e = .enriched k o) :
    ∃ slots' calledOff, j.run es =
        { j with execution := .enriching p message slots', calledOff } ∧
      Slots outcomes slots' ∧
      ∀ k < slots.length, ((∃ o, .enriched k o ∈ es) ∨ ∃ e, slots[k]? = some (some e)) →
        ∃ e, slots'[k]? = some (some e) := by
  induction es generalizing j slots with
  | nil =>
    refine ⟨slots, j.calledOff, ?_, hslots, fun k _ h => h.resolve_left (by simp)⟩
    rw [run_nil, ← hx]
  | cons e es ih =>
    obtain ⟨he, hrest⟩ := List.forall_mem_cons.mp hes
    rcases he with rfl | ⟨k, o, ho, rfl⟩
    · obtain ⟨slots', calledOff, hrun, hslots', hfilled⟩ :=
        ih (j := j.step .callOff) hx hslots hrest
      exact ⟨slots', calledOff, hrun, hslots', fun k hk h => hfilled k hk (by simpa using h)⟩
    · have hstep : (j.step (.enriched k o)).execution =
          .enriching p message (fillSlot slots k o.enrichment) := by
        simp only [step, hx, Execution.enriched]
      obtain ⟨slots', calledOff, hrun, hslots', hfilled⟩ := ih hstep (hslots.fillSlot ho) hrest
      refine ⟨slots', calledOff, hrun, hslots', fun i hi h => ?_⟩
      rw [length_fillSlot] at hfilled
      apply hfilled i hi
      rcases h with ⟨o', hmem⟩ | hold
      · rcases List.mem_cons.mp hmem with heq | hmem
        · obtain ⟨rfl, -⟩ : i = k ∧ o' = o := by simpa using heq
          exact .inr (filled_fillSlot _ hi (.inl rfl))
        · exact .inl ⟨o', hmem⟩
      · exact .inr (filled_fillSlot _ hi (.inr hold))

end

/-- A request has been called off once somebody has done so. -/
theorem calledOff_run (j : Journey σ) (es : List Event) :
    (j.run es).calledOff ↔ j.calledOff ∨ .callOff ∈ es := by
  induction es generalizing j with
  | nil => simp
  | cons e es ih =>
    rw [run_cons, ih]
    cases e <;> simp [step]

/-- Where an execution is when its enrichers are done and it has turned to the engine. -/
def composed (p : Passage) (contributions : List Enrichment) (calledOff : Bool) : Execution :=
  match p.channel.transform p.request with
  | .error cause => .finished (.error cause)
  | .ok message =>
    if calledOff then .finished (.error .cancelled)
    else .generating p message ⟨p.channel.systemPrompt,
      Enrichment.conversation message contributions, p.channel.tools p.request⟩

theorem composed_withEnrichers (enrichers : List Enricher) (p : Passage)
    (contributions : List Enrichment) (calledOff : Bool) :
    composed (p.withEnrichers enrichers) contributions calledOff =
      (composed p contributions calledOff).withEnrichers enrichers := by
  unfold composed
  have htransform : (p.withEnrichers enrichers).channel.transform
      (p.withEnrichers enrichers).request = p.channel.transform p.request := rfl
  rw [htransform]
  split
  · rfl
  · split <;> rfl

theorem run_finished {j : Journey σ} {result : Except PipelineError Completion}
    (hx : j.execution = .finished result) (es : List Event) :
    ∃ calledOff, j.run es = { j with calledOff } := by
  induction es generalizing j with
  | nil => exact ⟨j.calledOff, rfl⟩
  | cons e es ih =>
    rw [run_cons]
    rcases step_of_finished hx e with hsame | hsame
    · rw [hsame]
      exact ih hx
    · rw [hsame]
      exact ih (j := { j with calledOff := true }) hx

/-- Whatever the order in which the enrichers come to their end, what follows depends on those that
succeeded, and on whether the request has been called off. -/
theorem run_enriches {channels : ChannelRegistry} {id : String} {channel : Channel}
    (hget : channels.get id = .ok channel) {outcomes : List EnricherOutcome}
    (hlength : channel.enrichers.length = outcomes.length) (request : Request)
    (overrides : Option (List Output)) (skipsOutputs : Bool) (s : σ) {es : List Event}
    (hes : Enriches outcomes es) :
    ∃ calledOff : Bool, (calledOff ↔ .callOff ∈ es) ∧
      (start channels id request overrides skipsOutputs s).run (es ++ [.compose]) =
        { store := s, calledOff
          execution := composed ⟨channel, request, overrides, skipsOutputs⟩
            (outcomes.filterMap (·.contribution?)) calledOff } := by
  have hoff := calledOff_run (start channels id request overrides skipsOutputs s) es
  cases htransform : channel.transform request with
  | error cause =>
    have hx : (start channels id request overrides skipsOutputs s).execution =
        .finished (.error cause) := by
      simp [start, Execution.begin, hget, Execution.start, htransform]
    obtain ⟨calledOff, hrun⟩ := run_finished hx es
    rw [hrun] at hoff
    refine ⟨calledOff, by simpa [start] using hoff, ?_⟩
    rw [run_append, hrun, run_cons, run_nil, step]
    simp only [hx, Execution.compose, composed, htransform]
    rfl
  | ok message =>
    have hx : (start channels id request overrides skipsOutputs s).execution =
        .enriching ⟨channel, request, overrides, skipsOutputs⟩ message
          (Execution.emptySlots channel.enrichers) := by
      simp [start, Execution.begin, hget, Execution.start, htransform]
    obtain ⟨slots, calledOff, hrun, hslots, hfilled⟩ :=
      run_enriching hx (slots_emptySlots hlength) hes.only
    have hall := hslots.eq_map fun k hk => by
      have hk' : k < outcomes.length := hslots.length ▸ hk
      refine hfilled k (by simpa [Execution.emptySlots, hlength] using hk') (.inl ⟨outcomes[k], ?_⟩)
      exact hes.all k _ (List.getElem?_eq_getElem hk')
    rw [hrun] at hoff
    refine ⟨calledOff, by simpa [start] using hoff, ?_⟩
    rw [run_append, hrun, run_cons, run_nil, step]
    simp only [Execution.compose, hall, filled?_map_some, Passage.prompt_enrichment, composed,
      htransform]
    rfl

/-! ## With and without those that fail -/

/-- Nothing is seen of a journey until the engine is asked. -/
theorem Enriches.along_append {outcomes : List EnricherOutcome} {es : List Event}
    (hes : Enriches outcomes es) {α : Type} {see : Journey σ → Event → Option α}
    (hoff : ∀ j, see j .callOff = none) (henriched : ∀ j k o, see j (.enriched k o) = none)
    (hcompose : ∀ j, see j .compose = none) (j : Journey σ) (later : List Event) :
    along see j (es ++ [.compose] ++ later) = along see (j.run (es ++ [.compose])) later := by
  have hquiet : ∀ e ∈ es ++ [.compose], ∀ j, see j e = none := by
    intro e he j
    rcases List.mem_append.mp he with he | he
    · rcases hes.only e he with rfl | ⟨k, o, -, rfl⟩
      · exact hoff j
      · exact henriched j k o
    · obtain rfl := List.mem_singleton.mp he
      exact hcompose j
  generalize es ++ [.compose] = quiet at hquiet
  induction quiet generalizing j with
  | nil => rfl
  | cons e quiet ih =>
    obtain ⟨he, hrest⟩ := List.forall_mem_cons.mp hquiet
    rw [List.cons_append, along, he j, ih _ hrest]
    rfl

theorem Enriches.writes_append {outcomes : List EnricherOutcome} {es : List Event}
    (hes : Enriches outcomes es) (j : Journey σ) (later : List Event) :
    j.writes (es ++ [.compose] ++ later) = (j.run (es ++ [.compose])).writes later :=
  hes.along_append (fun _ => rfl) (fun _ _ _ => rfl) (fun _ => rfl) j later

theorem Enriches.reports_append {outcomes : List EnricherOutcome} {es : List Event}
    (hes : Enriches outcomes es) (j : Journey σ) (later : List Event) :
    j.reports (es ++ [.compose] ++ later) = (j.run (es ++ [.compose])).reports later :=
  hes.along_append (fun _ => rfl) (fun _ _ _ => rfl) (fun _ => rfl) j later

section
variable {p : Passage} {message : String} {s : σ} {j : Journey σ} {ws : List Write}

theorem Released.kept {reply : Provider.Reply} (h : Released p message s reply j ws) :
    ∀ w ∈ ws, w.user = p.request.user ∧
      ∃ reply, j.returned = some (.ok reply) ∧ w.turns = .user message :: reply.turns := by
  obtain ⟨hreturned, ⟨fault, rfl⟩, -, -⟩ := h
  intro w hw
  obtain rfl := List.mem_singleton.mp hw
  exact ⟨rfl, reply, hreturned, rfl⟩

/-- What is added to a conversation is the message as it was transformed, without what enrichers
contributed, and the turns of the reply. -/
theorem Effects.kept {rs : List Report} (h : Effects p message s j ws rs) :
    ∀ w ∈ ws, w.user = p.request.user ∧
      ∃ reply, j.returned = some (.ok reply) ∧ w.turns = .user message :: reply.turns := by
  rw [Effects] at h
  split at h
  · simp [h.2.2.writes]
  · simp [h.2.2.writes]
  · simp [h.2.2.2.writes]
  · obtain ⟨rfl, hreleased, -⟩ := h
    exact hreleased.kept
  · simp [h.writes]
  · obtain ⟨reply, successes, -, hreleased, -⟩ := h
    exact hreleased.kept

end

theorem writes_start (channels : ChannelRegistry) (id : String) (request : Request)
    (overrides : Option (List Output)) (skipsOutputs : Bool) (s : σ) {channel : Channel}
    (hget : channels.get id = .ok channel) (es : List Event) :
    let j := start channels id request overrides skipsOutputs s
    ∀ w ∈ j.writes es, w.user = request.user ∧ ∃ message reply,
      channel.transform request = .ok message ∧ (j.run es).returned = some (.ok reply) ∧
        w.turns = .user message :: reply.turns := by
  intro j w hw
  rcases effects_start channels id request overrides skipsOutputs s with
    ⟨cause, hx⟩ | ⟨channel', message, hget', htransform, heffects⟩
  · rw [(untouched_of_finished hx rfl es).writes] at hw
    cases hw
  · obtain rfl : channel = channel' := Except.ok.inj (hget.symm.trans hget')
    obtain ⟨huser, reply, hreturned, hturns⟩ := (heffects.run es).kept w hw
    exact ⟨huser, message, reply, htransform, hreturned, hturns⟩

/-- An execution on a channel some of whose enrichers fail or panic is the same as on the channel
without them, in whatever order the enrichers come to their end: the engine is asked the same, which
is the message with what the others contributed; and with the same behaviour of the engine, the
store and the outputs, the same is kept, sent, reported and returned. What is kept is the message
without anything contributed. -/
theorem failing_enrichers_absent {channels channels' : ChannelRegistry} {id : String}
    {channel : Channel} {assigned : List (Enricher × EnricherOutcome)}
    (hassigned : channel.enrichers = assigned.map (·.1))
    (hget : channels.get id = .ok channel)
    (hget' : channels'.get id =
      .ok { channel with enrichers := (assigned.filter (·.2.succeeded)).map (·.1) })
    (request : Request) (overrides : Option (List Output)) (skipsOutputs : Bool) (s : σ)
    {es es' : List Event} (hes : Enriches (assigned.map (·.2)) es)
    (hes' : Enriches ((assigned.filter (·.2.succeeded)).map (·.2)) es')
    (hoff : .callOff ∈ es ↔ .callOff ∈ es') (later : Option Prompt → List Event) :
    let j := start channels id request overrides skipsOutputs s
    let j' := start channels' id request overrides skipsOutputs s
    let prompt := (j.run (es ++ [.compose])).execution.prompt?
    let prompt' := (j'.run (es' ++ [.compose])).execution.prompt?
    let all := es ++ [.compose] ++ later prompt
    let all' := es' ++ [.compose] ++ later prompt'
    prompt = prompt' ∧
      (∀ message, channel.transform request = .ok message → .callOff ∉ es →
        prompt = some ⟨channel.systemPrompt,
          Enrichment.conversation message (assigned.filterMap (·.2.contribution?)),
          channel.tools request⟩) ∧
      (∀ w ∈ j.writes all, w.user = request.user ∧ ∃ message reply,
        channel.transform request = .ok message ∧ (j.run all).returned = some (.ok reply) ∧
          w.turns = .user message :: reply.turns) ∧
      j.writes all = j'.writes all' ∧ (j.run all).store = (j'.run all').store ∧
      (j.run all).sent = (j'.run all').sent ∧ j.reports all = j'.reports all' ∧
      (j.run all).execution.result? = (j'.run all').execution.result? := by
  intro j j' prompt prompt' all all'
  obtain ⟨calledOff, hcalledOff, hrun⟩ := run_enriches hget (by simp [hassigned]) request
    overrides skipsOutputs s hes
  obtain ⟨calledOff', hcalledOff', hrun'⟩ := run_enriches hget' (by simp) request
    overrides skipsOutputs s hes'
  obtain rfl : calledOff = calledOff' :=
    Bool.eq_iff_iff.mpr (hcalledOff.trans (hoff.trans hcalledOff'.symm))
  -- when the engine is asked, the two executions differ in their enrichers alone
  have hsame : j'.run (es' ++ [.compose]) = (j.run (es ++ [.compose])).withEnrichers
      ((assigned.filter (·.2.succeeded)).map (·.1)) := by
    rw [hrun, hrun', contributions_filter, withEnrichers, ← composed_withEnrichers]
    rfl
  have hprompt : prompt = prompt' := by
    simp only [prompt, prompt', hsame, withEnrichers, Execution.prompt?_withEnrichers]
  have hrest : j'.run all' = (j.run all).withEnrichers
      ((assigned.filter (·.2.succeeded)).map (·.1)) := by
    simp only [all, all', run_append _ (_ ++ _), hsame, run_withEnrichers, hprompt]
  have hwrites : j.writes all = j'.writes all' := by
    simp only [all, all', hes.writes_append, hes'.writes_append, hsame, writes_withEnrichers,
      hprompt]
  have hreports : j.reports all = j'.reports all' := by
    simp only [all, all', hes.reports_append, hes'.reports_append, hsame, reports_withEnrichers,
      hprompt]
  refine ⟨hprompt, fun message htransform hquiet => ?_,
    writes_start channels id request overrides skipsOutputs s hget all, hwrites, ?_, ?_, hreports,
    ?_⟩
  · obtain rfl : calledOff = false := by simpa [hquiet] using hcalledOff
    simp [prompt, j, hrun, composed, htransform, Execution.prompt?, List.filterMap_map]
  all_goals simp [hrest, withEnrichers]

/-- Five enrichers, of which one fails, one panics, and one contributes a blank text. -/
def unevenEnrichers : List (Enricher × EnricherOutcome) :=
  [.failed (.enrich "weather" "offline"), .contributed (.ofContext "Notes: none"),
    .panicked "overflow", .contributed ⟨some " ", some [.user "Hi", .assistant "Hello"]⟩,
    .contributed (.ofContext "Today is Monday")].map fun o =>
      ({ name := "enricher", enrich := fun _ _ => o }, o)

/-- A channel with these enrichers, and the same channel with those that succeed. -/
def unevenChannel (assigned : List (Enricher × EnricherOutcome)) : Channel :=
  { id := "assistant", systemPrompt := "Be brief.", enrichers := assigned.map (·.1)
    outputs := unevenOutputs }

/-- An execution on such a channel from the moment the engine replies. -/
def afterwards (_ : Option Prompt) : List Event :=
  [.generated (.ok ⟨"reply", [.assistant "reply"]⟩), .keep none, .delivered 1 false,
    .delivered 0 true]

theorem unevenChannel_isolated :
    let steady := unevenEnrichers.filter (·.2.succeeded)
    let j := start [unevenChannel unevenEnrichers] "assistant"
      ⟨"hello", "u", "chat", none, none⟩ none false ({} : Memory)
    let j' := start [unevenChannel steady] "assistant"
      ⟨"hello", "u", "chat", none, none⟩ none false ({} : Memory)
    let es := completions (unevenEnrichers.map (·.2)) [2, 0, 4, 3, 1]
    let es' := completions (steady.map (·.2)) [1, 2, 0]
    ((j.run (es ++ [.compose])).execution.prompt?.map (·.turns)) =
        some [.user "Hi", .assistant "Hello",
          .user "hello\n\nNotes: none\n\nToday is Monday"] ∧
      (j.run (es ++ [.compose] ++ afterwards none)).execution.result? =
        some (.ok ⟨"reply", [.assistant "reply"], false⟩) ∧
      (j'.run (es' ++ [.compose] ++ afterwards none)).execution.result? =
        some (.ok ⟨"reply", [.assistant "reply"], false⟩) := by
  intro steady j j' es es'
  have hassigned : (unevenChannel unevenEnrichers).enrichers = unevenEnrichers.map (·.1) := rfl
  have hget : ChannelRegistry.get [unevenChannel unevenEnrichers] "assistant" =
    .ok (unevenChannel unevenEnrichers) := rfl
  have hget' : ChannelRegistry.get [unevenChannel steady] "assistant" =
    .ok { unevenChannel unevenEnrichers with enrichers := steady.map (·.1) } := rfl
  have hes : Enriches (unevenEnrichers.map (·.2)) es := enriches_completions (by decide)
  have hes' : Enriches (steady.map (·.2)) es' := enriches_completions (by decide)
  have hquiet : .callOff ∉ es := callOff_notMem_completions _ _
  have hquiet' : .callOff ∉ es' := callOff_notMem_completions _ _
  obtain ⟨-, hprompt, -, -, -, -, -, hresult⟩ :=
    failing_enrichers_absent hassigned hget hget' ⟨"hello", "u", "chat", none, none⟩ none false
      ({} : Memory) hes hes' (iff_of_false hquiet hquiet') afterwards
  have hrun : (j.run (es ++ [.compose] ++ afterwards none)).execution.result? =
      some (.ok ⟨"reply", [.assistant "reply"], false⟩) := rfl
  refine ⟨?_, hrun, ?_⟩
  · rw [hprompt "hello" rfl hquiet]
    rfl
  · rw [← hrun]
    exact hresult.symm

end Journey
end ChatRelay
