import ChatRelay.Proofs.Relay.Firings
import ChatRelay.Proofs.Relay.Occurrences

/-!
# Runs and their firings, whatever fails

Runs stay with their firings as long as they are left to the timer queue: nobody else has handlers
run, and whoever schedules a task schedules that of a ticket. Stores may fail at every access, and
messages may be put back on behalf of others.
-/

namespace ChatRelay

def Timer.Task.isOfTicket (task : Timer.Task) : Bool :=
  match Ticket.ofPayload task.payload with
  | .ok ticket => task = ticket.task task.delayMillis
  | .error _ => false

theorem Timer.Task.eq_of_isOfTicket {task : Timer.Task} (h : task.isOfTicket) :
    ∃ (ticket : Ticket) (delay : Nat), task = ticket.task delay := by
  unfold isOfTicket at h
  split at h
  · next ticket _ => exact ⟨ticket, task.delayMillis, of_decide_eq_true h⟩
  · cases h

/-- An event makes no other run of a run, and leaves one that is through as it is. -/
theorem BatchRun.Turns.continues {σ : Type} [Store σ] [LawfulStore σ] {setup : Relay.Setup}
    {s s' : σ} {r r' : BatchRun} {e : Relay.RunEvent} (h : r.Turns setup s e s' r') :
    r.Continues r' where
  ticket := h.frame.1
  firing := h.frame.2.1
  attempt := h.frame.2.2
  through {o} ho := by cases h <;> simp_all [result?]

namespace Relay
open Timer

/-- Whether an event leaves runs to the timer queue. -/
def Event.isOwn : Event → Bool
  | .handle _ _ => false
  | .timer (.schedule task) => task.isOfTicket
  | _ => true

/-- Whether the task that is scheduled, if one is, is that of a ticket. -/
def Event.isPosted : Event → Bool
  | .timer (.schedule task) => task.isOfTicket
  | _ => true

theorem Event.isPosted_of_isOwn {e : Event} (he : e.isOwn) : e.isPosted := by
  unfold isPosted
  split
  · exact he
  · rfl

/-! ## The queue -/

def arming? (setup : Setup) (ticket : Ticket) : Option Queue.Event :=
  if setup.scheduler = .timers then some (.schedule (ticket.task setup.debounceMillis)) else none

def arms? (relay : Relay) : Event → Option Ticket
  | .arm i => (relay.deposits[i]?).bind fun d => if d.phase = .arming then some d.ticket else none
  | .run i .arm => (relay.runs[i]?).bind fun r => if r.isArming then some r.ticket else none
  | _ => none

def queueEvent? (setup : Setup) (relay : Relay) : Event → Option Queue.Event
  | .timer (.acquire g) =>
    if (relay.queue.phase? g).any (·.isRunning) then none else some (.acquire g)
  | .timer (.finish g o) => if relay.isBatch g then none else some (.finish g o)
  | .timer e => some e
  | .return i => (relay.runs[i]?).bind fun r => r.firing.bind fun g => r.result?.map (.finish g)
  | e => (relay.arms? e).bind (arming? setup)

section
variable {σ : Type} [Store σ] (setup : Setup) (s : σ) {relay : Relay}

theorem queue_schedule (ticket : Ticket) :
    (relay.schedule setup (ticket.task setup.debounceMillis)).1.queue =
      (arming? setup ticket).elim relay.queue relay.queue.step := by
  unfold schedule arming?
  split <;> simp_all [Queue.step]

theorem queue_startRun (g : Nat) : (relay.startRun g).queue = relay.queue := by
  unfold startRun
  split
  · split <;> rfl
  · rfl

theorem queue_timerStep (e : Queue.Event) : (relay.timerStep e).queue =
    (relay.queueEvent? setup (.timer e)).elim relay.queue relay.queue.step := by
  cases e with
  | acquire g =>
    simp only [timerStep, queueEvent?]
    split
    · rfl
    · split
      · exact queue_startRun g
      · rfl
  | finish g o =>
    simp only [timerStep, queueEvent?]
    split <;> rfl
  | _ => rfl

theorem queue_runStep (i : Nat) (e : RunEvent) : (relay.runStep setup s i e).2.queue =
    (relay.queueEvent? setup (.run i e)).elim relay.queue relay.queue.step := by
  cases hr : relay.runs[i]? with
  | none =>
    rw [runStep_of_none setup s hr]
    cases e <;> simp [queueEvent?, arms?, hr]
  | some r =>
    cases e with
    | access fault => simp only [runStep, hr]; rfl
    | lease =>
      simp only [runStep, leaseRun, hr]
      split <;> rfl
    | release =>
      simp only [runStep, releaseRun, hr]
      split <;> rfl
    | arm =>
      cases hp : r.phase with
      | requeuing batch deposit =>
        have harm : r.isArming = decide (deposit.phase = .arming) := by simp [BatchRun.isArming, hp]
        simp only [runStep, armRun, hr, hp, queueEvent?, arms?, Option.bind_some, harm]
        by_cases hd : deposit.phase = .arming
        · simpa [hd, modifyRun] using queue_schedule setup r.ticket
        · simp [hd]
      | _ => simp [runStep, armRun, hr, hp, queueEvent?, arms?, BatchRun.isArming]
    | _ => rfl

/-- What becomes of the queue. -/
theorem queue_step (e : Event) : (relay.step setup s e).2.queue =
    (relay.queueEvent? setup e).elim relay.queue relay.queue.step := by
  cases e with
  | push i fault =>
    simp only [step]
    split <;> rfl
  | arm i =>
    simp only [step, armDeposit, queueEvent?, arms?]
    cases relay.deposits[i]? with
    | none => rfl
    | some d =>
      by_cases hd : d.phase = .arming
      · simpa [hd] using queue_schedule setup d.ticket
      · simp [hd]
  | timer e => exact queue_timerStep setup e
  | run i e => exact queue_runStep setup s i e
  | «return» i =>
    simp only [step, returnRun, queueEvent?]
    cases relay.runs[i]? with
    | none => rfl
    | some r => cases hg : r.firing <;> cases ho : r.result? <;> simp [hg, ho, Queue.step]
  | _ => rfl

theorem eq_of_arming? {o : Option Ticket} {qe : Queue.Event}
    (h : o.bind (arming? setup) = some qe) :
    ∃ ticket, o = some ticket ∧ qe = .schedule (ticket.task setup.debounceMillis) := by
  obtain ⟨ticket, ho, h⟩ := Option.bind_eq_some_iff.mp h
  unfold arming? at h
  split at h
  · exact ⟨ticket, ho, (Option.some.inj h).symm⟩
  · cases h

/-- The tasks that are scheduled are those of tickets. -/
theorem scheduled_of_queueEvent? {e : Event} (he : e.isPosted) {task : Task}
    (h : relay.queueEvent? setup e = some (.schedule task)) :
    ∃ (ticket : Ticket) (delay : Nat), task = ticket.task delay := by
  have harmed : ∀ o : Option Ticket, o.bind (arming? setup) = some (.schedule task) →
      ∃ (ticket : Ticket) (delay : Nat), task = ticket.task delay := by
    intro o h
    obtain ⟨ticket, -, heq⟩ := eq_of_arming? setup h
    exact ⟨ticket, _, Queue.Event.schedule.inj heq⟩
  cases e with
  | timer e =>
    cases e with
    | schedule own =>
      obtain rfl : own = task := Queue.Event.schedule.inj (Option.some.inj h)
      exact own.eq_of_isOfTicket he
    | acquire g =>
      simp only [queueEvent?] at h
      split at h <;> cases h
    | finish g o =>
      simp only [queueEvent?] at h
      split at h <;> cases h
    | _ => cases h
  | «return» i =>
    obtain ⟨r, -, h⟩ := Option.bind_eq_some_iff.mp h
    obtain ⟨g, -, h⟩ := Option.bind_eq_some_iff.mp h
    obtain ⟨o, -, h⟩ := Option.map_eq_some_iff.mp h
    cases h
  | arm _ => exact harmed _ h
  | run _ _ => exact harmed _ h
  | _ => cases h

/-- The handler of a run reports what the run has come to. -/
theorem finished_of_queueEvent? {e : Event} {g : Nat} {o : Except RelayError Unit}
    (h : relay.queueEvent? setup e = some (.finish g o)) (hbatch : relay.isBatch g) :
    ∃ (i : Nat) (r : BatchRun), relay.runs[i]? = some r ∧ r.firing = some g ∧
      r.result? = some o := by
  have harmed : ∀ t : Option Ticket, t.bind (arming? setup) ≠ some (.finish g o) := by
    intro t h
    obtain ⟨ticket, -, heq⟩ := eq_of_arming? setup h
    cases heq
  cases e with
  | timer e =>
    cases e with
    | acquire g =>
      simp only [queueEvent?] at h
      split at h <;> cases h
    | finish g' o' =>
      simp only [queueEvent?] at h
      split at h
      · cases h
      · next hnot =>
        obtain ⟨rfl, -⟩ := Queue.Event.finish.inj (Option.some.inj h)
        exact absurd hbatch hnot
    | _ => cases h
  | «return» i =>
    obtain ⟨r, hr, h⟩ := Option.bind_eq_some_iff.mp h
    obtain ⟨own, hg, h⟩ := Option.bind_eq_some_iff.mp h
    obtain ⟨result, hres, h⟩ := Option.map_eq_some_iff.mp h
    obtain ⟨rfl, rfl⟩ := Queue.Event.finish.inj h
    exact ⟨i, r, hr, hg, hres⟩
  | arm _ => exact absurd h (harmed _)
  | run _ _ => exact absurd h (harmed _)
  | _ => cases h

theorem sound_step (hq : relay.queue.Sound) (e : Event) : (relay.step setup s e).2.queue.Sound := by
  rw [queue_step]
  cases relay.queueEvent? setup e with
  | none => exact hq
  | some qe => exact hq.step qe

theorem combines_schedule (task : Task) :
    (relay.schedule setup task).1.combines = relay.combines := by
  unfold schedule
  split <;> rfl

theorem combines_step (e : Event) : (relay.step setup s e).2.combines = relay.combines := by
  cases e with
  | push i fault =>
    simp only [step]
    split <;> rfl
  | arm i =>
    simp only [step, armDeposit]
    repeat' split
    all_goals first | rfl | exact combines_schedule setup _
  | timer e =>
    cases e with
    | acquire g =>
      simp only [step, timerStep, startRun]
      repeat' split
      all_goals rfl
    | finish g o =>
      simp only [step, timerStep]
      split <;> rfl
    | _ => rfl
  | run i e =>
    cases e with
    | access fault =>
      simp only [step, runStep]
      split <;> rfl
    | lease =>
      simp only [step, runStep, leaseRun]
      repeat' split
      all_goals rfl
    | release =>
      simp only [step, runStep, releaseRun]
      repeat' split
      all_goals rfl
    | arm =>
      simp only [step, runStep, armRun]
      repeat' split
      all_goals first | rfl | exact combines_schedule setup _
    | _ => rfl
  | «return» i =>
    simp only [step, returnRun]
    repeat' split
    all_goals rfl
  | _ => rfl

theorem Ticketed.step (ht : relay.Ticketed) {e : Event} (he : e.isPosted) :
    (relay.step setup s e).2.Ticketed := by
  refine ⟨(combines_step setup s e).symm ▸ ht.combines, fun {g f} hf => ?_⟩
  rw [queue_step] at hf
  cases hqe : relay.queueEvent? setup e with
  | none =>
    rw [hqe] at hf
    exact ht.tasks hf
  | some qe =>
    rw [hqe] at hf
    have hch := Queue.changes_step relay.queue qe
    cases hold : relay.queue.firing? g with
    | none =>
      cases hch.arises hold hf with
      | scheduled hs => exact scheduled_of_queueEvent? setup he hqe
      | retried jitter hk htask hs => exact htask ▸ ht.tasks hk
    | some f' =>
      obtain ⟨p, hp, -⟩ := hch.follows hold
      obtain rfl := Option.some.inj (hp.symm.trans hf)
      obtain ⟨ticket, delay, htask⟩ := ht.tasks hold
      exact ⟨ticket, delay, htask⟩

/-! ## The runs -/

/-- A run that starts does so because its firing has got its lock. -/
theorem starts_of_acquire (ht : relay.Ticketed) {g i : Nat} {r' : BatchRun}
    (hr : relay.runs[i]? = none) (hr' : (relay.timerStep (.acquire g)).runs[i]? = some r') :
    i = relay.runs.length ∧ Starts relay (relay.timerStep (.acquire g)) r' := by
  rcases timerStep_acquire ht g with hsame | ⟨f, lock, ticket, delay, hf, hp, htask, hl, -, hnext⟩
  · rw [hsame, hr] at hr'
    cases hr'
  · rw [hnext] at hr' ⊢
    have hlen := (List.getElem?_eq_some_iff.mp hr').1
    have hnone := List.getElem?_eq_none_iff.mp hr
    simp only [List.length_append, List.length_singleton] at hlen
    obtain rfl : i = relay.runs.length := by omega
    rw [List.getElem?_concat_length] at hr'
    exact ⟨rfl, g, f, lock, ticket, delay, hf, hp, htask, hl, rfl, (Option.some.inj hr').symm⟩

variable [LawfulStore σ]

theorem upkeep_step (ht : relay.Ticketed) (hst : relay.Steady) {e : Event} (he : e.isOwn) :
    Upkeep relay (relay.step setup s e).2 where
  queue := by
    rw [queue_step]
    cases hqe : relay.queueEvent? setup e with
    | none => exact ⟨.wait 0, .inl rfl, by simp⟩
    | some qe =>
      refine ⟨qe, .inr rfl, fun g o heq hbatch => ?_⟩
      exact finished_of_queueEvent? setup (heq ▸ hqe) hbatch
  runs {i r'} hr' := by
    cases onward hr' with
    | turned c he hr hc hs heq =>
      exact .inl ⟨_, hr, heq ▸ (BatchRun.turns_turn c (hst hr) _).continues⟩
    | stayed he hr => exact .inl ⟨r', hr, .refl r'⟩
    | started payload attempt firing hne hr heq =>
      refine .inr ?_
      rcases step_runs setup s hne with hruns | ⟨hstarts, -⟩
      · rw [hruns, hr] at hr'
        cases hr'
      · cases e with
        | handle payload attempt => cases he
        | timer e =>
          cases e with
          | acquire g => exact starts_of_acquire ht hr hr'
          | _ => cases hstarts
        | _ => cases hstarts

end

/-! ## However the relay comes about -/

section
variable {σ : Type} [Store σ] {setup : Setup} {s₀ s : σ} {policy : RetryPolicy} {h : History}
  {relay : Relay}

theorem Occurs.ticketed (ho : Occurs setup s₀ policy h s relay)
    (hposted : ∀ t ∈ h, t.event.isPosted) : relay.Ticketed := by
  induction ho with
  | fresh => exact ⟨rfl, by simp [Relay.fresh, Queue.firing?]⟩
  | step e ho ih =>
    obtain ⟨he, hposted⟩ := List.forall_mem_cons.mp hposted
    exact (ih hposted).step setup _ he

theorem Occurs.queue_sound (ho : Occurs setup s₀ policy h s relay) : relay.queue.Sound := by
  induction ho with
  | fresh => exact Queue.sound_of_no_firings rfl rfl
  | step e ho ih => exact sound_step setup _ ih e

theorem Occurs.matched [LawfulStore σ] (ho : Occurs setup s₀ policy h s relay)
    (hown : ∀ t ∈ h, t.event.isOwn) : relay.Matched := by
  induction ho with
  | fresh => exact ⟨by simp [Relay.fresh], by simp [Relay.fresh]⟩
  | step e ho ih =>
    obtain ⟨he, hown⟩ := List.forall_mem_cons.mp hown
    have hposted := fun t ht => Event.isPosted_of_isOwn (hown t ht)
    exact (ih hown).of_upkeep (upkeep_step setup _ (ho.ticketed hposted) ho.steady he)

end
end Relay
end ChatRelay
