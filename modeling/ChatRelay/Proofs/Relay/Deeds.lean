import ChatRelay.Proofs.Batch.Progress
import ChatRelay.Proofs.Timer.Soundness
import ChatRelay.Relay.Basic

/-!
# What an event does to the relay

`Relay.Happens` lists the changes that an event can bring about, as long as lists do not fail and
nobody else schedules tasks or puts messages back. Each bears the deed that others take notice of: a
message that is accepted or put back, a task that is armed.
-/

namespace ChatRelay.Relay
open Timer

theorem modify_of_getElem? {α : Type} {l : List α} {i : Nat} {a : α} (h : l[i]? = some a)
    (f : α → α) : l.modify i f = l.set i (f a) := by
  obtain ⟨hi, rfl⟩ := List.getElem?_eq_some_iff.mp h
  refine List.ext_getElem? fun k => ?_
  rw [List.getElem?_modify, List.getElem?_set]
  by_cases hk : i = k
  · subst hk
    simp [hi]
  · simp [hk]

theorem set_of_getElem? {α : Type} {l : List α} {i : Nat} {a : α} (h : l[i]? = some a) :
    l.set i a = l := by
  obtain ⟨hi, rfl⟩ := List.getElem?_eq_some_iff.mp h
  exact List.set_getElem_self hi

theorem modify_of_getElem?_eq_none {α : Type} {l : List α} {i : Nat} (h : l[i]? = none)
    (f : α → α) : l.modify i f = l := by
  refine List.ext_getElem? fun k => ?_
  rw [List.getElem?_modify]
  by_cases hk : i = k
  · subst hk
    simp [h]
  · simp [hk]

def deed (relay : Relay) : Event → Deed
  | .push i _ =>
    match relay.deposits[i]? with
    | some d => (d.phase.left.head?.map (.accepted d.ticket.user)).getD .none
    | none => .none
  | .arm i =>
    match relay.deposits[i]? with
    | some d => if d.phase = .arming then .armed d.ticket else .none
    | none => .none
  | .run i (.access _) =>
    match relay.runs[i]? with
    | some r => r.accessDeed
    | none => .none
  | .run i .arm =>
    match relay.runs[i]? with
    | some r => if r.isArming then .rearmed r.ticket else .none
    | none => .none
  | .timer (.settle g _) =>
    match relay.queue.retried? g with
    | some task => .retried task
    | none => .none
  | _ => .none

/-- Events of a relay whose lists do not fail, to which tasks and messages come by accepted messages
only. Times are those that fit their words. -/
def admits (relay : Relay) : Event → Bool
  | .enqueue _ _ _ enqueuedAt => Json.IsInt64 enqueuedAt
  | .push _ fault => fault.isNone
  | .run i (.access fault) => fault.isNone || !(relay.runs[i]?.any (·.usesList))
  | .requeue _ _ | .handle _ _ | .timer (.schedule _) => false
  | _ => true

/-- What goes without saying for a relay: its firings are those of tickets, and whenever a handler
is at work there is a run. -/
structure Tended (relay : Relay) : Prop where
  combines : relay.combines
  handlers : relay.queue.handlers = [Ticket.taskKey]
  tasks : ∀ {g : Nat} {f : Firing}, relay.queue.firing? g = some f →
    ∃ t delay, f.task = Ticket.task t delay
  orderly : ∀ {i : Nat} {r : BatchRun}, relay.runs[i]? = some r → r.Orderly
  manned : ∀ {g : Nat} {f : Firing}, relay.queue.firing? g = some f → f.phase.isRunning →
    relay.isBatch g

/-- The part of this that does not depend on what fails. -/
structure Ticketed (relay : Relay) : Prop where
  combines : relay.combines
  tasks : ∀ {g : Nat} {f : Firing}, relay.queue.firing? g = some f →
    ∃ t delay, f.task = Ticket.task t delay

theorem Tended.ticketed {relay : Relay} (ht : relay.Tended) : relay.Ticketed :=
  ⟨ht.combines, ht.tasks⟩

variable {σ : Type} [Store σ] [LawfulStore σ]

inductive Happens (setup : Setup) (s : σ) (relay : Relay) : Deed → σ → Relay → Prop
  | idle : Happens setup s relay .none s relay
  | enqueued (ticket : Ticket) (m : Pending) (hm : m.IsStorable) :
      Happens setup s relay .none s
        { relay with deposits := relay.deposits ++ [.start ticket [m]] }
  | accepted {i : Nat} {d : Deposit} {m : Pending} {left : List Pending}
      (hd : relay.deposits[i]? = some d) (hp : d.phase = .pushing (m :: left)) :
      Happens setup s relay (.accepted d.ticket.user m) (Pending.push s d.ticket.user m)
        { relay with deposits := relay.deposits.set i { d with phase := .ofLeft left } }
  | armed {i : Nat} {d : Deposit} {queue : Queue} {handedOver : List Task}
      {outcome : Except TaskError Unit} (hd : relay.deposits[i]? = some d) (hp : d.phase = .arming)
      (hq : relay.schedule setup (d.ticket.task setup.debounceMillis) =
        ({ relay with queue, handedOver }, outcome)) :
      Happens setup s relay (.armed d.ticket) s
        { relay with queue, handedOver, deposits := relay.deposits.set i (d.armed outcome) }
  | leases (leases : Leases) : Happens setup s relay .none s { relay with leases }
  | timer (e : Queue.Event) (hs : ∀ task, e ≠ .schedule task) (ha : ∀ g, e ≠ .acquire g)
      (hf : ∀ g o, e ≠ .finish g o)
      (hr : ∀ g jitter, e = .settle g jitter → relay.queue.retried? g = none) :
      Happens setup s relay .none s { relay with queue := relay.queue.step e }
  | retried {g : Nat} {task : Task} (jitter : Rat) (hr : relay.queue.retried? g = some task) :
      Happens setup s relay (.retried task) s { relay with queue := relay.queue.settle g jitter }
  | started {g : Nat} {f : Firing} {lock : Nat} {ticket : Ticket} {delay : Nat}
      (hf : relay.queue.firing? g = some f) (hp : f.phase = .waiting lock)
      (ht : f.task = ticket.task delay) (hl : relay.queue.isLocked lock = false) :
      Happens setup s relay .none s
        { relay with
          queue := relay.queue.acquire g
          runs := relay.runs ++
            [{ firing := some g, attempt := relay.queue.attempt f, ticket, phase := .draining }] }
  | ran {i : Nat} {r r' : BatchRun} {d : Deed} {s' : σ} (leases : Leases)
      (hr : relay.runs[i]? = some r) (h : r.Progress s d s' r') (hd : ∀ t, d ≠ .rearmed t) :
      Happens setup s relay d s' { relay with leases, runs := relay.runs.set i r' }
  | rearmed {i : Nat} {r : BatchRun} {batch : List Pending} {deposit : Deposit} {queue : Queue}
      {handedOver : List Task} {outcome : Except TaskError Unit} (hr : relay.runs[i]? = some r)
      (hp : r.phase = .requeuing batch deposit) (hd : deposit.phase = .arming)
      (hq : relay.schedule setup (r.ticket.task setup.debounceMillis) =
        ({ relay with queue, handedOver }, outcome)) :
      Happens setup s relay (.rearmed r.ticket) s
        { relay with
          queue, handedOver
          runs := relay.runs.set i
            { r with phase := .finished (.superseded batch (outcome.mapError .task)) } }
  | returned {i : Nat} {r : BatchRun} {g : Nat} {result : Except RelayError Unit}
      (hr : relay.runs[i]? = some r) (hg : r.firing = some g) (hres : r.result? = some result) :
      Happens setup s relay .none s { relay with queue := relay.queue.finish g result }

/-- The queue and the tasks handed over are all that arming changes. -/
theorem schedule_frame (setup : Setup) (relay : Relay) (task : Task) :
    ∃ queue handedOver outcome,
      relay.schedule setup task = ({ relay with queue, handedOver }, outcome) ∧
      (queue = relay.queue ∨ queue = relay.queue.step (.schedule task)) := by
  unfold schedule
  split
  · exact ⟨_, _, _, rfl, .inr rfl⟩
  · exact ⟨_, _, _, rfl, .inl rfl⟩
  · exact ⟨_, _, _, rfl, .inl rfl⟩

section
variable (setup : Setup) (s : σ) {relay : Relay}

theorem happens_push (i : Nat) :
    Happens setup s relay (relay.deed (.push i none)) (relay.step setup s (.push i none)).1
      (relay.step setup s (.push i none)).2 := by
  simp only [deed, step]
  cases hd : relay.deposits[i]? with
  | none => exact .idle
  | some d =>
    cases hp : d.phase with
    | pushing left =>
      cases left with
      | nil =>
        simpa [Deposit.push, hp, Deposit.Phase.left, set_of_getElem? hd] using Happens.idle
      | cons m left =>
        simpa [Deposit.push, hp, Deposit.Phase.left] using Happens.accepted hd hp
    | arming => simpa [Deposit.push, hp, Deposit.Phase.left, set_of_getElem? hd] using Happens.idle
    | finished result =>
      simpa [Deposit.push, hp, Deposit.Phase.left, set_of_getElem? hd] using Happens.idle

theorem happens_arm (i : Nat) :
    Happens setup s relay (relay.deed (.arm i)) s (relay.armDeposit setup i) := by
  simp only [deed, armDeposit]
  cases hd : relay.deposits[i]? with
  | none => exact .idle
  | some d =>
    dsimp only
    split
    · next hp =>
      obtain ⟨queue, handedOver, outcome, hq, -⟩ :=
        schedule_frame setup relay (d.ticket.task setup.debounceMillis)
      rw [hq]
      dsimp only
      rw [modify_of_getElem? hd]
      exact .armed hd hp hq
    · exact .idle

/-- A firing gets its lock, and a run starts for its ticket; or nothing comes of it. -/
theorem timerStep_acquire (ht : relay.Ticketed) (g : Nat) :
    relay.timerStep (.acquire g) = relay ∨
      ∃ f lock ticket delay, relay.queue.firing? g = some f ∧ f.phase = .waiting lock ∧
        f.task = Ticket.task ticket delay ∧ relay.queue.isLocked lock = false ∧
        relay.queue.acquire g = relay.queue.setPhase g (.running lock) ∧
        relay.timerStep (.acquire g) =
        { relay with
          queue := relay.queue.acquire g
          runs := relay.runs ++ [{
            firing := some g, attempt := relay.queue.attempt f, ticket
            phase := .draining }] } := by
  rcases Queue.acquire_cases relay.queue g with hq | ⟨f, lock, hf, hp, hl, hq⟩
  · refine .inl ?_
    simp only [timerStep, Queue.step, hq]
    split <;> rfl
  · obtain ⟨ticket, delay, htask⟩ := ht.tasks hf
    refine .inr ⟨f, lock, ticket, delay, hf, hp, htask, hl, hq, ?_⟩
    have hrun : (relay.queue.setPhase g (.running lock)).firing? g =
        some { f with phase := .running lock } := by
      rw [Queue.firing?_setPhase, if_pos rfl, hf]
      rfl
    simp [timerStep, Queue.step, hq, Queue.phase?, hf, hp, hrun, Phase.isRunning, startRun, htask,
      Ticket.task, ht.combines, BatchRun.ofPayload, Ticket.ofPayload_payload, Queue.attempt]

/-- A handler that is at work is through when its run says so. -/
theorem timerStep_finish (ht : relay.Tended) (g : Nat) (o : Except RelayError Unit) :
    relay.timerStep (.finish g o) = relay := by
  simp only [timerStep, Queue.step, Queue.finish]
  split
  · rfl
  · next hnot =>
    split
    · next lock hp =>
      obtain ⟨f, hf, hfp⟩ := Option.map_eq_some_iff.mp hp
      exact absurd (ht.manned hf (by rw [hfp]; rfl)) hnot
    · rfl

theorem happens_timer (ht : relay.Tended) {e : Queue.Event} (ha : relay.admits (.timer e)) :
    Happens setup s relay (relay.deed (.timer e)) s (relay.timerStep e) := by
  cases e with
  | schedule task => cases ha
  | acquire g =>
    rcases timerStep_acquire ht.ticketed g with
      hsame | ⟨f, lock, ticket, delay, hf, hp, htask, hl, -, hnext⟩
    · rw [hsame]
      exact .idle
    · rw [hnext]
      exact .started hf hp htask hl
  | finish g o =>
    rw [timerStep_finish ht]
    exact .idle
  | settle g jitter =>
    simp only [deed]
    cases hr : relay.queue.retried? g with
    | none =>
      refine .timer (.settle g jitter) (by simp) (by simp) (by simp) ?_
      intro g' jitter' heq
      cases heq
      exact hr
    | some task => exact .retried jitter hr
  | _ => exact .timer _ (by simp) (by simp) (by simp) (by simp)

theorem happens_ran {i : Nat} {r : BatchRun} (hr : relay.runs[i]? = some r)
    {f : BatchRun → BatchRun} (h : r.Progress s .none s (f r)) :
    Happens setup s relay .none s (relay.modifyRun i f) := by
  have : Happens setup s relay .none s _ := .ran relay.leases hr h nofun
  rwa [← modify_of_getElem? hr] at this

theorem modifyRun_of_none {i : Nat} (hr : relay.runs[i]? = none) (f : BatchRun → BatchRun) :
    relay.modifyRun i f = relay := by
  rw [modifyRun, modify_of_getElem?_eq_none hr]

theorem progress_mapExecution {r : BatchRun} {f : Execution → Execution}
    (hf : ∀ x, Execution.Follows x (f x)) : r.Progress s .none s (r.mapExecution f) := by
  unfold BatchRun.mapExecution
  split
  · next hp => exact .executed hp (hf _) (.refl s)
  · exact .idle

theorem happens_execution (i : Nat) {f : BatchRun → Execution → Execution}
    (hf : ∀ r x, Execution.Follows x (f r x)) :
    Happens setup s relay .none s (relay.modifyRun i fun r => r.mapExecution (f r)) := by
  cases hr : relay.runs[i]? with
  | none =>
    rw [modifyRun_of_none hr]
    exact .idle
  | some r => exact happens_ran setup s hr (progress_mapExecution s (hf r))

theorem happens_lease (i : Nat) : Happens setup s relay .none s (relay.leaseRun setup i) := by
  unfold leaseRun
  split
  · next r hr =>
    split
    · next batch hp =>
      dsimp only
      rw [modifyRun, modify_of_getElem? hr]
      refine .ran _ hr ?_ nofun
      simp only [BatchRun.leased, hp]
      exact .leased _ _ hp fun q hq => Execution.request?_begin _ _ _ hq
    · exact .idle
  · exact .idle

theorem happens_release (i : Nat) : Happens setup s relay .none s (relay.releaseRun setup i) := by
  unfold releaseRun
  split
  · next r hr =>
    split
    · next batch lease result hp =>
      rw [modifyRun, modify_of_getElem? hr]
      refine .ran _ hr ?_ nofun
      simp only [BatchRun.concluded, hp]
      exact .concluded _ hp
    · exact .idle
  · exact .idle

theorem happens_armRun (i : Nat) :
    Happens setup s relay (relay.deed (.run i .arm)) s (relay.armRun setup i) := by
  simp only [deed, armRun]
  cases hr : relay.runs[i]? with
  | none => exact .idle
  | some r =>
    dsimp only
    cases hp : r.phase with
    | requeuing batch deposit =>
      simp only [BatchRun.isArming, hp]
      by_cases hd : deposit.phase = .arming
      · obtain ⟨queue, handedOver, outcome, hq, -⟩ :=
          schedule_frame setup relay (r.ticket.task setup.debounceMillis)
        rw [hq]
        simp only [hd, decide_true, if_true]
        rw [modifyRun, modify_of_getElem? hr]
        have h := Happens.rearmed hr hp hd hq (s := s)
        simpa [BatchRun.armed, hp, Deposit.armed, hd, Deposit.result?] using h
      · simpa [hd] using Happens.idle
    | _ => simpa [BatchRun.isArming, hp] using Happens.idle

theorem happens_notified (i slot : Nat) (success : Bool) :
    Happens setup s relay .none s (relay.modifyRun i (·.notified slot success)) := by
  cases hr : relay.runs[i]? with
  | none =>
    rw [modifyRun_of_none hr]
    exact .idle
  | some r =>
    apply happens_ran setup s hr
    unfold BatchRun.notified
    split
    · next hp => exact .notified _ hp
    · exact .idle

theorem happens_access (ht : relay.Tended) {i : Nat} {fault : Option StoreError}
    (ha : relay.admits (.run i (.access fault))) :
    Happens setup s relay (relay.deed (.run i (.access fault)))
      (relay.runStep setup s i (.access fault)).1 (relay.runStep setup s i (.access fault)).2 := by
  simp only [deed, runStep]
  cases hr : relay.runs[i]? with
  | none => exact .idle
  | some r =>
    have hfault : r.usesList → fault = none := by
      simpa [admits, hr, Classical.or_iff_not_imp_right] using ha
    have h := r.progress_access (BatchRun.noticeOutputs setup.channels setup.primary) s
      (ht.orderly hr) hfault
    exact .ran relay.leases hr h r.accessDeed_ne_rearmed

theorem happens_return (i : Nat) : Happens setup s relay .none s (relay.returnRun i) := by
  unfold returnRun
  split
  · next r hr =>
    split
    · next g result hg hres => exact .returned hr hg hres
    · exact .idle
  · exact .idle

/-- An event that the relay admits does nothing else. -/
theorem happens_step (ht : relay.Tended) {e : Event} (ha : relay.admits e) :
    Happens setup s relay (relay.deed e) (relay.step setup s e).1 (relay.step setup s e).2 := by
  cases e with
  | enqueue ticket text sourceId enqueuedAt => exact .enqueued ticket _ (of_decide_eq_true ha)
  | requeue ticket messages => cases ha
  | push i fault =>
    obtain rfl : fault = none := by simpa [admits] using ha
    exact happens_push setup s i
  | arm i => exact happens_arm setup s i
  | notice user => exact .leases _
  | timer e => exact happens_timer setup s ht ha
  | handle payload attempt => cases ha
  | run i e =>
    cases e with
    | access fault => exact happens_access setup s ht ha
    | lease => exact happens_lease setup s i
    | enriched slot outcome =>
      exact happens_execution setup s i fun _ => Execution.follows_enriched slot outcome
    | compose => exact happens_execution setup s i fun r => Execution.follows_compose _
    | generated outcome =>
      exact happens_execution setup s i fun r => Execution.follows_generated _ outcome
    | delivered slot success =>
      exact happens_execution setup s i fun _ => Execution.follows_delivered slot success
    | release => exact happens_release setup s i
    | arm => exact happens_armRun setup s i
    | notified slot success => exact happens_notified setup s i slot success
  | «return» i => exact happens_return setup s i
  | cancelAll => exact .leases _

end

/-! ## What stays -/

theorem schedule_queue (setup : Setup) (relay : Relay) (task : Task) :
    (relay.schedule setup task).1.queue = relay.queue ∨
      (relay.schedule setup task).1.queue = relay.queue.step (.schedule task) := by
  unfold schedule
  split
  · exact .inr rfl
  · exact .inl rfl
  · exact .inl rfl

theorem getElem?_set_cases {α : Type} {l : List α} {i k : Nat} {a b : α}
    (h : (l.set i a)[k]? = some b) : k = i ∧ b = a ∨ k ≠ i ∧ l[k]? = some b := by
  rw [List.getElem?_set] at h
  split at h
  · next hk =>
    split at h
    · exact .inl ⟨hk.symm, (Option.some.inj h).symm⟩
    · cases h
  · next hk => exact .inr ⟨Ne.symm hk, h⟩

theorem isBatch_set {relay relay' : Relay} {i : Nat} {r r' : BatchRun}
    (hs : relay'.runs = relay.runs.set i r') (hr : relay.runs[i]? = some r)
    (hf : r'.firing = r.firing) {g : Nat} (h : relay.isBatch g) : relay'.isBatch g := by
  simp only [isBatch, hs, List.any_eq_true, decide_eq_true_eq] at h ⊢
  obtain ⟨r₀, hmem, hg⟩ := h
  obtain ⟨k, hk⟩ := List.mem_iff_getElem?.mp hmem
  by_cases hki : k = i
  · subst hki
    obtain rfl : r = r₀ := Option.some.inj (hr.symm.trans hk)
    exact ⟨r', List.mem_of_getElem? (i := k)
      (by simp [(List.getElem?_eq_some_iff.mp hr).1]), hf.trans hg⟩
  · exact ⟨r₀, List.mem_of_getElem? (i := k) (by rw [List.getElem?_set_ne (Ne.symm hki), hk]), hg⟩

def Starts (relay relay' : Relay) (new : BatchRun) : Prop :=
  ∃ g f lock ticket delay, relay.queue.firing? g = some f ∧ f.phase = .waiting lock ∧
    f.task = Ticket.task ticket delay ∧ relay.queue.isLocked lock = false ∧
    relay'.queue = relay.queue.acquire g ∧
    new = { firing := some g, attempt := relay.queue.attempt f, ticket, phase := .draining }

/-- What the change of the queue has to do with the runs: tasks are those of tickets, a handler that
starts is a run, and one that is through has the result of its run. -/
def Keeps (relay relay' : Relay) : Prop :=
  ∃ e, (relay'.queue = relay.queue ∨ relay'.queue = relay.queue.step e) ∧
    (∀ task, e = .schedule task → ∃ t delay, task = Ticket.task t delay) ∧
    (∀ g, e = .acquire g → ∃ (i : Nat) (r : BatchRun), relay'.runs[i]? = some r ∧
      r.firing = some g ∧ Starts relay relay' r) ∧
    ∀ g o, e = .finish g o → ∃ (i : Nat) (r : BatchRun), relay.runs[i]? = some r ∧
      r.firing = some g ∧ r.result? = some o

theorem changes_of_eq {q q' : Queue} {e : Queue.Event} (h : q' = q ∨ q' = q.step e) :
    q.Changes e q' := by
  rcases h with rfl | rfl
  · exact .idle e
  · exact Queue.changes_step q e

theorem Tended.of_keeps {relay relay' : Relay} (ht : relay.Tended) (hk : Keeps relay relay')
    (hc : relay'.combines = relay.combines) (hb : ∀ g, relay.isBatch g → relay'.isBatch g)
    (ho : ∀ {i : Nat} {r : BatchRun}, relay'.runs[i]? = some r → r.Orderly) : relay'.Tended := by
  obtain ⟨e, hq, hsched, hacq, -⟩ := hk
  have hch := changes_of_eq hq
  refine ⟨hc ▸ ht.combines, hch.frame.2.trans ht.handlers, fun {g f} hf => ?_, ho,
    fun {g f} hf hr => ?_⟩
  · cases hold : relay.queue.firing? g with
    | none =>
      cases hch.arises hold hf with
      | scheduled hs => exact hsched _ rfl
      | retried jitter hk htask hs => exact htask ▸ ht.tasks hk
    | some f' =>
      obtain ⟨p, hp, -⟩ := hch.follows hold
      obtain rfl := Option.some.inj (hp.symm.trans hf)
      obtain ⟨ticket, delay, htask⟩ := ht.tasks hold
      exact ⟨ticket, delay, htask⟩
  · rcases hch.running hf hr with he | ⟨f', hf', hr'⟩
    · obtain ⟨i, r, hr', hg, -⟩ := hacq g he
      exact List.any_eq_true.mpr ⟨r, List.mem_of_getElem? hr', by simpa using hg⟩
    · exact hb g (ht.manned hf' hr')

theorem keeps_same {relay relay' : Relay} (hq : relay'.queue = relay.queue) :
    Keeps relay relay' := ⟨.wait 0, .inl hq, by simp, by simp, by simp⟩

theorem keeps_schedule {setup : Setup} {relay relay' : Relay} {ticket : Ticket} {delay : Nat}
    (hq : relay'.queue = (relay.schedule setup (ticket.task delay)).1.queue) :
    Keeps relay relay' := by
  rcases schedule_queue setup relay (ticket.task delay) with h | h
  · exact keeps_same (hq.trans h)
  · refine ⟨_, .inr (hq.trans h), ?_, by simp, by simp⟩
    rintro task heq
    cases heq
    exact ⟨ticket, delay, rfl⟩

theorem Happens.keeps {setup : Setup} {s s' : σ} {relay relay' : Relay} {d : Deed}
    (h : Happens setup s relay d s' relay') : Keeps relay relay' := by
  cases h with
  | armed hd hp hq => exact keeps_schedule (by rw [hq])
  | rearmed hr hp hd hq => exact keeps_schedule (by rw [hq])
  | timer e hs ha hf hr =>
    exact ⟨e, .inr rfl, fun task he => absurd he (hs task), fun g he => absurd he (ha g),
      fun g o he => absurd he (hf g o)⟩
  | retried jitter hr => exact ⟨.settle _ jitter, .inr rfl, by simp, by simp, by simp⟩
  | @started g f lock ticket delay hf hp ht hl =>
    refine ⟨.acquire g, .inr rfl, by simp, ?_, by simp⟩
    rintro g' heq
    cases heq
    exact ⟨relay.runs.length, _, List.getElem?_concat_length, rfl, g, f, lock, ticket, delay, hf,
      hp, ht, hl, rfl, rfl⟩
  | @returned i r g result hr hg hres =>
    refine ⟨.finish g result, .inr rfl, by simp, by simp, ?_⟩
    rintro g' o heq
    cases heq
    exact ⟨i, r, hr, hg, hres⟩
  | _ => exact keeps_same rfl

theorem Happens.open_before {setup : Setup} {s s' : σ} {relay relay' : Relay} {d : Deed}
    (h : Happens setup s relay d s' relay') (hopen : relay'.queue.closed = false) :
    relay.queue.closed = false := by
  obtain ⟨e, hq, -⟩ := h.keeps
  cases hc : relay.queue.closed with
  | false => rfl
  | true =>
    rw [(changes_of_eq hq).closed hc] at hopen
    cases hopen

theorem Happens.tended {setup : Setup} {s s' : σ} {relay relay' : Relay} {d : Deed}
    (h : Happens setup s relay d s' relay') (ht : relay.Tended) : relay'.Tended := by
  have hk := h.keeps
  -- a run that gets on is as orderly as before, and still that of its firing
  have hset : ∀ {i : Nat} {r' : BatchRun}, r'.Orderly → ∀ {k : Nat} {r₀ : BatchRun},
      (relay.runs.set i r')[k]? = some r₀ → r₀.Orderly := by
    intro i r' ho k r₀ hr₀
    rcases getElem?_set_cases hr₀ with ⟨-, rfl⟩ | ⟨-, hr₀⟩
    · exact ho
    · exact ht.orderly hr₀
  cases h with
  | started hf hp htask hl =>
    refine ht.of_keeps hk rfl (fun g hg => ?_) fun {i r} hr => ?_
    · simp only [isBatch, List.any_append, Bool.or_eq_true] at hg ⊢
      exact .inl hg
    · rcases List.mem_append.mp (List.mem_of_getElem? hr) with hmem | hmem
      · obtain ⟨k, hk⟩ := List.mem_iff_getElem?.mp hmem
        exact ht.orderly hk
      · rw [List.mem_singleton] at hmem
        subst hmem
        rfl
  | ran leases hr hp hd =>
    exact ht.of_keeps hk rfl (fun g => isBatch_set rfl hr hp.frame.2.1)
      (hset (hp.orderly (ht.orderly hr)))
  | @rearmed i r batch deposit queue handedOver outcome hr hp hd hq =>
    let r' : BatchRun := { r with phase := .finished (.superseded batch (outcome.mapError .task)) }
    have hf : r'.firing = r.firing := rfl
    exact ht.of_keeps hk rfl (fun g => isBatch_set rfl hr hf) (hset (show r'.Orderly from trivial))
  | _ => exact ht.of_keeps hk rfl (fun g => id) ht.orderly

/-! ## What becomes of the runs -/

section
variable {setup : Setup} {s s' : σ} {relay relay' : Relay} {d : Deed}

theorem Starts.phase {new : BatchRun} (h : Starts relay relay' new) : new.phase = .draining := by
  obtain ⟨g, f, lock, ticket, delay, -, -, -, -, -, rfl⟩ := h
  rfl

theorem Starts.leftOut {new : BatchRun} (h : Starts relay relay' new) : new.leftOut = [] := by
  obtain ⟨g, f, lock, ticket, delay, -, -, -, -, -, rfl⟩ := h
  rfl

theorem Happens.runs (h : Happens setup s relay d s' relay') :
    relay'.runs = relay.runs ∨
      (∃ i r r', relay.runs[i]? = some r ∧ r.Progress s d s' r' ∧
        relay'.runs = relay.runs.set i r') ∨
      ∃ new : BatchRun, Starts relay relay' new ∧ relay'.runs = relay.runs ++ [new] := by
  cases h with
  | started hf hp ht hl =>
    exact .inr (.inr ⟨_, ⟨_, _, _, _, _, hf, hp, ht, hl, rfl, rfl⟩, rfl⟩)
  | ran leases hr h hd => exact .inr (.inl ⟨_, _, _, hr, h, rfl⟩)
  | rearmed hr hp hd hq => exact .inr (.inl ⟨_, _, _, hr, .rearmed _ hp hd, rfl⟩)
  | _ => exact .inl rfl

theorem Happens.run_after (h : Happens setup s relay d s' relay') {i : Nat} {r' : BatchRun}
    (hr' : relay'.runs[i]? = some r') :
    relay.runs[i]? = some r' ∨ (∃ r, relay.runs[i]? = some r ∧ r.Progress s d s' r') ∨
      relay.runs[i]? = none ∧ i = relay.runs.length ∧ Starts relay relay' r' := by
  rcases h.runs with hs | ⟨k, r, r₁, hr, hp, hs⟩ | ⟨new, hstart, hs⟩
  · exact .inl (hs ▸ hr')
  · rw [hs] at hr'
    rcases getElem?_set_cases hr' with ⟨rfl, rfl⟩ | ⟨-, hr'⟩
    · exact .inr (.inl ⟨r, hr, hp⟩)
    · exact .inl hr'
  · rw [hs, List.getElem?_append] at hr'
    split at hr'
    · exact .inl hr'
    · next hlen =>
      have hi := (List.getElem?_eq_some_iff.mp hr').1
      rw [List.length_singleton] at hi
      obtain rfl := List.mem_singleton.mp (List.mem_of_getElem? hr')
      exact .inr (.inr ⟨List.getElem?_eq_none (by omega), by omega, hstart⟩)

theorem Happens.run_before (h : Happens setup s relay d s' relay') {i : Nat} {r : BatchRun}
    (hr : relay.runs[i]? = some r) :
    ∃ r', relay'.runs[i]? = some r' ∧ (r' = r ∨ r.Progress s d s' r') := by
  have hlen := (List.getElem?_eq_some_iff.mp hr).1
  rcases h.runs with hs | ⟨k, r₀, r₁, hr₀, hp, hs⟩ | ⟨new, -, hs⟩
  · exact ⟨r, hs ▸ hr, .inl rfl⟩
  · by_cases hk : k = i
    · subst hk
      obtain rfl : r = r₀ := Option.some.inj (hr.symm.trans hr₀)
      exact ⟨r₁, by rw [hs, List.getElem?_set_self hlen], .inr hp⟩
    · exact ⟨r, by rw [hs, List.getElem?_set_ne hk, hr], .inl rfl⟩
  · exact ⟨r, by rw [hs, List.getElem?_append_left hlen, hr], .inl rfl⟩

end

end ChatRelay.Relay
