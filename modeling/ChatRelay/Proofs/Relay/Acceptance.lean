import ChatRelay.Proofs.Relay.Occurrences
import ChatRelay.Proofs.Timer.Claiming

/-!
# Calls that are accepted or refused

A call to accept a message has three steps of its own: it is begun, it puts the message into the
list, and it arms the task. Anything else may happen in between. What the call has changed when it
is over depends on which of its steps failed: a message whose task was refused stays in the list.
-/

namespace ChatRelay.Relay
open Timer KeyedLists

def Event.isStepOf (deposit : Nat) : Event → Bool
  | .push i _ | .arm i => i = deposit
  | _ => false

section
variable {σ : Type} [Store σ] (setup : Setup) (s : σ) (relay : Relay)

theorem deposits_schedule (task : Task) :
    (relay.schedule setup task).1.deposits = relay.deposits := by
  obtain ⟨queue, handedOver, outcome, hq, -⟩ := schedule_frame setup relay task
  rw [hq]

theorem deposits_timerStep (e : Queue.Event) : (relay.timerStep e).deposits = relay.deposits := by
  cases e with
  | acquire g =>
    simp only [timerStep, startRun]
    repeat' split
    all_goals rfl
  | finish g outcome =>
    simp only [timerStep]
    split <;> rfl
  | _ => rfl

theorem deposits_runStep (i : Nat) (e : RunEvent) :
    (relay.runStep setup s i e).2.deposits = relay.deposits := by
  cases e with
  | access fault =>
    simp only [runStep]
    split <;> rfl
  | lease =>
    simp only [runStep, leaseRun]
    repeat' split
    all_goals rfl
  | release =>
    simp only [runStep, releaseRun]
    repeat' split
    all_goals rfl
  | arm =>
    simp only [runStep, armRun]
    repeat' split
    all_goals first | rfl | exact deposits_schedule setup relay _
  | _ => rfl

/-- A deposit is not touched by the steps of others. -/
theorem deposit_stays {e : Event} {i : Nat} {d : Deposit} (he : e.isStepOf i = false)
    (hd : relay.deposits[i]? = some d) : (relay.step setup s e).2.deposits[i]? = some d := by
  have hlen := (List.getElem?_eq_some_iff.mp hd).1
  cases e with
  | enqueue ticket text sourceId enqueuedAt => exact (List.getElem?_append_left hlen).trans hd
  | requeue ticket messages => exact (List.getElem?_append_left hlen).trans hd
  | push k fault =>
    have hk : k ≠ i := of_decide_eq_false he
    simp only [step]
    split
    · exact (List.getElem?_set_ne hk).trans hd
    · exact hd
  | arm k =>
    have hk : k ≠ i := of_decide_eq_false he
    simp only [step, armDeposit]
    split
    · split
      · exact (List.getElem?_modify_ne _ _ hk).trans ((deposits_schedule setup relay _).symm ▸ hd)
      · exact hd
    · exact hd
  | timer e => exact (deposits_timerStep relay e).symm ▸ hd
  | run k e => exact (deposits_runStep setup s relay k e).symm ▸ hd
  | «return» k =>
    simp only [step, returnRun]
    repeat' split
    all_goals exact hd
  | _ => exact hd

end

def happen {σ : Type} [Store σ] (setup : Setup) (es : List Event) (p : σ × Relay) : σ × Relay :=
  es.foldl (fun p e => p.2.step setup p.1 e) p

theorem happen_deposit {σ : Type} [Store σ] (setup : Setup) {es : List Event} {i : Nat}
    {d : Deposit} (hes : ∀ e ∈ es, e.isStepOf i = false) {p : σ × Relay}
    (hd : p.2.deposits[i]? = some d) : (happen setup es p).2.deposits[i]? = some d := by
  induction es generalizing p with
  | nil => exact hd
  | cons e es ih =>
    obtain ⟨he, hes⟩ := List.forall_mem_cons.mp hes
    exact ih hes (deposit_stays setup p.1 p.2 he hd)

theorem Occurs.happen {σ : Type} [Store σ] {setup : Setup} {s₀ : σ} {policy : RetryPolicy}
    {h : History} {p : σ × Relay} (ho : Occurs setup s₀ policy h p.1 p.2) (es : List Event) :
    ∃ h', Occurs setup s₀ policy h' (Relay.happen setup es p).1 (Relay.happen setup es p).2 := by
  induction es generalizing h p with
  | nil => exact ⟨h, ho⟩
  | cons e es ih => exact ih (ho.step e)

/-! ## What the steps of a call do -/

/-- A task has been accepted: its timer is pending, or somebody else has been handed the task. -/
def Armed (setup : Setup) (task : Task) (relay relay' : Relay) : Prop :=
  match setup.scheduler with
  | .timers =>
    Table.get? relay'.queue.timers task.dedupId = some relay.queue.firings.length ∧
    relay'.queue.firing? relay.queue.firings.length = some {
      task, attempt := 1, origin := relay.queue.firings.length
      due := relay.queue.now + task.delayMillis }
  | .handedOver => relay'.queue = relay.queue ∧ relay'.handedOver = relay.handedOver ++ [task]
  | .refused => False

def SameTasks (relay relay' : Relay) : Prop :=
  relay'.queue = relay.queue ∧ relay'.handedOver = relay.handedOver

theorem SameTasks.refl (relay : Relay) : SameTasks relay relay := ⟨rfl, rfl⟩

theorem SameTasks.trans {relay relay' relay'' : Relay} (h : SameTasks relay relay')
    (h' : SameTasks relay' relay'') : SameTasks relay relay'' :=
  ⟨h'.1.trans h.1, h'.2.trans h.2⟩

theorem Armed.of_same {setup : Setup} {task : Task} {relay relay' relay'' : Relay}
    (h : SameTasks relay relay') (ha : Armed setup task relay' relay'') :
    Armed setup task relay relay'' := by
  rw [Armed, h.1, h.2] at ha
  exact ha

/-- A task is accepted, or nothing changes. -/
theorem schedule_cases (setup : Setup) (relay : Relay) (task : Task) :
    (∃ relay', relay.schedule setup task = (relay', .ok ()) ∧ Armed setup task relay relay') ∨
      ∃ cause, relay.schedule setup task = (relay, .error cause) := by
  unfold schedule Armed
  cases setup.scheduler with
  | handedOver => exact .inl ⟨_, rfl, rfl, rfl⟩
  | refused => exact .inr ⟨_, rfl⟩
  | timers =>
    by_cases hc : relay.queue.closed
    · exact .inr ⟨.shutdown, by simp [Queue.schedule, hc]⟩
    · by_cases hk : task.key ∈ relay.queue.handlers
      · refine .inl ⟨_, by rw [Queue.schedule_eq (Bool.eq_false_of_not_eq_true hc) hk], ?_, ?_⟩
        · exact (Queue.get?_timers_arm ..).trans (if_pos rfl)
        · refine (Queue.firing?_arm ..).trans ((if_pos rfl).trans ?_)
          rw [Queue.armed, Queue.now_displace]
          rfl
      · exact .inr ⟨.noHandler task.key, by simp [Queue.schedule, hc, hk]⟩

/-- A message is put behind those of its user, and nothing else is put anywhere. -/
def Filed {σ : Type} [Store σ] (s s' : σ) (user : String) (m : Pending) : Prop :=
  ∀ key, texts s' key =
    if key = Pending.listKey user then texts s key ++ [m.encode] else texts s key

theorem filed_push {σ : Type} [Store σ] [LawfulStore σ] {s : σ} (hs : LawfulStore.Sound s)
    (user : String) (m : Pending) : Filed s (Pending.push s user m) user m := by
  intro key
  refine (LawfulStore.texts_append _ _ _ hs).trans ?_
  by_cases hk : key = Pending.listKey user <;> simp [hk]

section
variable {σ : Type} [Store σ] (setup : Setup) (s : σ) {relay : Relay} {i : Nat} {d : Deposit}

theorem step_push {m : Pending} (hd : relay.deposits[i]? = some d) (hp : d.phase = .pushing [m]) :
    ∃ relay', relay.step setup s (.push i none) = (Pending.push s d.ticket.user m, relay') ∧
      relay'.deposits[i]? = some { d with phase := .arming } ∧ SameTasks relay relay' := by
  have hlen := (List.getElem?_eq_some_iff.mp hd).1
  refine ⟨{ relay with deposits := relay.deposits.set i { d with phase := .arming } }, ?_,
    List.getElem?_set_self hlen, .refl relay⟩
  simp [step, hd, Deposit.push, hp, Deposit.Phase.ofLeft]

theorem step_push_refused {m : Pending} (hd : relay.deposits[i]? = some d)
    (hp : d.phase = .pushing [m]) (cause : StoreError) :
    ∃ relay', relay.step setup s (.push i (some cause)) = (s, relay') ∧
      relay'.deposits[i]? = some { d with phase := .finished (.error (.store cause)) } ∧
      SameTasks relay relay' := by
  have hlen := (List.getElem?_eq_some_iff.mp hd).1
  refine ⟨{ relay with
    deposits := relay.deposits.set i { d with phase := .finished (.error (.store cause)) } }, ?_,
    List.getElem?_set_self hlen, .refl relay⟩
  simp [step, hd, Deposit.push, hp]

theorem step_arm_finished (hd : relay.deposits[i]? = some d)
    {result : Except RelayError Unit} (hp : d.phase = .finished result) :
    relay.step setup s (.arm i) = (s, relay) := by
  simp [step, armDeposit, hd, hp]

/-- When a deposit is to arm its task, the answer is what the task meets. -/
theorem step_arm (hd : relay.deposits[i]? = some d) (hp : d.phase = .arming) :
    ∃ relay' result, relay.step setup s (.arm i) = (s, relay') ∧
      relay'.deposits[i]? = some { d with phase := .finished result } ∧
      (result = .ok () ∧ Armed setup (d.ticket.task setup.debounceMillis) relay relay' ∨
        (∃ cause, result = .error (.task cause)) ∧ SameTasks relay relay') := by
  have hlen := (List.getElem?_eq_some_iff.mp hd).1
  rcases schedule_cases setup relay (d.ticket.task setup.debounceMillis) with
    ⟨relay', hq, harmed⟩ | ⟨cause, hq⟩
  · refine ⟨{ relay' with deposits := relay.deposits.modify i (·.armed (.ok ())) }, .ok (), ?_, ?_,
      .inl ⟨rfl, harmed⟩⟩
    · have hdeposits := deposits_schedule setup relay (d.ticket.task setup.debounceMillis)
      rw [hq] at hdeposits
      simp only at hdeposits
      simp only [step, armDeposit, hd, hp, if_true, hq, hdeposits]
    · simp [hd, Deposit.armed, hp, Except.mapError]
  · refine ⟨{ relay with deposits := relay.deposits.modify i (·.armed (.error cause)) },
      .error (.task cause), ?_, ?_, .inr ⟨⟨cause, rfl⟩, .refl relay⟩⟩
    · simp only [step, armDeposit, hd, hp, if_true, hq]
    · simp [hd, Deposit.armed, hp, Except.mapError]

end

/-- A call to accept a message, with what the list answers, and with everything else that happens
before the message is put into the list and before the task is armed. -/
structure Call where
  ticket : Ticket
  text : String
  sourceId : String
  enqueuedAt : Int
  fault : Option StoreError := none
  meanwhile : List Event := []
  later : List Event := []

namespace Call
variable {σ : Type} [Store σ] (setup : Setup) (p : σ × Relay) (c : Call)

def message : Pending := ⟨c.text, c.sourceId, c.enqueuedAt, c.ticket.label⟩

def begun : σ × Relay := p.2.step setup p.1 (.enqueue c.ticket c.text c.sourceId c.enqueuedAt)

/-- The state in which the message comes to the list. -/
def reached : σ × Relay := happen setup c.meanwhile (c.begun setup p)

def filed : σ × Relay :=
  (c.reached setup p).2.step setup (c.reached setup p).1 (.push p.2.deposits.length c.fault)

/-- The state in which the task comes to the queue. -/
def ready : σ × Relay := happen setup c.later (c.filed setup p)

def done : σ × Relay :=
  (c.ready setup p).2.step setup (c.ready setup p).1 (.arm p.2.deposits.length)

def result? : Option (Except RelayError Unit) :=
  ((c.done setup p).2.deposits[p.2.deposits.length]?).bind (·.result?)

/-- Nothing that happens besides is a step of the call itself. -/
def IsAlone : Prop := ∀ e ∈ c.meanwhile ++ c.later, e.isStepOf p.2.deposits.length = false

/-- What the steps of a call have changed when it returns this. -/
inductive Outcome : Except RelayError Unit → Prop
  | accepted (hlist : Filed (c.reached setup p).1 (c.filed setup p).1 c.ticket.user c.message)
      (htasks : SameTasks (c.reached setup p).2 (c.filed setup p).2)
      (hstore : (c.done setup p).1 = (c.ready setup p).1)
      (harmed : Armed setup (c.ticket.task setup.debounceMillis) (c.ready setup p).2
        (c.done setup p).2) : Outcome (.ok ())
  | unstored {cause : StoreError} (hfault : c.fault = some cause)
      (hlist : (c.filed setup p).1 = (c.reached setup p).1)
      (htasks : SameTasks (c.reached setup p).2 (c.filed setup p).2)
      (hdone : c.done setup p = c.ready setup p) : Outcome (.error (.store cause))
  | unarmed (cause : TaskError)
      (hlist : Filed (c.reached setup p).1 (c.filed setup p).1 c.ticket.user c.message)
      (htasks : SameTasks (c.reached setup p).2 (c.filed setup p).2)
      (hstore : (c.done setup p).1 = (c.ready setup p).1)
      (hsame : SameTasks (c.ready setup p).2 (c.done setup p).2) : Outcome (.error (.task cause))

/-- To begin a call changes neither the store nor the tasks. -/
theorem begun_same : (c.begun setup p).1 = p.1 ∧ SameTasks p.2 (c.begun setup p).2 :=
  ⟨rfl, .refl p.2⟩

variable {setup p c} [LawfulStore σ]

/-- Every call returns, and what it returns tells what it has changed. -/
theorem outcome (hs : LawfulStore.Sound (c.reached setup p).1) (ha : c.IsAlone p) :
    ∃ result, c.result? setup p = some result ∧ c.Outcome setup p result := by
  have hmeanwhile : ∀ e ∈ c.meanwhile, e.isStepOf p.2.deposits.length = false :=
    fun e he => ha e (List.mem_append_left _ he)
  have hlater : ∀ e ∈ c.later, e.isStepOf p.2.deposits.length = false :=
    fun e he => ha e (List.mem_append_right _ he)
  have hbegun : (c.begun setup p).2.deposits[p.2.deposits.length]? =
      some ⟨c.ticket, [c.message], .pushing [c.message]⟩ := List.getElem?_concat_length
  have hreached : (c.reached setup p).2.deposits[p.2.deposits.length]? =
      some ⟨c.ticket, [c.message], .pushing [c.message]⟩ :=
    happen_deposit setup hmeanwhile hbegun
  cases hfault : c.fault with
  | some cause =>
    -- the list refuses the message, and the task is not armed any more
    obtain ⟨relay', hpush, hd, hsame⟩ :=
      step_push_refused setup (c.reached setup p).1 hreached rfl cause
    have hfiled : c.filed setup p = ((c.reached setup p).1, relay') := by rw [filed, hfault, hpush]
    have hd' : (c.filed setup p).2.deposits[p.2.deposits.length]? =
        some ⟨c.ticket, [c.message], .finished (.error (.store cause))⟩ := by rw [hfiled]; exact hd
    have hready := happen_deposit setup hlater hd'
    have hdone : c.done setup p = c.ready setup p := step_arm_finished setup _ hready rfl
    have hresult : c.result? setup p = some (.error (.store cause)) := by
      rw [result?, hdone]
      exact congrArg (Option.bind · _) hready
    refine ⟨_, hresult, .unstored hfault (congrArg (·.1) hfiled) ?_ hdone⟩
    rw [hfiled]
    exact hsame
  | none =>
    obtain ⟨relay', hpush, hd, hsame⟩ := step_push setup (c.reached setup p).1 hreached rfl
    have hfiled : c.filed setup p =
        (Pending.push (c.reached setup p).1 c.ticket.user c.message, relay') := by
      rw [filed, hfault, hpush]
    have hlist : Filed (c.reached setup p).1 (c.filed setup p).1 c.ticket.user c.message := by
      rw [hfiled]
      exact filed_push hs c.ticket.user c.message
    have hd' : (c.filed setup p).2.deposits[p.2.deposits.length]? =
        some ⟨c.ticket, [c.message], .arming⟩ := by rw [hfiled]; exact hd
    have hready := happen_deposit setup hlater hd'
    obtain ⟨relay'', result, hstep, hd'', htimer⟩ :=
      step_arm setup (c.ready setup p).1 hready rfl
    have hdone : c.done setup p = ((c.ready setup p).1, relay'') := hstep
    have hresult : c.result? setup p = some result := by
      rw [result?, hdone]
      exact congrArg (Option.bind · _) hd''
    have htasks : SameTasks (c.reached setup p).2 (c.filed setup p).2 := by
      rw [hfiled]
      exact hsame
    have hstore : (c.done setup p).1 = (c.ready setup p).1 := congrArg (·.1) hdone
    refine ⟨result, hresult, ?_⟩
    rcases htimer with ⟨rfl, harmed⟩ | ⟨⟨cause, rfl⟩, hunarmed⟩
    · refine .accepted hlist htasks hstore ?_
      rw [hdone]
      exact harmed
    · refine .unarmed cause hlist htasks hstore ?_
      rw [hdone]
      exact hunarmed

end Call

end ChatRelay.Relay
