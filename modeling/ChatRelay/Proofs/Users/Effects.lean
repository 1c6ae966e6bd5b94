import ChatRelay.Proofs.Users.Part

/-!
# What an event makes of a part

What an event that concerns a user does to deposits, to tasks that are handed over, to the queue and
to leases can be told from their part of the relay.
-/

namespace ChatRelay

namespace Relay
open Timer

section
variable {σ : Type} [Store σ] (setup : Setup) (s s' : σ) {relay : Relay} {user : String}

/-! ## Deposits -/

/-- Whether the task is accepted does not depend on the firings that there are. -/
theorem schedule_part_outcome (task : Task) :
    ((relay.part user).schedule setup task).2 = (relay.schedule setup task).2 := by
  unfold schedule
  cases setup.scheduler with
  | timers =>
    change ((relay.queue.part (Ticket.dedupId user)).schedule task).2 =
      (relay.queue.schedule task).2
    unfold Queue.schedule
    rw [Queue.closed_part, Queue.handlers_part]
    split
    · rfl
    · split <;> rfl
  | _ => rfl

theorem deposits_returnRun (i : Nat) : (relay.returnRun i).deposits = relay.deposits := by
  unfold returnRun
  split
  · split <;> rfl
  · rfl

theorem deposits_armDeposit {i : Nat} {d : Deposit} (hd : relay.deposits[i]? = some d) :
    (relay.armDeposit setup i).deposits = if d.phase = .arming then
      relay.deposits.modify i
        (·.armed (relay.schedule setup (d.ticket.task setup.debounceMillis)).2)
      else relay.deposits := by
  simp only [armDeposit, hd]
  split
  · dsimp only
    rw [deposits_schedule]
  · rfl

/-- The user sees what becomes of their deposits. -/
theorem deposits_part {e : Event} (he : e.concerns relay user) :
    ((relay.part user).step setup s' (e.relative relay user)).2.deposits =
      Places.share (Deposit.isOf user) id (relay.step setup s e).2.deposits := by
  have hsame : ∀ {ds : List Deposit}, ds = relay.deposits →
      (relay.part user).deposits = Places.share (Deposit.isOf user) id ds := fun h => h ▸ rfl
  have hstart : ∀ d : Deposit, d.isOf user → (relay.part user).deposits ++ [d] =
      Places.share (Deposit.isOf user) id (relay.deposits ++ [d]) := fun d hof =>
    (Places.share_concat hof).symm
  cases e with
  | enqueue ticket text sourceId enqueuedAt => exact hstart _ he
  | requeue ticket messages => exact hstart _ he
  | push i fault =>
    obtain ⟨d, hd, hof⟩ := of_any he
    have hof' : (d.push fault s).2.isOf user := by
      rwa [Deposit.isOf, Deposit.ticket_push]
    simp only [step, Event.relative, deposit_part hd hof, hd]
    rw [d.push_congr fault s' s]
    exact (Places.share_set hd hof hof').symm
  | arm i =>
    obtain ⟨d, hd, hof⟩ := of_any he
    simp only [step, Event.relative]
    rw [deposits_armDeposit setup (deposit_part hd hof), deposits_armDeposit setup hd,
      schedule_part_outcome]
    split
    · have hof' : (d.armed (relay.schedule setup (d.ticket.task setup.debounceMillis)).2).isOf
          user := by
        rwa [Deposit.isOf, Deposit.ticket_armed]
      exact (Places.share_modify (v := id) hd hof hof' rfl).symm
    · rfl
  | timer e => exact (deposits_timerStep ..).trans (hsame (deposits_timerStep relay e))
  | run i e => exact (deposits_runStep ..).trans (hsame (deposits_runStep setup s relay i e))
  | «return» i => exact (deposits_returnRun _).trans (hsame (deposits_returnRun i))
  | _ => rfl

/-! ## Tasks that are handed over -/

def handed (ticket : Ticket) : List Task :=
  if setup.scheduler = .handedOver then [ticket.task setup.debounceMillis] else []

theorem handedOver_schedule (ticket : Ticket) :
    (relay.schedule setup (ticket.task setup.debounceMillis)).1.handedOver =
      relay.handedOver ++ handed setup ticket := by
  unfold schedule handed
  cases setup.scheduler <;> simp

theorem handedOver_timerStep (e : Queue.Event) :
    (relay.timerStep e).handedOver = relay.handedOver := by
  cases e with
  | acquire g =>
    simp only [timerStep, startRun]
    repeat' split
    all_goals rfl
  | finish g outcome =>
    simp only [timerStep]
    split <;> rfl
  | _ => rfl

/-- What becomes of the tasks that are handed over. -/
theorem handedOver_step (e : Event) : (relay.step setup s e).2.handedOver =
    relay.handedOver ++ (relay.arms? e).elim [] (handed setup) := by
  have hnil : relay.handedOver = relay.handedOver ++ [] := (List.append_nil _).symm
  cases e with
  | push i fault =>
    simp only [step]
    split <;> exact hnil
  | arm i =>
    simp only [step, armDeposit, arms?]
    cases hd : relay.deposits[i]? with
    | none => exact hnil
    | some d =>
      by_cases hp : d.phase = .arming
      · simpa [hp] using handedOver_schedule setup d.ticket
      · simp [hp]
  | timer e => exact (handedOver_timerStep e).trans hnil
  | run i e =>
    cases hr : relay.runs[i]? with
    | none =>
      rw [step, runStep_of_none setup s hr]
      cases e <;> simp [arms?, hr]
    | some r =>
      cases e with
      | access fault =>
        simp only [step, runStep, hr]
        exact hnil
      | lease =>
        simp only [step, runStep, leaseRun, hr]
        split <;> exact hnil
      | release =>
        simp only [step, runStep, releaseRun, hr]
        split <;> exact hnil
      | arm =>
        cases hp : r.phase with
        | requeuing batch deposit =>
          have harm : r.isArming = decide (deposit.phase = .arming) := by
            simp [BatchRun.isArming, hp]
          simp only [step, runStep, armRun, arms?, hr, hp, Option.bind_some, harm]
          by_cases hd : deposit.phase = .arming
          · simpa [hd, modifyRun] using handedOver_schedule setup r.ticket
          · simp [hd]
        | _ => simp [step, runStep, armRun, arms?, BatchRun.isArming, hr, hp]
      | _ => exact hnil
  | «return» i =>
    simp only [step, returnRun]
    repeat' split
    all_goals exact hnil
  | _ => exact hnil

theorem handedOver_part {e : Event} (he : e.concerns relay user) :
    ((relay.part user).step setup s' (e.relative relay user)).2.handedOver =
      (relay.step setup s e).2.handedOver.filter (·.dedupId = Ticket.dedupId user) := by
  rw [handedOver_step, handedOver_step, arms?_part he, List.filter_append]
  refine congrArg (relay.part user).handedOver.append ?_
  cases harms : relay.arms? e with
  | none => rfl
  | some ticket =>
    have hu : ticket.user = user := of_decide_eq_true ((arms?_concerns harms).trans he)
    subst hu
    unfold handed
    split <;> simp [Ticket.task]

/-! ## The queue and the leases -/

theorem queue_part (h : relay.Shared) {e : Event} (he : e.concerns relay user) :
    (relay.step setup s e).2.queue.part (Ticket.dedupId user) =
      ((relay.part user).step setup s' (e.relative relay user)).2.queue.part
        (Ticket.dedupId user) := by
  rw [queue_step, queue_step, queueEvent?_part setup h he]
  cases hqe : relay.queueEvent? setup e with
  | none => exact Queue.part_part.symm
  | some qe => exact Queue.part_step h.queue h.apart ((queueEvent?_concerns setup h hqe).trans he)

theorem leases_part (h : relay.Shared) {e : Event} (he : e.concerns relay user) :
    (relay.step setup s e).2.leases.part user =
      ((relay.part user).step setup s' (e.relative relay user)).2.leases.part user := by
  rw [leases_step, leases_step, leaseEvent?_part he]
  cases relay.leaseEvent? e with
  | none => exact Leases.part_part.symm
  | some le =>
    exact Leases.part_step h.keys h.isOf_of_live (next_lease_of_course h.course user) le

end
end Relay
end ChatRelay
