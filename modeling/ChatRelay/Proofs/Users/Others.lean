import ChatRelay.Proofs.Users.Unwinding

/-!
# What others do

An event that does not concern a user changes nothing that they have, neither in the relay nor in
the store, although their firings, deposits and runs stand in the same lists as those of others.
-/

namespace ChatRelay.Relay
open Timer KeyedLists Conversations AnsweredIds

structure Spares (user : String) (relay relay' : Relay) : Prop where
  queue : Queue.Spares (Ticket.dedupId user) relay.queue relay'.queue
  live : Table.get? relay'.leases.live user = Table.get? relay.leases.live user
  code : ∀ lease, relay.leases.IsOf user lease →
    relay'.leases.code user lease = relay.leases.code user lease
  deposits : Places.Same (Deposit.isOf user) relay.deposits relay'.deposits
  runs : Places.Same (BatchRun.isOf user) relay.runs relay'.runs
  handedOver : relay'.handedOver.filter (·.dedupId = Ticket.dedupId user) =
    relay.handedOver.filter (·.dedupId = Ticket.dedupId user)
  combines : relay'.combines = relay.combines

section
variable {relay relay' : Relay} {user : String}

theorem Spares.seen (hs : relay.Spares user relay') (h : relay.Shared) {i : Nat} {r : BatchRun}
    (hr : relay.runs[i]? = some r) (hof : r.isOf user) :
    relay'.seen user r = relay.seen user r := by
  have hu : r.ticket.user = user := of_decide_eq_true hof
  refine BatchRun.renamed_congr (fun g _ => hs.queue.place g) fun lease hl => ?_
  exact hs.code lease (hu ▸ h.isOf_of_run hr hl)

/-- Who has what they had sees what they saw. -/
theorem Spares.part (hs : relay.Spares user relay') (h : relay.Shared) :
    relay'.part user = relay.part user := by
  refine part_eq_of hs.queue.part ?_ (hs.deposits.share id) ?_ hs.handedOver hs.combines
  · apply Leases.part_eq_of
    rw [hs.live]
    cases hlive : Table.get? relay.leases.live user with
    | none => rfl
    | some lease => exact congrArg some (hs.code lease (h.isOf_of_live hlive))
  · refine (hs.runs.share _).trans (Places.share_congr fun r hmem hof => ?_)
    obtain ⟨i, hr⟩ := List.mem_iff_getElem?.mp hmem
    exact hs.seen h hr hof

theorem Spares.isCalledOff (hs : relay.Spares user relay') (h : relay.Shared) {i : Nat}
    {r : BatchRun} (hr : relay.runs[i]? = some r) (hof : r.isOf user) :
    relay'.isCalledOff r = relay.isCalledOff r := by
  rw [← @isCalledOff_part relay' user r, hs.part h, hs.seen h hr hof, isCalledOff_part]

theorem not_of_any {α : Type} {o : Option α} {p : α → Bool} {a : α} (h : o.any p = false)
    (ho : o = some a) : ¬ p a := by
  subst ho
  exact Bool.eq_false_iff.mp h

theorem operation?_concerns (h : relay.Shared) {e : Event} (he : e.concerns relay user = false)
    {op : Store.Operation} (hop : relay.operation? e = some op) : ¬ op.Concerns user := by
  cases e with
  | push i fault =>
    cases fault with
    | some cause => cases hop
    | none =>
      obtain ⟨d, hd, hop⟩ := Option.bind_eq_some_iff.mp hop
      obtain ⟨m, -, rfl⟩ := Option.map_eq_some_iff.mp hop
      intro hkey
      exact not_of_any he hd (decide_eq_true (Pending.listKey_injective hkey))
  | run i re =>
    obtain ⟨r, hr, hop⟩ := Option.bind_eq_some_iff.mp hop
    have hconcerns := BatchRun.operation_concerns (h.addressed hr) hop
    intro hu
    exact not_of_any he hr (decide_eq_true (hconcerns.user_unique hu))
  | _ => cases hop

variable {σ : Type} [Store σ] (setup : Setup) (s : σ)

theorem deposits_spared {e : Event} (he : e.concerns relay user = false) :
    Places.Same (Deposit.isOf user) relay.deposits (relay.step setup s e).2.deposits := by
  have hsame : ∀ {ds : List Deposit}, ds = relay.deposits →
      Places.Same (Deposit.isOf user) relay.deposits ds := fun h => h ▸ .refl _ _
  have hstart : ∀ d : Deposit, d.isOf user = false →
      Places.Same (Deposit.isOf user) relay.deposits (relay.deposits ++ [d]) := by
    intro d hof
    refine Places.same_append fun b hb => ?_
    rw [List.mem_singleton.mp hb]
    exact Bool.eq_false_iff.mp hof
  cases e with
  | enqueue ticket text sourceId enqueuedAt => exact hstart _ he
  | requeue ticket messages => exact hstart _ he
  | push i fault =>
    cases hd : relay.deposits[i]? with
    | none => exact hsame (by simp only [step, hd])
    | some d =>
      have hnot := not_of_any he hd
      simp only [step, hd]
      refine Places.same_set hd hnot ?_
      rwa [Deposit.isOf, Deposit.ticket_push]
  | arm i =>
    cases hd : relay.deposits[i]? with
    | none => exact hsame (by simp only [step, armDeposit, hd])
    | some d =>
      have hnot := not_of_any he hd
      simp only [step]
      rw [deposits_armDeposit setup hd]
      split
      · rw [modify_of_getElem? hd]
        refine Places.same_set hd hnot ?_
        rwa [Deposit.isOf, Deposit.ticket_armed]
      · exact .refl _ _
  | timer e => exact hsame (deposits_timerStep relay e)
  | run i e => exact hsame (deposits_runStep setup s relay i e)
  | «return» i => exact hsame (deposits_returnRun i)
  | _ => exact .refl _ _

/-- Who starts a run is concerned. -/
theorem started?_isOf (h : relay.Shared) {e : Event} {r : BatchRun}
    (hr : relay.started? e = some r) : r.isOf user = e.concerns relay user := by
  cases e with
  | handle payload attempt =>
    obtain rfl := Option.some.inj hr
    rfl
  | timer e =>
    cases e with
    | acquire g =>
      simp only [started?] at hr
      split at hr
      · cases hr
      · split at hr
        · obtain ⟨f', hf', hr⟩ := Option.bind_eq_some_iff.mp hr
          split at hr
          · obtain rfl := Option.some.inj hr
            cases hf : relay.queue.firing? g with
            | none =>
              have hidle : relay.queue.acquire g = relay.queue := by
                simp only [Queue.acquire, Queue.phase?, hf, Option.map_none]
              rw [hidle, hf] at hf'
              cases hf'
            | some f =>
              obtain ⟨ticket, delay, htask⟩ := h.ticketed.tasks hf
              obtain ⟨p, hp, -⟩ := (Queue.changes_step relay.queue (.acquire g)).follows hf
              obtain rfl := Option.some.inj (hp.symm.trans hf')
              rw [Event.concerns, Queue.Event.concerns, hf, Option.any_some, Queue.isOf, htask]
              simp only [BatchRun.ofPayload, Ticket.task, Ticket.ofPayload_payload]
              exact (decide_eq_decide.mpr dedupId_eq_iff).symm
          · cases hr
        · cases hr
    | _ => cases hr
  | _ => cases hr

variable [LawfulStore σ]

theorem runs_spared (h : relay.Shared) {e : Event} (he : e.concerns relay user = false) :
    Places.Same (BatchRun.isOf user) relay.runs (relay.step setup s e).2.runs := by
  by_cases hrun : ∃ i re, e = .run i re
  · obtain ⟨i, re, rfl⟩ := hrun
    cases hr : relay.runs[i]? with
    | none =>
      rw [step, runStep_of_none setup s hr]
      exact .refl _ _
    | some r =>
      have hnot := not_of_any he hr
      rw [step, (runStep_turn setup s hr re).2]
      refine Places.same_set hr hnot ?_
      rwa [BatchRun.isOf, (BatchRun.turns_turn _ (h.steady hr) re).frame.1]
  · rw [runs_step_other setup s fun i re heq => hrun ⟨i, re, heq⟩]
    refine Places.same_append fun r hr => ?_
    rw [started?_isOf h (Option.mem_toList.mp hr), he]
    exact Bool.false_ne_true

/-- Whatever others do leaves what a user has as it is. -/
theorem spares_step (h : relay.Shared) {e : Event} (he : e.concerns relay user = false) :
    relay.Spares user (relay.step setup s e).2 where
  queue := by
    rw [queue_step]
    cases hqe : relay.queueEvent? setup e with
    | none => exact .refl _ _
    | some qe => exact Queue.spares_step h.queue ((queueEvent?_concerns setup h hqe).trans he)
  live := by
    rw [leases_step]
    cases hle : relay.leaseEvent? e with
    | none => rfl
    | some le => exact Leases.live_step_other ((leaseEvent?_concerns hle).trans he)
  code lease hof := by
    rw [leases_step]
    cases hle : relay.leaseEvent? e with
    | none => rfl
    | some le => exact Leases.code_step_other h.keys hof ((leaseEvent?_concerns hle).trans he)
  deposits := deposits_spared setup s he
  runs := runs_spared setup s h he
  handedOver := by
    rw [handedOver_step, List.filter_append]
    refine (congrArg _ ?_).trans (List.append_nil _)
    cases harms : relay.arms? e with
    | none => rfl
    | some ticket =>
      have hu : ticket.user ≠ user := of_decide_eq_false ((arms?_concerns harms).trans he)
      have hid : Ticket.dedupId ticket.user ≠ Ticket.dedupId user := fun h =>
        hu (Ticket.dedupId_injective h)
      simp only [Option.elim_some, handed]
      split <;> simp [Ticket.task, hid]
  combines := combines_step setup s e

/-- What a user has in the store stays as it is. -/
theorem belongings_step_other [SeparateStore σ] (h : relay.Shared) (hs : LawfulStore.Sound s)
    {e : Event} (he : e.concerns relay user = false) :
    belongings (relay.step setup s e).1 user = belongings s user := by
  rw [store_step setup s h.steady]
  cases hop : relay.operation? e with
  | none => rfl
  | some op => exact belongings_perform_other hs (operation?_concerns h he hop)

end
end ChatRelay.Relay
