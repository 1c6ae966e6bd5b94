import ChatRelay.Proofs.Batch.Turns
import ChatRelay.Proofs.Relay.History

/-!
# Whatever happens to a relay

Here a relay comes about by any events at all, in any order: the store may fail at every access,
others may put messages back, and handlers may be run besides those of the timer queue. An event is
the turn of one run, or it leaves all runs as they are, one that starts apart.
-/

namespace ChatRelay.Relay
open KeyedLists AnsweredIds

def touch (relay : Relay) : Event → Touch
  | .push i none =>
    match relay.deposits[i]? with
    | some d => (d.phase.left.head?.map (.put d.ticket.user)).getD .none
    | none => .none
  | .run i e =>
    match relay.runs[i]? with
    | some r => r.touch e
    | none => .none
  | _ => .none

def Steady (relay : Relay) : Prop :=
  ∀ {i : Nat} {r : BatchRun}, relay.runs[i]? = some r → r.Steady

section
variable {σ : Type} [Store σ] (setup : Setup) (s : σ) {relay : Relay}

theorem modifyRun_turn {i : Nat} {r : BatchRun} (hr : relay.runs[i]? = some r)
    (f : BatchRun → BatchRun) : (relay.modifyRun i f).runs = relay.runs.set i (f r) :=
  modify_of_getElem? hr f

theorem leaseRun_runs {i : Nat} {r : BatchRun} (hr : relay.runs[i]? = some r) :
    (relay.leaseRun setup i).runs =
      relay.runs.set i (r.leased setup.channels setup.primary relay.leases.issued) := by
  unfold leaseRun
  rw [hr]
  dsimp only
  split
  · exact modify_of_getElem? hr _
  · next hp =>
    have hsame : r.leased setup.channels setup.primary relay.leases.issued = r := by
      unfold BatchRun.leased
      split
      · next batch hq => exact absurd hq (hp batch)
      · rfl
    rw [hsame, set_of_getElem? hr]

theorem releaseRun_runs {i : Nat} {r : BatchRun} (hr : relay.runs[i]? = some r) :
    (relay.releaseRun setup i).runs =
      relay.runs.set i (r.concluded (BatchRun.outputsOf setup)) := by
  unfold releaseRun
  rw [hr]
  dsimp only
  split
  · exact modify_of_getElem? hr _
  · next hp =>
    have hsame : r.concluded (BatchRun.outputsOf setup) = r := by
      unfold BatchRun.concluded
      split
      · next batch lease result hq => exact absurd hq (hp batch lease result)
      · rfl
    rw [hsame, set_of_getElem? hr]

theorem armRun_runs {i : Nat} {r : BatchRun} (hr : relay.runs[i]? = some r) :
    (relay.armRun setup i).runs = relay.runs.set i (if r.isArming then
      r.armed (relay.schedule setup (r.ticket.task setup.debounceMillis)).2 else r) := by
  unfold armRun
  rw [hr]
  dsimp only
  cases hp : r.phase with
  | requeuing batch deposit =>
    simp only [BatchRun.isArming, hp]
    by_cases hd : deposit.phase = .arming
    · obtain ⟨queue, handedOver, outcome, hq, -⟩ :=
        schedule_frame setup relay (r.ticket.task setup.debounceMillis)
      rw [hq]
      simp only [hd, decide_true, if_true]
      exact modify_of_getElem? hr _
    · simp [hd, set_of_getElem? hr]
  | _ => simp [BatchRun.isArming, hp, set_of_getElem? hr]

/-- What the relay says in an event of a run. -/
def circumstances (relay : Relay) (r : BatchRun) : BatchRun.Circumstances where
  calledOff := relay.isCalledOff r
  lease := relay.leases.issued
  armed := (relay.schedule setup (r.ticket.task setup.debounceMillis)).2

/-- An event of a run is its turn. -/
theorem runStep_turn {i : Nat} {r : BatchRun} (hr : relay.runs[i]? = some r) (e : RunEvent) :
    (relay.runStep setup s i e).1 = (r.turn setup (relay.circumstances setup r) s e).1 ∧
      (relay.runStep setup s i e).2.runs =
        relay.runs.set i (r.turn setup (relay.circumstances setup r) s e).2 := by
  cases e with
  | access fault => simp only [runStep, hr, BatchRun.turn, and_self]
  | lease => exact ⟨rfl, leaseRun_runs setup hr⟩
  | enriched slot outcome => exact ⟨rfl, modifyRun_turn hr _⟩
  | compose => exact ⟨rfl, modifyRun_turn hr _⟩
  | generated outcome => exact ⟨rfl, modifyRun_turn hr _⟩
  | delivered slot success => exact ⟨rfl, modifyRun_turn hr _⟩
  | release => exact ⟨rfl, releaseRun_runs setup hr⟩
  | arm => exact ⟨rfl, armRun_runs setup hr⟩
  | notified slot success => exact ⟨rfl, modifyRun_turn hr _⟩

theorem runStep_eq_turn {i : Nat} {r : BatchRun} (hr : relay.runs[i]? = some r) (e : RunEvent) :
    ∃ c : BatchRun.Circumstances, c.calledOff = relay.isCalledOff r ∧
      (relay.runStep setup s i e).1 = (r.turn setup c s e).1 ∧
      (relay.runStep setup s i e).2.runs = relay.runs.set i (r.turn setup c s e).2 :=
  ⟨relay.circumstances setup r, rfl, runStep_turn setup s hr e⟩

theorem runStep_of_none {i : Nat} (hr : relay.runs[i]? = none) (e : RunEvent) :
    relay.runStep setup s i e = (s, relay) := by
  cases e <;> simp only [runStep, leaseRun, releaseRun, armRun, hr, modifyRun_of_none hr]

def started? (relay : Relay) : Event → Option BatchRun
  | .handle payload attempt => some (.ofPayload payload attempt none)
  | .timer (.acquire g) =>
    let queue := relay.queue.acquire g
    if (relay.queue.phase? g).any (·.isRunning) then none
    else if (queue.phase? g).any (·.isRunning) then
      (queue.firing? g).bind fun f =>
        if f.task.key = Ticket.taskKey ∧ relay.combines then
          some (.ofPayload f.task.payload (queue.attempt f) (some g))
        else none
    else none
  | _ => none

/-- Outside of the turns of runs, all that can happen is that a run starts behind the others. -/
theorem runs_step_other {e : Event} (he : ∀ i re, e ≠ .run i re) :
    (relay.step setup s e).2.runs = relay.runs ++ (relay.started? e).toList := by
  have hnil : relay.runs = relay.runs ++ [] := (List.append_nil _).symm
  cases e with
  | push i fault =>
    simp only [step]
    split <;> exact hnil
  | arm i =>
    simp only [step, armDeposit]
    split
    · next d _ =>
      split
      · obtain ⟨queue, handedOver, outcome, hq, -⟩ :=
          schedule_frame setup relay (d.ticket.task setup.debounceMillis)
        rw [hq]
        exact hnil
      · exact hnil
    · exact hnil
  | timer e =>
    cases e with
    | acquire g =>
      have hnext : relay.queue.step (.acquire g) = relay.queue.acquire g := rfl
      simp only [step, timerStep, started?, startRun, hnext]
      split
      · exact hnil
      · split
        · cases (relay.queue.acquire g).firing? g with
          | none => exact hnil
          | some f =>
            dsimp only [Option.bind_some]
            split
            · rfl
            · exact hnil
        · exact hnil
    | finish g outcome =>
      simp only [step, timerStep]
      split <;> exact hnil
    | _ => exact hnil
  | handle payload attempt => rfl
  | run i re => exact absurd rfl (he i re)
  | «return» i =>
    simp only [step, returnRun]
    split
    · split <;> exact hnil
    · exact hnil
  | _ => exact hnil

def Event.startsRun : Event → Bool
  | .handle _ _ | .timer (.acquire _) => true
  | _ => false

theorem of_started? {e : Event} {r : BatchRun} (h : relay.started? e = some r) :
    e.startsRun ∧ ∃ payload attempt firing, r = .ofPayload payload attempt firing := by
  cases e with
  | handle payload attempt => exact ⟨rfl, payload, attempt, none, (Option.some.inj h).symm⟩
  | timer e =>
    cases e with
    | acquire g =>
      refine ⟨rfl, ?_⟩
      simp only [started?] at h
      split at h
      · cases h
      · split at h
        · obtain ⟨f, -, h⟩ := Option.bind_eq_some_iff.mp h
          split at h
          · exact ⟨_, _, _, (Option.some.inj h).symm⟩
          · cases h
        · cases h
    | _ => cases h
  | _ => cases h

theorem step_runs {e : Event} (he : ∀ i re, e ≠ .run i re) :
    (relay.step setup s e).2.runs = relay.runs ∨
      e.startsRun ∧ ∃ payload attempt firing,
        (relay.step setup s e).2.runs = relay.runs ++ [.ofPayload payload attempt firing] := by
  rw [runs_step_other setup s he]
  cases hr : relay.started? e with
  | none => exact .inl (List.append_nil _)
  | some r =>
    obtain ⟨hstarts, payload, attempt, firing, rfl⟩ := of_started? hr
    exact .inr ⟨hstarts, payload, attempt, firing, rfl⟩

end

/-- Where a run comes from that is there after an event. -/
inductive Onward {σ : Type} [Store σ] (setup : Setup) (s : σ) (relay : Relay) (e : Event) (i : Nat)
    (r' : BatchRun) : Prop
  | turned {r : BatchRun} {re : RunEvent} (c : BatchRun.Circumstances) (he : e = .run i re)
      (hr : relay.runs[i]? = some r) (hc : c.calledOff = relay.isCalledOff r)
      (hs : (relay.step setup s e).1 = (r.turn setup c s re).1) (hr' : r' = (r.turn setup c s re).2)
  | stayed (he : ∀ re, e ≠ .run i re) (hr : relay.runs[i]? = some r')
  | started (payload : Json) (attempt : Timer.Attempt) (firing : Option Nat)
      (he : ∀ j re, e ≠ .run j re) (hr : relay.runs[i]? = none)
      (hr' : r' = .ofPayload payload attempt firing)

section
variable {σ : Type} [Store σ] {setup : Setup} {s : σ} {relay : Relay} {e : Event}

theorem onward {i : Nat} {r' : BatchRun} (hr' : (relay.step setup s e).2.runs[i]? = some r') :
    Onward setup s relay e i r' := by
  by_cases he : ∃ j re, e = .run j re
  · obtain ⟨j, re, rfl⟩ := he
    cases hr : relay.runs[j]? with
    | none =>
      rw [step, runStep_of_none setup s hr] at hr'
      refine .stayed (fun re' heq => ?_) hr'
      obtain ⟨rfl, -⟩ := Event.run.inj heq
      rw [hr] at hr'
      cases hr'
    | some r =>
      obtain ⟨c, hc, hs, hruns⟩ := runStep_eq_turn setup s hr re
      rw [step, hruns] at hr'
      rcases getElem?_set_cases hr' with ⟨rfl, rfl⟩ | ⟨hne, hold⟩
      · exact .turned c rfl hr hc hs rfl
      · exact .stayed (fun re' heq => hne (Event.run.inj heq).1.symm) hold
  · -- nobody's turn, so all that can have happened is that a run started behind the others
    have hne : ∀ j re, e ≠ .run j re := fun j re heq => he ⟨j, re, heq⟩
    rcases step_runs setup s hne with hruns | ⟨-, payload, attempt, firing, hruns⟩
    · exact .stayed (hne i) (hruns ▸ hr')
    · rw [hruns, List.getElem?_append] at hr'
      split at hr'
      · exact .stayed (hne i) hr'
      · next hlen =>
        refine .started payload attempt firing hne (List.getElem?_eq_none (by omega)) ?_
        exact List.mem_singleton.mp (List.mem_of_getElem? hr')

variable [LawfulStore σ]

theorem Steady.step (hst : relay.Steady) : (relay.step setup s e).2.Steady := by
  intro i r' hr'
  cases onward hr' with
  | turned c he hr hc hs hr' => exact hr' ▸ (BatchRun.turns_turn c (hst hr) _).steady (hst hr)
  | stayed he hr => exact hst hr
  | started payload attempt firing he hr hr' => exact hr' ▸ BatchRun.steady_ofPayload ..

variable (setup s) in
theorem run_stays (hst : relay.Steady) (e : Event) {i : Nat} {r : BatchRun}
    (hr : relay.runs[i]? = some r) :
    ∃ r', (relay.step setup s e).2.runs[i]? = some r' ∧ r'.ticket = r.ticket := by
  have hlen : i < (relay.step setup s e).2.runs.length := by
    have hold := (List.getElem?_eq_some_iff.mp hr).1
    by_cases he : ∃ j re, e = .run j re
    · obtain ⟨j, re, rfl⟩ := he
      cases hj : relay.runs[j]? with
      | none => rwa [step, runStep_of_none setup s hj]
      | some r₀ =>
        obtain ⟨c, -, -, hruns⟩ := runStep_eq_turn setup s hj re
        rwa [step, hruns, List.length_set]
    · have hne : ∀ j re, e ≠ .run j re := fun j re heq => he ⟨j, re, heq⟩
      rcases step_runs setup s hne with hruns | ⟨-, payload, attempt, firing, hruns⟩
      · rwa [hruns]
      · rw [hruns, List.length_append]
        exact Nat.lt_add_right _ hold
  have hr' := List.getElem?_eq_getElem hlen
  refine ⟨_, hr', ?_⟩
  cases onward hr' with
  | turned c he hr₀ hc hs heq =>
    obtain rfl := Option.some.inj (hr.symm.trans hr₀)
    rw [heq]
    exact (BatchRun.turns_turn c (hst hr) _).frame.1
  | stayed he hr₀ => rw [Option.some.inj (hr.symm.trans hr₀)]
  | started payload attempt firing he hnone heq =>
    rw [hr] at hnone
    cases hnone

/-- What becomes of the store. Outside of the turns of runs, deposits are all that uses it. -/
inductive Stores (setup : Setup) (s : σ) (relay : Relay) : Event → σ → Prop
  | same {e : Event} (ht : relay.touch e = .none) : Stores setup s relay e s
  | turned {i : Nat} {r r' : BatchRun} {re : RunEvent} {s' : σ} (hr : relay.runs[i]? = some r)
      (ht : r.Turns setup s re s' r') : Stores setup s relay (.run i re) s'
  | put {i : Nat} {d : Deposit} {m : Pending} {left : List Pending}
      (hd : relay.deposits[i]? = some d) (hp : d.phase = .pushing (m :: left)) :
      Stores setup s relay (.push i none) (Pending.push s d.ticket.user m)

theorem stores_push (i : Nat) (fault : Option StoreError) :
    Stores setup s relay (.push i fault) (relay.step setup s (.push i fault)).1 := by
  cases hd : relay.deposits[i]? with
  | none =>
    simp only [step, hd]
    exact .same (by cases fault <;> simp [touch, hd])
  | some d =>
    simp only [step, hd]
    unfold Deposit.push
    split
    · next m left hp =>
      cases fault with
      | none => exact .put hd hp
      | some cause => exact .same rfl
    · next hp =>
      refine .same ?_
      cases fault with
      | none =>
        have hleft : d.phase.left = [] := by
          cases hq : d.phase with
          | pushing left =>
            cases left with
            | nil => rfl
            | cons m left => exact absurd hq (hp m left)
          | _ => rfl
        simp [touch, hd, hleft]
      | some cause => rfl

theorem stores_step (hst : relay.Steady) (e : Event) :
    Stores setup s relay e (relay.step setup s e).1 := by
  cases e with
  | push i fault => exact stores_push i fault
  | run i re =>
    cases hr : relay.runs[i]? with
    | none =>
      rw [step, runStep_of_none setup s hr]
      exact .same (by simp [touch, hr])
    | some r =>
      obtain ⟨c, -, hs, -⟩ := runStep_eq_turn setup s hr re
      rw [step, hs]
      exact .turned hr (BatchRun.turns_turn c (hst hr) re)
  | _ => exact .same rfl

variable {s' : σ}

theorem Stores.sound (h : Stores setup s relay e s') (hs : LawfulStore.Sound s) :
    LawfulStore.Sound s' := by
  cases h with
  | same ht => exact hs
  | turned hr ht => exact ht.sound hs
  | put hd hp => exact LawfulStore.sound_append _ _ hs

theorem Stores.marked_stays (h : Stores setup s relay e s') {user id : String}
    (hm : Marked s user id) : Marked s' user id := by
  cases h with
  | same ht => exact hm
  | turned hr ht => exact ht.marked_stays hm
  | put hd hp => exact marked_push.mpr hm

theorem Stores.texts (h : Stores setup s relay e s') (hs : LawfulStore.Sound s) (user : String) :
    KeyedLists.texts s' (Pending.listKey user) =
      (relay.touch e).on user (KeyedLists.texts s (Pending.listKey user)) := by
  cases h with
  | same ht =>
    rw [ht]
    rfl
  | turned hr ht =>
    rw [ht.texts hs]
    simp only [touch, hr]
  | put hd hp =>
    rw [texts_put hs]
    simp [touch, hd, hp, Deposit.Phase.left]

end

/-! ## How it comes about -/

section
variable {σ : Type} [Store σ]

/-- The relay comes about by any events, with its store and its history. -/
inductive Occurs (setup : Setup) (s₀ : σ) (policy : RetryPolicy) : History → σ → Relay → Prop
  | fresh : Occurs setup s₀ policy [] s₀ (Relay.fresh policy)
  | step {h : History} {s : σ} {relay : Relay} (e : Event)
      (ho : Occurs setup s₀ policy h s relay) :
      Occurs setup s₀ policy (⟨relay, e, (relay.step setup s e).2⟩ :: h) (relay.step setup s e).1
        (relay.step setup s e).2

theorem Occurs.replay {setup : Setup} {s₀ s : σ} {policy : RetryPolicy} {h : History}
    {relay : Relay} (ho : Occurs setup s₀ policy h s relay) (es : List Event) :
    Occurs setup s₀ policy (Relay.replay setup es h s relay).1 (Relay.replay setup es h s relay).2.1
      (Relay.replay setup es h s relay).2.2 := by
  induction es generalizing h s relay with
  | nil => exact ho
  | cons e es ih => exact ih (ho.step e)

theorem Comes.occurs {setup : Setup} {s₀ s : σ} {policy : RetryPolicy} {h : History}
    {relay : Relay} (hc : Comes setup s₀ policy h s relay) :
    Occurs setup s₀ policy h s relay := by
  induction hc with
  | fresh => exact .fresh
  | step hc ha ih => exact .step _ ih

theorem occurs_course (setup : Setup) (s₀ : σ) (policy : RetryPolicy) (es : List Event) :
    Occurs setup s₀ policy (course setup s₀ policy es).1 (course setup s₀ policy es).2.1
      (course setup s₀ policy es).2.2 := Occurs.fresh.replay es

variable {setup : Setup} {s₀ s : σ} {policy : RetryPolicy} {h : History} {relay : Relay}
  [LawfulStore σ]

theorem Occurs.steady (ho : Occurs setup s₀ policy h s relay) : relay.Steady := by
  induction ho with
  | fresh => simp [Steady, Relay.fresh]
  | step e ho ih => exact ih.step

theorem Occurs.sound (ho : Occurs setup s₀ policy h s relay) (hs : LawfulStore.Sound s₀) :
    LawfulStore.Sound s := by
  induction ho with
  | fresh => exact hs
  | step e ho ih => exact (stores_step ho.steady e).sound ih

end

end ChatRelay.Relay
