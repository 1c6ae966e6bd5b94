import ChatRelay.Proofs.Users.Effects

/-!
# Parts keep step

An event that concerns a user does to the relay and the store, as far as the user can see, what it
does to their part of the relay over any store in which they have the same; and the relay says the
same for them in both.
-/

namespace ChatRelay.Relay
open Timer

def sayings (setup : Setup) (relay relay' : Relay) : Event → List Saying
  | .run i _ =>
    match relay.runs[i]?, relay'.runs[i]? with
    | some r, some r' => r.sayings setup r'
    | _, _ => []
  | _ => []

def operation? (relay : Relay) : Event → Option Store.Operation
  | .push i none => (relay.deposits[i]?).bind fun d =>
    d.phase.left.head?.map fun m => .append (Pending.listKey d.ticket.user) m.encode
  | .run i e => (relay.runs[i]?).bind (·.operation? e)
  | _ => none

section
variable {σ : Type} [Store σ] (setup : Setup) (s s' : σ) {relay : Relay} {user : String}

/-! ## Names of what there was -/

theorem place_next {g : Nat} {f : Firing} (hf : relay.queue.firing? g = some f) (e : Event)
    (id : String) :
    (relay.step setup s e).2.queue.place id g = relay.queue.place id g := by
  rw [queue_step]
  cases relay.queueEvent? setup e with
  | none => rfl
  | some qe => exact Queue.place_step hf qe

theorem place_next_part {g : Nat} {f : Firing} (hf : relay.queue.firing? g = some f)
    (hid : f.task.dedupId = Ticket.dedupId user) (e : Event) :
    ((relay.part user).step setup s e).2.queue.place (Ticket.dedupId user)
      (relay.queue.place (Ticket.dedupId user) g) = relay.queue.place (Ticket.dedupId user) g :=
  (place_next setup s (Queue.firing?_part hf hid) e _).trans (Queue.place_place g)

theorem code_next (h : relay.Shared) {e : Event} (he : e.concerns relay user) {lease : Nat}
    (hof : relay.leases.IsOf user lease) :
    (relay.step setup s e).2.leases.code user lease =
      ((relay.part user).step setup s' (e.relative relay user)).2.leases.code user
        (relay.leases.code user lease) := by
  rw [leases_step, leases_step, leaseEvent?_part he]
  cases relay.leaseEvent? e with
  | none => exact Leases.code_part.symm
  | some le => exact Leases.code_step h.keys hof le

/-- The next lease is live in both. -/
theorem code_next_lease (h : relay.Shared) {e : Event} (he : e.concerns relay user)
    (hle : relay.leaseEvent? e = some (.register user)) :
    (relay.step setup s e).2.leases.code user relay.leases.issued =
      ((relay.part user).step setup s' (e.relative relay user)).2.leases.code user
        (relay.part user).leases.issued := by
  rw [leases_step, leases_step, leaseEvent?_part he, hle]
  exact (Leases.code_register (next_lease_of_course h.course user)).trans
    Leases.code_register_part.symm

/-- A run that there was is seen afterwards as it was seen before. -/
theorem seen_next (h : relay.Shared) {e : Event} (he : e.concerns relay user) {i : Nat}
    {r : BatchRun} (hr : relay.runs[i]? = some r) (hof : r.isOf user) :
    (relay.step setup s e).2.seen user r =
      ((relay.part user).step setup s' (e.relative relay user)).2.seen user
        (relay.seen user r) := by
  have hu : r.ticket.user = user := of_decide_eq_true hof
  rw [seen, seen, seen, BatchRun.renamed_renamed]
  refine BatchRun.renamed_congr (fun g hg => ?_) fun lease hl => ?_
  · obtain ⟨f, hf, hid⟩ := h.housed hr hg
    exact (place_next setup s hf e _).trans (place_next_part setup s' hf (hu ▸ hid) _).symm
  · exact code_next setup s s' h he (hu ▸ h.isOf_of_run hr hl)

/-! ## Runs -/

theorem steady_seen {r : BatchRun} (hr : r.Steady) : (relay.seen user r).Steady :=
  BatchRun.steady_renamed.mpr hr

theorem isCalledOff_part (r : BatchRun) :
    (relay.part user).isCalledOff (relay.seen user r) = relay.isCalledOff r := by
  rw [isCalledOff, isCalledOff, seen, BatchRun.lease?_renamed]
  cases r.lease? with
  | none => rfl
  | some lease => exact Leases.isCancelled_part

theorem firing_of_started? {e : Event} {r : BatchRun} {g : Nat} (h : relay.started? e = some r)
    (hg : r.firing = some g) : e = .timer (.acquire g) := by
  have hfiring : ∀ payload attempt firing,
      (BatchRun.ofPayload payload attempt firing).firing = firing := by
    intro payload attempt firing
    unfold BatchRun.ofPayload
    split <;> rfl
  cases e with
  | handle payload attempt =>
    obtain rfl := Option.some.inj h
    rw [hfiring] at hg
    cases hg
  | timer e =>
    cases e with
    | acquire k =>
      simp only [started?] at h
      split at h
      · cases h
      · split at h
        · obtain ⟨f, -, h⟩ := Option.bind_eq_some_iff.mp h
          split at h
          · obtain rfl := Option.some.inj h
            rw [hfiring] at hg
            rw [Option.some.inj hg]
          · cases h
        · cases h
    | _ => cases h
  | _ => cases h

theorem lease?_of_started? {e : Event} {r : BatchRun} (h : relay.started? e = some r) :
    r.lease? = none := by
  obtain ⟨-, payload, attempt, firing, rfl⟩ := of_started? h
  unfold BatchRun.ofPayload
  split <;> rfl

/-- A run that starts is seen as one that starts for the user. -/
theorem seen_started {e : Event} (he : e.concerns relay user) {r : BatchRun}
    (hr : relay.started? e = some r) (code : Nat → Nat) :
    (relay.step setup s e).2.seen user r =
      ((relay.part user).step setup s' (e.relative relay user)).2.seen user
        (r.renamed (relay.queue.place (Ticket.dedupId user)) code) := by
  rw [seen, seen, BatchRun.renamed_renamed]
  refine BatchRun.renamed_congr (fun g hg => ?_) fun lease hl => ?_
  · obtain rfl := firing_of_started? hr hg
    obtain ⟨f, hf, hof⟩ := of_any he
    have hid := Queue.isOf_iff.mp hof
    exact (place_next setup s hf _ _).trans (place_next_part setup s' hf hid _).symm
  · rw [lease?_of_started? hr] at hl
    cases hl

/-! ## The store -/

/-- What an event does to the store is one operation at most. -/
theorem store_step (hst : relay.Steady) (e : Event) :
    (relay.step setup s e).1 =
      (relay.operation? e).elim s fun op => (Store.perform s op).2 := by
  cases e with
  | push i fault =>
    cases hd : relay.deposits[i]? with
    | none => cases fault <;> simp [step, operation?, hd]
    | some d =>
      obtain ⟨ticket, messages, phase⟩ := d
      simp only [step, hd, operation?]
      cases fault with
      | some cause =>
        cases phase with
        | pushing left => cases left <;> rfl
        | _ => rfl
      | none =>
        simp only [hd, Option.bind_some]
        cases phase with
        | pushing left => cases left <;> rfl
        | _ => rfl
  | run i e =>
    cases hr : relay.runs[i]? with
    | none =>
      rw [step, runStep_of_none setup s hr, operation?, hr]
      rfl
    | some r =>
      rw [step, (runStep_turn setup s hr e).1, BatchRun.turn_store (hst hr), operation?, hr]
      rfl
  | _ => rfl

theorem operation?_part {e : Event} (he : e.concerns relay user) :
    (relay.part user).operation? (e.relative relay user) = relay.operation? e := by
  cases e with
  | push i fault =>
    obtain ⟨d, hd, hof⟩ := of_any he
    cases fault with
    | none => simp only [operation?, Event.relative, deposit_part hd hof, hd]
    | some cause => rfl
  | run i e =>
    obtain ⟨r, hr, hof⟩ := of_any he
    simp only [operation?, Event.relative, run_part hr hof, hr, Option.bind_some]
    exact BatchRun.operation?_renamed e
  | _ => rfl

theorem Steady.part (hst : relay.Steady) (user : String) : (relay.part user).Steady := by
  intro i r' hr'
  obtain ⟨r, hmem, rfl⟩ := List.mem_map.mp (List.mem_of_getElem? hr')
  obtain ⟨k, hr⟩ := List.mem_iff_getElem?.mp (List.mem_filter.mp hmem).1
  exact steady_seen (hst hr)

/-! ## Turns -/

theorem sayings_seen {relay' : Relay} {r r' : BatchRun} :
    (relay.seen user r).sayings setup (relay'.seen user r') = r.sayings setup r' :=
  BatchRun.sayings_renamed r'

theorem sayings_run {i : Nat} {r : BatchRun} (hr : relay.runs[i]? = some r) (re : RunEvent) :
    relay.sayings setup (relay.step setup s (.run i re)).2 (.run i re) =
      r.sayings setup (r.turn setup (relay.circumstances setup r) s re).2 := by
  have hnext : (relay.step setup s (.run i re)).2.runs[i]? =
      some (r.turn setup (relay.circumstances setup r) s re).2 := by
    rw [step, (runStep_turn setup s hr re).2]
    exact List.getElem?_set_self (List.getElem?_eq_some_iff.mp hr).1
  simp only [sayings, hr, hnext]

variable [LawfulStore σ] [SeparateStore σ]

theorem seen_turn (h : relay.Shared) (hstore : belongings s user = belongings s' user) {i : Nat}
    {r : BatchRun} (hr : relay.runs[i]? = some r) (hof : r.isOf user) (re : RunEvent) :
    (relay.step setup s (.run i re)).2.seen user
        (r.turn setup (relay.circumstances setup r) s re).2 =
      ((relay.part user).step setup s' ((Event.run i re).relative relay user)).2.seen user
        ((relay.seen user r).turn setup
          ((relay.part user).circumstances setup (relay.seen user r)) s' re).2 := by
  have hu : r.ticket.user = user := of_decide_eq_true hof
  have he : (Event.run i re).concerns relay user := by
    rw [Event.concerns, hr]
    exact hof
  let c := relay.circumstances setup r
  let c' := (relay.part user).circumstances setup (relay.seen user r)
  let next := (relay.step setup s (.run i re)).2
  let next' := ((relay.part user).step setup s' ((Event.run i re).relative relay user)).2
  have hcalledOff : c'.calledOff = c.calledOff := isCalledOff_part r
  have harmed : c'.armed = c.armed := schedule_part_outcome setup _
  have hsame : ∀ lease, { c' with lease := lease } = { c with lease := lease } := by
    intro lease
    rw [hcalledOff, harmed]
  have hlease : ∀ other, (next'.seen user (relay.seen user r)).leaseEvent? re =
      some (.register other) →
      next.leases.code user c.lease = next'.leases.code user c'.lease := by
    intro other hle
    rw [seen, seen, BatchRun.renamed_renamed, BatchRun.leaseEvent?_renamed] at hle
    obtain ⟨le, hle, hrenamed⟩ := Option.map_eq_some_iff.mp hle
    have hregister : le = .register r.ticket.user := by
      rcases leaseEvent?_of_run hle with ⟨batch, -, rfl⟩ | ⟨own, rfl⟩
      · rfl
      · cases hrenamed
    refine code_next_lease setup s s' h he ?_
    rw [leaseEvent?, hr, Option.bind_some, hle, hregister, hu]
  calc next.seen user (r.turn setup c s re).2
      = ((next.seen user r).turn setup { c with lease := next.leases.code user c.lease } s' re).2 :=
        BatchRun.renamed_turn (hu ▸ hstore) c re
    _ = ((next'.seen user (relay.seen user r)).turn setup
          { c' with lease := next.leases.code user c.lease } s' re).2 := by
        rw [seen_next setup s s' h he hr hof, hsame]
    _ = ((next'.seen user (relay.seen user r)).turn setup
          { c' with lease := next'.leases.code user c'.lease } s' re).2 :=
        congrArg Prod.snd (BatchRun.turn_congr_lease c' hlease)
    _ = next'.seen user ((relay.seen user r).turn setup c' s' re).2 :=
        (BatchRun.renamed_turn rfl c' re).symm

/-- The runs that are there afterwards are seen alike. -/
theorem runs_part (h : relay.Shared) (hstore : belongings s user = belongings s' user) {e : Event}
    (he : e.concerns relay user) :
    Places.share (BatchRun.isOf user) ((relay.step setup s e).2.seen user)
        (relay.step setup s e).2.runs =
      Places.share (BatchRun.isOf user)
        (((relay.part user).step setup s' (e.relative relay user)).2.seen user)
        ((relay.part user).step setup s' (e.relative relay user)).2.runs := by
  have hseen : ∀ r ∈ relay.runs, BatchRun.isOf user r → BatchRun.isOf user (relay.seen user r) :=
    fun _ _ hof => hof
  -- the runs that there were
  have hold : Places.share (BatchRun.isOf user) ((relay.step setup s e).2.seen user) relay.runs =
      Places.share (BatchRun.isOf user)
        (((relay.part user).step setup s' (e.relative relay user)).2.seen user)
        (relay.part user).runs := by
    refine Eq.trans (Places.share_congr fun r hmem hof => ?_)
      (Places.share_share hseen).symm
    obtain ⟨i, hr⟩ := List.mem_iff_getElem?.mp hmem
    exact seen_next setup s s' h he hr hof
  by_cases hrun : ∃ i re, e = .run i re
  · obtain ⟨i, re, rfl⟩ := hrun
    obtain ⟨r, hr, hof⟩ := of_any he
    have hruns := (runStep_turn setup s hr re).2
    have hruns' := (runStep_turn setup s' (run_part hr hof) re).2
    have hof' : BatchRun.isOf user (r.turn setup (relay.circumstances setup r) s re).2 := by
      rw [BatchRun.isOf, (BatchRun.turns_turn _ (h.steady hr) re).frame.1]
      exact hof
    have hrank : Places.rank (BatchRun.isOf user) (relay.part user).runs
        (Places.rank (BatchRun.isOf user) relay.runs i) =
          Places.rank (BatchRun.isOf user) relay.runs i :=
      Places.rank_share hseen (Places.rank_le ..)
    have hof'' : BatchRun.isOf user ((relay.seen user r).turn setup
        ((relay.part user).circumstances setup (relay.seen user r)) s' re).2 := by
      rw [BatchRun.isOf, (BatchRun.turns_turn _ (steady_seen (h.steady hr)) re).frame.1]
      exact hof
    have hfirst := Places.share_set (v := (relay.step setup s (.run i re)).2.seen user) hr hof hof'
    have hsecond := Places.share_set
      (v := ((relay.part user).step setup s' ((Event.run i re).relative relay user)).2.seen user)
      (run_part hr hof) hof hof''
    rw [seen_turn setup s s' h hstore hr hof re, hold] at hfirst
    rw [hrank] at hsecond
    exact ((congrArg _ hruns).trans hfirst).trans ((congrArg _ hruns').trans hsecond).symm
  · have hne : ∀ i re, e ≠ .run i re := fun i re heq => hrun ⟨i, re, heq⟩
    have hne' : ∀ i re, e.relative relay user ≠ .run i re := by
      intro i re heq
      cases e <;> first | exact hne _ _ rfl | cases heq
    have hstarted := started?_part h he (relay.leases.code user)
    rw [runs_step_other setup s hne, runs_step_other setup s' hne', Places.share_append,
      Places.share_append, hold, hstarted]
    refine congrArg _ ?_
    cases hr : relay.started? e with
    | none => rfl
    | some r =>
      have hof : BatchRun.isOf user (r.renamed (relay.queue.place (Ticket.dedupId user))
        (relay.leases.code user)) = r.isOf user := rfl
      simp only [Option.map_some, Option.toList_some, Places.share, List.filter_cons, hof]
      split
      · exact congrArg (fun r => [r]) (seen_started setup s s' he hr _)
      · rfl

/-! ## The part -/

theorem part_eq_of {relay' : Relay}
    (hqueue : relay.queue.part (Ticket.dedupId user) = relay'.queue.part (Ticket.dedupId user))
    (hleases : relay.leases.part user = relay'.leases.part user)
    (hdeposits : Places.share (Deposit.isOf user) id relay.deposits =
      Places.share (Deposit.isOf user) id relay'.deposits)
    (hruns : Places.share (BatchRun.isOf user) (relay.seen user) relay.runs =
      Places.share (BatchRun.isOf user) (relay'.seen user) relay'.runs)
    (hhanded : relay.handedOver.filter (·.dedupId = Ticket.dedupId user) =
      relay'.handedOver.filter (·.dedupId = Ticket.dedupId user))
    (hcombines : relay.combines = relay'.combines) : relay.part user = relay'.part user := by
  rw [part, part, hqueue, hleases, hdeposits, hruns, hhanded, hcombines]

/-- What an event makes of a part depends on the part, and on what is in the store. -/
theorem part_step (h : relay.Shared) (hstore : belongings s user = belongings s' user) {e : Event}
    (he : e.concerns relay user) :
    (relay.step setup s e).2.part user =
      ((relay.part user).step setup s' (e.relative relay user)).2.part user := by
  refine part_eq_of (queue_part setup s s' h he) (leases_part setup s s' h he) ?_
    (runs_part setup s s' h hstore he) ?_ ?_
  · have hof : ∀ d ∈ (relay.step setup s e).2.deposits, Deposit.isOf user d →
        Deposit.isOf user (id d) := fun _ _ hof => hof
    rw [deposits_part setup s s' he]
    exact (Places.share_share (w := id) hof).symm
  · rw [handedOver_part setup s s' he, List.filter_filter]
    simp only [Bool.and_self]
  · rw [combines_step, combines_step]
    rfl

/-! ## The belongings -/

/-- What an event makes of belongings depends on them, and on the part. -/
theorem belongings_step (h : relay.Shared) (hs : LawfulStore.Sound s) (hs' : LawfulStore.Sound s')
    (hstore : belongings s user = belongings s' user) {e : Event} (he : e.concerns relay user) :
    belongings (relay.step setup s e).1 user =
      belongings ((relay.part user).step setup s' (e.relative relay user)).1 user := by
  rw [store_step setup s h.steady, store_step setup s' (Steady.part h.steady user),
    operation?_part he]
  cases relay.operation? e with
  | none => exact hstore
  | some op => exact belongings_perform hs hs' hstore op

/-! ## What is said -/

/-- For the user the relay says the same. -/
theorem sayings_part (h : relay.Shared) (hstore : belongings s user = belongings s' user)
    {e : Event} (he : e.concerns relay user) :
    relay.sayings setup (relay.step setup s e).2 e =
      (relay.part user).sayings setup
        ((relay.part user).step setup s' (e.relative relay user)).2 (e.relative relay user) := by
  cases e with
  | run i re =>
    obtain ⟨r, hr, hof⟩ := of_any he
    let next := (relay.step setup s (.run i re)).2
    let next' := ((relay.part user).step setup s' ((Event.run i re).relative relay user)).2
    let r' := (r.turn setup (relay.circumstances setup r) s re).2
    let part' := ((relay.seen user r).turn setup
      ((relay.part user).circumstances setup (relay.seen user r)) s' re).2
    calc relay.sayings setup next (.run i re)
        = r.sayings setup r' := sayings_run setup s hr re
      _ = (next.seen user r).sayings setup (next.seen user r') := (sayings_seen setup).symm
      _ = (next'.seen user (relay.seen user r)).sayings setup (next'.seen user part') :=
          congrArg₂ _ (seen_next setup s s' h he hr hof)
            (seen_turn setup s s' h hstore hr hof re)
      _ = (relay.seen user r).sayings setup part' := sayings_seen setup
      _ = _ := (sayings_run setup s' (run_part hr hof) re).symm
  | _ => rfl

end
end ChatRelay.Relay
