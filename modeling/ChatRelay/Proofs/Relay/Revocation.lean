import ChatRelay.Proofs.Relay.CallingOff
import ChatRelay.Proofs.Relay.Manning

/-!
# What calls a run off

The lease of a run is no other's, and while it is live no other run of the user takes one, as long
as runs are left to the timer queue. So only a notice of the user calls a run off, or the end of all
leases, and a notice calls off one run at most.
-/

namespace ChatRelay.Relay

/-- The lease is cancelled under which the run in this place executes its batch. -/
structure Transition.CallsOff (t : Transition) (i : Nat) (r : BatchRun) (lease : Nat) : Prop where
  run : t.before.runs[i]? = some r
  held : r.lease? = some lease
  before : t.before.leases.isCancelled lease = false
  after : t.after.leases.isCancelled lease

section
variable {σ : Type} [Store σ] {setup : Setup} {s₀ s : σ} {policy : RetryPolicy} {h : History}
  {relay : Relay}

theorem Occurs.of_mem (ho : Occurs setup s₀ policy h s relay) {t : Transition} (ht : t ∈ h) :
    ∃ after before s', h = after ++ t :: before ∧ Occurs setup s₀ policy before s' t.before ∧
      t.after = (t.before.step setup s' t.event).2 := by
  induction ho with
  | fresh => cases ht
  | @step h s relay e ho ih =>
    rcases List.mem_cons.mp ht with rfl | ht
    · exact ⟨[], h, s, rfl, ho, rfl⟩
    · obtain ⟨after, before, s', rfl, hbefore, hafter⟩ := ih ht
      exact ⟨_ :: after, before, s', rfl, hbefore, hafter⟩

/-! ## The leases of runs -/

/-- What a run does that takes its lease. -/
theorem step_lease {i : Nat} {r : BatchRun} {batch : List Pending} (hr : relay.runs[i]? = some r)
    (hp : r.phase = .leasing batch) :
    (relay.step setup s (.run i .lease)).2 = { relay with
      leases := (relay.leases.register r.ticket.user).1
      runs := relay.runs.set i
        (r.leased setup.channels setup.primary relay.leases.issued) } := by
  simp only [step, runStep, leaseRun, hr, hp, modifyRun]
  rw [modify_of_getElem? hr]
  rfl

theorem issued_step (e : Event) :
    relay.leases.issued ≤ (relay.step setup s e).2.leases.issued := by
  rw [leases_step]
  cases relay.leaseEvent? e with
  | none => exact Nat.le_refl _
  | some le =>
    change _ ≤ (relay.leases.step le).issued
    rw [Leases.issued_step]
    exact Nat.le_add_right _ _

/-- Leases have been given out one by one: that of a run is no other's. -/
structure Leased (relay : Relay) : Prop where
  issued : ∀ {i : Nat} {r : BatchRun} {lease : Nat}, relay.runs[i]? = some r →
    r.lease? = some lease → lease < relay.leases.issued
  single : ∀ {i j : Nat} {r r' : BatchRun} {lease : Nat}, relay.runs[i]? = some r →
    relay.runs[j]? = some r' → r.lease? = some lease → r'.lease? = some lease → i = j

/-- Where the lease of a run comes from. -/
theorem lease?_from [LawfulStore σ] (hst : relay.Steady) {e : Event} {i : Nat} {r' : BatchRun}
    {lease : Nat} (hr' : (relay.step setup s e).2.runs[i]? = some r')
    (hl : r'.lease? = some lease) :
    (∃ r, relay.runs[i]? = some r ∧ r.ticket = r'.ticket ∧ r.lease? = some lease) ∨
      e = .run i .lease ∧ lease = relay.leases.issued ∧
        ∃ user, (relay.step setup s e).2.leases = (relay.leases.register user).1 := by
  cases onward hr' with
  | @turned r re c he hr hc hs heq =>
    subst heq
    have hturn : r.Turns setup s re _ _ := BatchRun.turns_turn c (hst hr) re
    have hex : ∃ batch x, (r.turn setup c s re).2.phase = .executing batch lease x := by
      unfold BatchRun.lease? at hl
      split at hl
      · next batch own x hp =>
        obtain rfl := Option.some.inj hl
        exact ⟨batch, x, hp⟩
      · cases hl
    obtain ⟨batch, x, hp'⟩ := hex
    rcases hturn.executing_of hp' with ⟨rfl, hp⟩ | ⟨x₀, hp⟩
    · -- the lease is the next one that is given out
      subst he
      refine .inr ⟨rfl, ?_, r.ticket.user, by rw [step_lease hr hp]⟩
      · rw [step_lease hr hp] at hr'
        rw [List.getElem?_set_self (List.getElem?_eq_some_iff.mp hr).1] at hr'
        rw [← Option.some.inj hr'] at hl
        simpa [BatchRun.leased, hp, BatchRun.lease?] using hl.symm
    · exact .inl ⟨r, hr, hturn.frame.1.symm, by simp [BatchRun.lease?, hp]⟩
  | stayed he hr => exact .inl ⟨r', hr, rfl, hl⟩
  | started payload attempt firing he hr heq =>
    subst heq
    unfold BatchRun.ofPayload at hl
    split at hl <;> cases hl

theorem Leased.step [LawfulStore σ] (hrelay : relay.Leased) (hst : relay.Steady) (e : Event) :
    (relay.step setup s e).2.Leased := by
  constructor
  · intro i r' lease hr' hl
    rcases lease?_from hst hr' hl with ⟨r, hr, -, hold⟩ | ⟨-, rfl, user, hnext⟩
    · exact Nat.lt_of_lt_of_le (hrelay.issued hr hold) (issued_step e)
    · rw [hnext]
      exact Nat.lt_succ_self _
  · intro i j r r' lease hr hr' hl hl'
    rcases lease?_from hst hr hl with ⟨q, hq, -, hold⟩ | ⟨hei, heq, -⟩
    · rcases lease?_from hst hr' hl' with ⟨q', hq', -, hold'⟩ | ⟨-, rfl, -⟩
      · exact hrelay.single hq hq' hold hold'
      · exact absurd (hrelay.issued hq hold) (Nat.lt_irrefl _)
    · rcases lease?_from hst hr' hl' with ⟨q', hq', -, hold'⟩ | ⟨hej, -, -⟩
      · subst heq
        exact absurd (hrelay.issued hq' hold') (Nat.lt_irrefl _)
      · exact (Event.run.inj (hei.symm.trans hej)).1

theorem Occurs.leased [LawfulStore σ] (ho : Occurs setup s₀ policy h s relay) : relay.Leased := by
  induction ho with
  | fresh => exact ⟨by simp [Relay.fresh], by simp [Relay.fresh]⟩
  | step e ho ih => exact ih.step ho.steady e

/-- Of the next lease nothing has been heard. -/
theorem next_lease_of_course {leases : Leases} (h : ∃ es, leases = Leases.course es)
    (user : String) : (leases.register user).1.isCancelled leases.issued = false := by
  obtain ⟨es, rfl⟩ := h
  have hlt : ∀ {es' : List Leases.Event} {user : String} {lease : Nat},
      Leases.Holds es' user lease → lease < (Leases.holders es').length := fun hholds =>
    (List.getElem?_eq_some_iff.mp hholds.holder).1
  apply Bool.eq_false_of_not_eq_true
  intro hc
  rw [Leases.isCancelled_register, Leases.issued_course, Leases.isCancelled_course,
    Leases.get?_live_course] at hc
  rcases hc with ⟨before, e, after, holder, heq, hholds, -⟩ | hholds
  · have hle : (Leases.holders before).length ≤ (Leases.holders es).length := by
      rw [heq, Leases.holders_append, List.length_append]
      exact Nat.le_add_right _ _
    exact absurd (Nat.lt_of_lt_of_le (hlt hholds) hle) (Nat.lt_irrefl _)
  · exact absurd (hlt hholds) (Nat.lt_irrefl _)

theorem Occurs.next_lease (ho : Occurs setup s₀ policy h s relay) (user : String) :
    ((relay.leases.register user).1).isCancelled relay.leases.issued = false :=
  next_lease_of_course ho.leases_course user

/-! ## What calls a run off -/

section
variable [LawfulStore σ] {i : Nat} {r : BatchRun} {lease : Nat}

theorem result?_of_lease? (hl : r.lease? = some lease) : r.result? = none := by
  unfold BatchRun.lease? at hl
  split at hl
  · next batch own x hp => simp [BatchRun.result?, hp]
  · cases hl

/-- A run takes its lease, or gives it back. -/
theorem leaseEvent?_of_run {q : BatchRun} {re : RunEvent} {le : Leases.Event}
    (he : q.leaseEvent? re = some le) :
    (∃ batch, q.phase = .leasing batch ∧ le = .register q.ticket.user) ∨
      ∃ own, le = .release q.ticket.user own := by
  cases re with
  | lease =>
    simp only [BatchRun.leaseEvent?] at he
    split at he
    · next batch hp => exact .inl ⟨batch, hp, (Option.some.inj he).symm⟩
    · cases he
  | release =>
    simp only [BatchRun.leaseEvent?] at he
    split at he
    · exact .inr ⟨_, (Option.some.inj he).symm⟩
    · cases he
  | _ => cases he

/-- A user of whom a run is about to take its lease has none that is live. -/
theorem Occurs.unleased (ho : Occurs setup s₀ policy h s relay) (hown : ∀ t ∈ h, t.event.isOwn)
    {k : Nat} {q : BatchRun} {batch : List Pending} (hq : relay.runs[k]? = some q)
    (hp : q.phase = .leasing batch) : Table.get? relay.leases.live q.ticket.user = none := by
  rw [Option.eq_none_iff_forall_ne_some]
  intro lease hlive
  obtain ⟨j, r, hr, hu, hl⟩ := ho.backed hlive
  have hkj : j = k := (ho.matched hown).eq_of_unfinished ho.queue_sound hr hq hu
    (result?_of_lease? hl) (by simp [BatchRun.result?, hp])
  subst hkj
  obtain rfl := Option.some.inj (hr.symm.trans hq)
  simp [BatchRun.lease?, hp] at hl

theorem Occurs.live_holder (ho : Occurs setup s₀ policy h s relay)
    (hr : relay.runs[i]? = some r) (hl : r.lease? = some lease) {user : String}
    (hlive : Table.get? relay.leases.live user = some lease) : r.ticket.user = user := by
  obtain ⟨j, q, hq, hu, hq'⟩ := ho.backed hlive
  obtain rfl := ho.leased.single hr hq hl hq'
  obtain rfl := Option.some.inj (hr.symm.trans hq)
  exact hu

/-- The lease of a run is cancelled by a notice of its user or with all others, and is live then. -/
theorem Occurs.calledOff_by (ho : Occurs setup s₀ policy h s relay)
    (hown : ∀ t ∈ h, t.event.isOwn) {e : Event}
    (hoff : Transition.CallsOff ⟨relay, e, (relay.step setup s e).2⟩ i r lease) :
    Table.get? relay.leases.live r.ticket.user = some lease ∧
      (e = .notice r.ticket.user ∨ e = .cancelAll) := by
  obtain ⟨hr, hl, hbefore, hafter⟩ := hoff
  dsimp only at hr hbefore hafter
  rw [leases_step] at hafter
  cases he : relay.leaseEvent? e with
  | none =>
    rw [he] at hafter
    exact absurd hafter (by simp [hbefore])
  | some le =>
    rw [he] at hafter
    change (relay.leases.step le).isCancelled lease = true at hafter
    obtain ⟨es, hes⟩ := ho.leases_course
    rw [Leases.isCancelled_step (hes ▸ Leases.nodup_course es)] at hafter
    obtain ⟨user, hlive, hcancels⟩ := hafter.resolve_left (by simp [hbefore])
    obtain rfl := ho.live_holder hr hl hlive
    refine ⟨hlive, ?_⟩
    cases e with
    | notice u =>
      obtain rfl : .cancel u = le := Option.some.inj he
      have hu : u = r.ticket.user := of_decide_eq_true hcancels
      exact .inl (by rw [hu])
    | cancelAll => exact .inr rfl
    | run k re =>
      obtain ⟨q, hq, he⟩ := Option.bind_eq_some_iff.mp he
      rcases leaseEvent?_of_run he with ⟨batch, hp, rfl⟩ | ⟨own, rfl⟩
      · -- a run that takes its lease has no predecessor that still holds one
        have hu : q.ticket.user = r.ticket.user := of_decide_eq_true hcancels
        rw [← hu, ho.unleased hown hq hp] at hlive
        cases hlive
      · cases hcancels
    | _ => cases he

/-- Each notice calls off one run at most, and that is one of its user. -/
theorem Occurs.notice_calls_off_one (ho : Occurs setup s₀ policy h s relay)
    (hown : ∀ t ∈ h, t.event.isOwn) {user : String} {j : Nat} {r' : BatchRun} {lease' : Nat}
    (hi : Transition.CallsOff
      ⟨relay, .notice user, (relay.step setup s (.notice user)).2⟩ i r lease)
    (hj : Transition.CallsOff
      ⟨relay, .notice user, (relay.step setup s (.notice user)).2⟩ j r' lease') :
    i = j ∧ r.ticket.user = user := by
  have hmine : ∀ {k : Nat} {q : BatchRun} {own : Nat}, Transition.CallsOff
      ⟨relay, .notice user, (relay.step setup s (.notice user)).2⟩ k q own →
      q.ticket.user = user ∧ Table.get? relay.leases.live user = some own := by
    intro k q own hk
    obtain ⟨hlive, hevent | hevent⟩ := ho.calledOff_by hown hk
    · obtain rfl := Event.notice.inj hevent
      exact ⟨rfl, hlive⟩
    · cases hevent
  obtain ⟨hu, hlive⟩ := hmine hi
  obtain ⟨-, hlive'⟩ := hmine hj
  obtain rfl : lease = lease' := Option.some.inj (hlive.symm.trans hlive')
  exact ⟨ho.leased.single hi.run hj.run hi.held hj.held, hu⟩

/-- A run that takes its lease calls nobody off. -/
theorem Occurs.cancelled_lease (ho : Occurs setup s₀ policy h s relay)
    (hown : ∀ t ∈ h, t.event.isOwn) (k : Nat) :
    (relay.step setup s (.run k .lease)).2.leases.cancelled = relay.leases.cancelled := by
  rw [leases_step]
  cases he : relay.leaseEvent? (.run k .lease) with
  | none => rfl
  | some le =>
    obtain ⟨q, hq, he⟩ := Option.bind_eq_some_iff.mp he
    rcases leaseEvent?_of_run he with ⟨batch, hp, rfl⟩ | ⟨own, rfl⟩
    · change ((relay.leases.register q.ticket.user).1).cancelled = relay.leases.cancelled
      simp [Leases.register, ho.unleased hown hq hp]
    · exact Leases.cancelled_release ..

end

end
end ChatRelay.Relay
