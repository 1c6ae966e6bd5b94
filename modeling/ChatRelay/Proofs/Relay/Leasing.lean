import ChatRelay.Proofs.Relay.Occurrences

/-!
# Live leases

Leases are taken and given back, users write again, and in the end all is called off: whatever the
order, which lease of a user is live and which leases have been cancelled can be read off what has
happened. In a relay the lease of a user is live only while a run executes a batch under it.
-/

namespace ChatRelay

namespace Leases

inductive Event where
  | register (user : String)
  | cancel (user : String)
  /-- A text arrives on the topic of notices. -/
  | hear (text : String)
  /-- The lease of a user is given back. -/
  | release (user : String) (lease : Nat)
  | cancelAll
deriving DecidableEq, Repr

def step (l : Leases) : Event → Leases
  | .register user => (l.register user).1
  | .cancel user => (l.cancel user).1
  | .hear text =>
    match Notice.decode text with
    | .ok notice => (l.cancel notice.user).1
    | .error _ => l
  | .release user lease => l.release user lease
  | .cancelAll => l.cancelAll

def course (es : List Event) : Leases := es.foldl step {}

def Event.cancels (user : String) : Event → Bool
  | .register u | .cancel u => u = user
  | .hear text => (Notice.decode text).toOption.any (·.user = user)
  | .release _ _ => false
  | .cancelAll => true

/-- Whether a lease of a user is not live after an event, if it was before. -/
def Event.ends (user : String) (lease : Nat) (e : Event) : Bool :=
  e.cancels user || e = .release user lease

/-- The users to whom leases have been given, each lease in the place of its number. -/
def holders (es : List Event) : List String :=
  es.filterMap fun
    | .register user => some user
    | _ => none

/-- The lease was given to the user, and nothing has ended it since, a newer lease included. -/
def Holds (es : List Event) (user : String) (lease : Nat) : Prop :=
  ∃ before after, es = before ++ .register user :: after ∧ (holders before).length = lease ∧
    ∀ e ∈ after, e.ends user lease = false

def Lost (es : List Event) (lease : Nat) : Prop :=
  ∃ before e after user, es = before ++ e :: after ∧ Holds before user lease ∧ e.cancels user

/-! ## Operations -/

theorem get?_live_register (l : Leases) (u user : String) :
    Table.get? (l.register u).1.live user =
      if user = u then some l.issued else Table.get? l.live user := by
  unfold register
  cases Table.get? l.live u <;> exact Table.get?_put ..

theorem get?_live_cancel (l : Leases) (u user : String) :
    Table.get? (l.cancel u).1.live user = if user = u then none else Table.get? l.live user := by
  unfold cancel
  cases h : Table.get? l.live u with
  | some lease => exact Table.get?_remove ..
  | none =>
    by_cases hu : user = u
    · simp [hu, h]
    · simp [hu]

theorem get?_live_release (l : Leases) (u user : String) (lease : Nat) :
    Table.get? (l.release u lease).live user =
      if user = u ∧ Table.get? l.live u = some lease then none else Table.get? l.live user := by
  unfold release
  by_cases h : Table.get? l.live u = some lease
  · simp [h, Table.get?_remove]
  · simp [h]

/-- Giving a lease back takes no other from its user, and none from others. -/
theorem release_leaves {l : Leases} {other : String} {newer : Nat}
    (hnewer : Table.get? l.live other = some newer) {user : String} {lease : Nat}
    (hne : other = user → newer ≠ lease) :
    Table.get? (l.release user lease).live other = some newer := by
  rw [get?_live_release, if_neg, hnewer]
  rintro ⟨rfl, hown⟩
  exact hne rfl (Option.some.inj (hnewer.symm.trans hown))

theorem isCancelled_register (l : Leases) (user : String) (lease : Nat) :
    (l.register user).1.isCancelled lease ↔
      l.isCancelled lease ∨ Table.get? l.live user = some lease := by
  unfold register
  cases Table.get? l.live user with
  | some old =>
    simp only [isCancelled, trip, List.contains_iff_mem, List.mem_cons, Option.some.injEq]
    rw [eq_comm, or_comm]
  | none => simp [isCancelled]

theorem isCancelled_cancel (l : Leases) (user : String) (lease : Nat) :
    (l.cancel user).1.isCancelled lease ↔
      l.isCancelled lease ∨ Table.get? l.live user = some lease := by
  unfold cancel
  cases Table.get? l.live user with
  | some old =>
    simp only [isCancelled, trip, List.contains_iff_mem, List.mem_cons, Option.some.injEq]
    rw [eq_comm, or_comm]
  | none => simp [isCancelled]

theorem cancel_eq_isLive (l : Leases) (user : String) : (l.cancel user).2 ↔ l.isLive user := by
  unfold cancel isLive Table.has
  cases Table.get? l.live user <;> simp

theorem cancelled_release (l : Leases) (user : String) (lease : Nat) :
    (l.release user lease).cancelled = l.cancelled := by
  unfold release
  split <;> rfl

theorem isCancelled_cancelAll {l : Leases} (hl : (l.live.map (·.1)).Nodup) (lease : Nat) :
    l.cancelAll.isCancelled lease ↔
      l.isCancelled lease ∨ ∃ user, Table.get? l.live user = some lease := by
  simp only [isCancelled, cancelAll, List.contains_iff_mem, List.mem_append, List.mem_map,
    Table.get?_eq_some_iff hl, Prod.exists, exists_eq_right]
  rw [or_comm]

/-- A notice is as good as a cancellation. -/
theorem step_hear_encode (l : Leases) (user : String) :
    l.step (.hear (Notice.encode ⟨user⟩)) = l.step (.cancel user) := by
  simp only [step, Notice.decode_encode]

/-- Any other text on the topic of notices is as good as nothing. -/
theorem step_hear_error (l : Leases) {text : String} {fault : Json.Fault}
    (h : Notice.decode text = .error fault) : l.step (.hear text) = l := by
  simp only [step, h]

/-! ## One event -/

theorem issued_step (l : Leases) (e : Event) :
    (l.step e).issued = l.issued + (holders [e]).length := by
  have hcancel : ∀ user, (l.cancel user).1.issued = l.issued := fun user => by
    unfold cancel
    split <;> rfl
  cases e with
  | register user =>
    simp only [step, register]
    cases Table.get? l.live user <;> rfl
  | cancel user => exact hcancel user
  | hear text =>
    simp only [step]
    split
    · exact hcancel _
    · rfl
  | release user lease =>
    simp only [step, release]
    split <;> rfl
  | cancelAll => rfl

theorem nodup_step {l : Leases} (hl : (l.live.map (·.1)).Nodup) (e : Event) :
    ((l.step e).live.map (·.1)).Nodup := by
  have hcancel : ∀ user, ((l.cancel user).1.live.map (·.1)).Nodup := fun user => by
    unfold cancel
    split
    · exact Table.nodup_keys_remove hl user
    · exact hl
  cases e with
  | register user => exact Table.nodup_keys_put hl ..
  | cancel user => exact hcancel user
  | hear text =>
    simp only [step]
    split
    · exact hcancel _
    · exact hl
  | release user lease =>
    simp only [step, release]
    split
    · exact Table.nodup_keys_remove hl user
    · exact hl
  | cancelAll => exact List.nodup_nil

/-- A lease is live if it has just been given out, or was live before and has not been ended. -/
theorem get?_live_step (l : Leases) (e : Event) (user : String) (lease : Nat) :
    Table.get? (l.step e).live user = some lease ↔
      e = .register user ∧ l.issued = lease ∨
      Table.get? l.live user = some lease ∧ e.ends user lease = false := by
  cases e with
  | register u =>
    rw [step, get?_live_register]
    by_cases hu : user = u <;> simp [hu, Event.ends, Event.cancels, eq_comm]
  | cancel u =>
    rw [step, get?_live_cancel]
    by_cases hu : user = u <;> simp [hu, Event.ends, Event.cancels, eq_comm]
  | hear text =>
    simp only [step, Event.ends, Event.cancels]
    cases Notice.decode text with
    | ok notice =>
      dsimp only
      rw [get?_live_cancel]
      by_cases hu : user = notice.user <;> simp [hu, Except.toOption, eq_comm]
    | error fault => simp [Except.toOption]
  | release u own =>
    rw [step, get?_live_release]
    by_cases hu : user = u
    · subst hu
      by_cases hown : own = lease <;> by_cases hl : Table.get? l.live user = some own <;>
        simp_all [Event.ends, Event.cancels]
    · simp [hu, Ne.symm hu, Event.ends, Event.cancels]
  | cancelAll => simp [step, cancelAll, Event.ends, Event.cancels]

/-- A lease is cancelled if it was before, or was live when the event cancelled it. -/
theorem isCancelled_step {l : Leases} (hl : (l.live.map (·.1)).Nodup) (e : Event) (lease : Nat) :
    (l.step e).isCancelled lease ↔
      l.isCancelled lease ∨ ∃ user, Table.get? l.live user = some lease ∧ e.cancels user := by
  cases e with
  | register u => simp [step, isCancelled_register, Event.cancels]
  | cancel u => simp [step, isCancelled_cancel, Event.cancels]
  | hear text =>
    simp only [step, Event.cancels]
    cases Notice.decode text with
    | ok notice => simp [isCancelled_cancel, Except.toOption]
    | error fault => simp [Except.toOption]
  | release u own => simp [step, isCancelled, cancelled_release, Event.cancels]
  | cancelAll => simp [step, isCancelled_cancelAll hl, Event.cancels]

/-! ## All that has happened -/

theorem course_concat (es : List Event) (e : Event) :
    course (es ++ [e]) = (course es).step e := by simp [course]

theorem holders_append (es es' : List Event) : holders (es ++ es') = holders es ++ holders es' :=
  List.filterMap_append

theorem holds_concat (es : List Event) (e : Event) (user : String) (lease : Nat) :
    Holds (es ++ [e]) user lease ↔
      e = .register user ∧ (holders es).length = lease ∨
      Holds es user lease ∧ e.ends user lease = false := by
  constructor
  · rintro ⟨before, after, heq, hlen, hafter⟩
    rcases List.eq_nil_or_concat after with rfl | ⟨after, last, rfl⟩
    · obtain ⟨rfl, hlast⟩ := List.append_inj' heq rfl
      exact .inl ⟨List.singleton_inj.mp hlast, hlen⟩
    · rw [List.concat_eq_append, ← List.cons_append, ← List.append_assoc] at heq
      obtain ⟨rfl, hlast⟩ := List.append_inj' heq rfl
      obtain rfl := List.singleton_inj.mp hlast
      refine .inr ⟨⟨before, after, rfl, hlen, fun d hd => hafter d ?_⟩, hafter e ?_⟩ <;> simp [*]
  · rintro (⟨rfl, hlen⟩ | ⟨⟨before, after, rfl, hlen, hafter⟩, he⟩)
    · exact ⟨es, [], rfl, hlen, by simp⟩
    · refine ⟨before, after ++ [e], by simp, hlen, fun d hd => ?_⟩
      rcases List.mem_append.mp hd with hd | hd
      · exact hafter d hd
      · exact List.mem_singleton.mp hd ▸ he

theorem lost_concat (es : List Event) (e : Event) (lease : Nat) :
    Lost (es ++ [e]) lease ↔ Lost es lease ∨ ∃ user, Holds es user lease ∧ e.cancels user := by
  constructor
  · rintro ⟨before, d, after, user, heq, hholds, hcancels⟩
    rcases List.eq_nil_or_concat after with rfl | ⟨after, last, rfl⟩
    · obtain ⟨rfl, hlast⟩ := List.append_inj' heq rfl
      obtain rfl := List.singleton_inj.mp hlast
      exact .inr ⟨user, hholds, hcancels⟩
    · rw [List.concat_eq_append, ← List.cons_append, ← List.append_assoc] at heq
      obtain ⟨rfl, -⟩ := List.append_inj' heq rfl
      exact .inl ⟨before, d, after, user, rfl, hholds, hcancels⟩
  · rintro (⟨before, d, after, user, rfl, hholds, hcancels⟩ | ⟨user, hholds, hcancels⟩)
    · exact ⟨before, d, after ++ [e], user, by simp, hholds, hcancels⟩
    · exact ⟨es, e, [], user, rfl, hholds, hcancels⟩

/-- A lease that is live is that of its holder. -/
theorem Holds.holder {es : List Event} {user : String} {lease : Nat} (h : Holds es user lease) :
    (holders es)[lease]? = some user := by
  obtain ⟨before, after, rfl, rfl, -⟩ := h
  rw [holders_append, List.getElem?_append_right (Nat.le_refl _), Nat.sub_self]
  rfl

theorem issued_course (es : List Event) : (course es).issued = (holders es).length := by
  induction es using List.reverseRecOn with
  | nil => rfl
  | append_singleton es e ih =>
    rw [course_concat, issued_step, ih, holders_append, List.length_append]

theorem nodup_course (es : List Event) : ((course es).live.map (·.1)).Nodup := by
  induction es using List.reverseRecOn with
  | nil => exact List.nodup_nil
  | append_singleton es e ih =>
    rw [course_concat]
    exact nodup_step ih e

theorem get?_live_course (es : List Event) (user : String) (lease : Nat) :
    Table.get? (course es).live user = some lease ↔ Holds es user lease := by
  induction es using List.reverseRecOn with
  | nil => simp [course, Holds]
  | append_singleton es e ih =>
    rw [course_concat, get?_live_step, holds_concat, ih, issued_course]

theorem isCancelled_course (es : List Event) (lease : Nat) :
    (course es).isCancelled lease ↔ Lost es lease := by
  induction es using List.reverseRecOn with
  | nil => simp [course, isCancelled, Lost]
  | append_singleton es e ih =>
    simp only [course_concat, isCancelled_step (nodup_course es), lost_concat, ih,
      get?_live_course]

/-- A cancellation cancels only what its user holds. -/
theorem isCancelled_cancel_of_ne (es : List Event) {user other : String} (hother : other ≠ user)
    {lease : Nat} (hholder : (holders es)[lease]? = some other) :
    ((course es).cancel user).1.isCancelled lease ↔ (course es).isCancelled lease := by
  rw [isCancelled_cancel, or_iff_left]
  intro hlive
  have hown := ((get?_live_course es user lease).mp hlive).holder
  exact hother (Option.some.inj (hholder.symm.trans hown))

def Keeps (l l' : Leases) : Prop := ∀ lease, l.isCancelled lease → l'.isCancelled lease

theorem keeps_cancel (l : Leases) (user : String) : l.Keeps (l.cancel user).1 :=
  fun lease hc => (l.isCancelled_cancel user lease).mpr (.inl hc)

theorem keeps_step (l : Leases) (e : Event) : l.Keeps (l.step e) := by
  intro lease hc
  cases e with
  | register user => exact (l.isCancelled_register user lease).mpr (.inl hc)
  | cancel user => exact l.keeps_cancel user lease hc
  | hear text =>
    simp only [step]
    split
    · exact l.keeps_cancel _ lease hc
    · exact hc
  | release user own => simpa [step, isCancelled, cancelled_release] using hc
  | cancelAll =>
    simp only [step, isCancelled, cancelAll, List.contains_iff_mem] at hc ⊢
    exact List.mem_append_right _ hc

end Leases

/-! ## The leases of a relay -/

/-- What a run does to the leases of its relay in an event. -/
def BatchRun.leaseEvent? (r : BatchRun) : Relay.RunEvent → Option Leases.Event
  | .lease =>
    match r.phase with
    | .leasing _ => some (.register r.ticket.user)
    | _ => none
  | .release =>
    match r.phase with
    | .executing _ lease (.finished _) => some (.release r.ticket.user lease)
    | _ => none
  | _ => none

/-- A lease under which a run executes its batch stays so until the run gives it back. -/
theorem BatchRun.lease?_turn {σ : Type} [Store σ] {setup : Relay.Setup} {c : Circumstances} {s : σ}
    {r : BatchRun} {lease : Nat} (hl : r.lease? = some lease) (e : Relay.RunEvent) :
    (r.turn setup c s e).2.lease? = some lease ∨
      r.leaseEvent? e = some (.release r.ticket.user lease) := by
  cases hp : r.phase with
  | executing batch own x =>
    obtain rfl : own = lease := by simpa [lease?, hp] using hl
    cases e with
    | release =>
      cases x with
      | finished result => exact .inr (by simp [leaseEvent?, hp])
      | _ => exact .inl (by simp [turn, concluded, lease?, hp])
    | access fault => exact .inl (by simp [turn, access, lease?, hp])
    | lease => exact .inl (by simp [turn, leased, lease?, hp])
    | arm => exact .inl (by simp [turn, isArming, lease?, hp])
    | notified slot success => exact .inl (by simp [turn, notified, lease?, hp])
    | _ => exact .inl (by simp [turn, mapExecution, lease?, hp])
  | _ => simp [lease?, hp] at hl

namespace Relay

def leaseEvent? (relay : Relay) : Event → Option Leases.Event
  | .notice user => some (.cancel user)
  | .run i e => (relay.runs[i]?).bind (·.leaseEvent? e)
  | .cancelAll => some .cancelAll
  | _ => none

theorem leases_schedule (setup : Setup) (relay : Relay) (task : Timer.Task) :
    (relay.schedule setup task).1.leases = relay.leases := by
  unfold schedule
  split <;> rfl

section
variable {σ : Type} [Store σ] {setup : Setup} {s : σ} {relay : Relay}

theorem leases_runStep (i : Nat) (e : RunEvent) :
    (relay.runStep setup s i e).2.leases =
      (relay.leaseEvent? (.run i e)).toList.foldl Leases.step relay.leases := by
  cases hr : relay.runs[i]? with
  | none => simp [runStep_of_none setup s hr, leaseEvent?, hr]
  | some r =>
    simp only [leaseEvent?, hr, Option.bind_some]
    cases e with
    | access fault => simp [runStep, hr, BatchRun.leaseEvent?]
    | lease =>
      simp only [runStep, leaseRun, hr, BatchRun.leaseEvent?]
      cases r.phase <;> rfl
    | release =>
      simp only [runStep, releaseRun, hr, BatchRun.leaseEvent?]
      cases r.phase with
      | executing batch lease x => cases x <;> rfl
      | _ => rfl
    | arm =>
      simp only [runStep, armRun, hr, BatchRun.leaseEvent?]
      split
      · split
        · exact leases_schedule ..
        · rfl
      · rfl
    | _ => rfl

theorem leases_step (e : Event) :
    (relay.step setup s e).2.leases =
      (relay.leaseEvent? e).toList.foldl Leases.step relay.leases := by
  cases e with
  | push i fault =>
    simp only [step]
    split <;> rfl
  | arm i =>
    simp only [step, armDeposit]
    split
    · split
      · exact leases_schedule ..
      · rfl
    · rfl
  | timer e =>
    simp only [step, timerStep]
    split
    · split
      · rfl
      · split
        · unfold startRun
          split
          · split <;> rfl
          · rfl
        · rfl
    · split <;> rfl
    · rfl
  | run i e => exact leases_runStep i e
  | «return» i =>
    simp only [step, returnRun]
    split
    · split <;> rfl
    · rfl
  | _ => rfl

theorem keeps_leases (e : Event) : relay.leases.Keeps (relay.step setup s e).2.leases := by
  rw [leases_step]
  cases relay.leaseEvent? e with
  | none => exact fun _ => id
  | some le => exact relay.leases.keeps_step le

/-- A live lease is that of a run of its user, which executes its batch under it. -/
def Backed (relay : Relay) : Prop :=
  ∀ {user : String} {lease : Nat}, Table.get? relay.leases.live user = some lease →
    ∃ (i : Nat) (r : BatchRun), relay.runs[i]? = some r ∧ r.ticket.user = user ∧
      r.lease? = some lease

/-- A run that takes a lease executes its batch under it. -/
theorem leased_of_register {e : Event} {user : String}
    (he : relay.leaseEvent? e = some (.register user)) :
    ∃ (i : Nat) (r : BatchRun), (relay.step setup s e).2.runs[i]? = some r ∧
      r.ticket.user = user ∧ r.lease? = some relay.leases.issued := by
  cases e with
  | run i re =>
    simp only [leaseEvent?, Option.bind_eq_some_iff] at he
    obtain ⟨r, hr, he⟩ := he
    cases re with
    | lease =>
      cases hp : r.phase with
      | leasing batch =>
        obtain rfl : r.ticket.user = user := by simpa [BatchRun.leaseEvent?, hp] using he
        refine ⟨i, r.leased setup.channels setup.primary relay.leases.issued, ?_, ?_, ?_⟩
        · simp only [step, runStep, leaseRun, hr, hp]
          simp [modifyRun, hr, Leases.register]
        · simp [BatchRun.leased, hp]
        · simp [BatchRun.leased, hp, BatchRun.lease?]
      | _ => simp [BatchRun.leaseEvent?, hp] at he
    | release =>
      simp only [BatchRun.leaseEvent?] at he
      split at he <;> cases he
    | _ => cases he
  | _ => cases he

variable [LawfulStore σ]

variable (setup s) in
theorem lease?_stays (hst : relay.Steady) (e : Event) {i : Nat} {r : BatchRun} {lease : Nat}
    (hr : relay.runs[i]? = some r) (hl : r.lease? = some lease)
    (he : relay.leaseEvent? e ≠ some (.release r.ticket.user lease)) :
    ∃ r', (relay.step setup s e).2.runs[i]? = some r' ∧ r'.ticket = r.ticket ∧
      r'.lease? = some lease := by
  obtain ⟨r', hr', hticket⟩ := run_stays setup s hst e hr
  refine ⟨r', hr', hticket, ?_⟩
  cases onward hr' with
  | turned c heq hr₀ hc hs hturn =>
    obtain rfl := Option.some.inj (hr.symm.trans hr₀)
    rw [heq, leaseEvent?, hr, Option.bind_some] at he
    rw [hturn]
    exact (BatchRun.lease?_turn hl _).resolve_right he
  | stayed heq hr₀ => rwa [Option.some.inj (hr₀.symm.trans hr)]
  | started payload attempt firing heq hr₀ hturn => simp [hr] at hr₀

theorem Backed.step (hb : relay.Backed) (hst : relay.Steady) (e : Event) :
    (relay.step setup s e).2.Backed := by
  intro user lease hlive
  rw [leases_step] at hlive
  cases he : relay.leaseEvent? e with
  | none =>
    rw [he] at hlive
    obtain ⟨i, r, hr, rfl, hl⟩ := hb hlive
    obtain ⟨r', hr', hticket, hl'⟩ := lease?_stays setup s hst e hr hl (by simp [he])
    exact ⟨i, r', hr', by rw [hticket], hl'⟩
  | some le =>
    rw [he] at hlive
    rcases (Leases.get?_live_step ..).mp hlive with ⟨rfl, rfl⟩ | ⟨hold, hends⟩
    · exact leased_of_register he
    · obtain ⟨i, r, hr, rfl, hl⟩ := hb hold
      -- the event does not end this lease, so it is not its run that gives it back
      have hne : relay.leaseEvent? e ≠ some (.release r.ticket.user lease) := by
        rw [he]
        rintro heq
        obtain rfl := Option.some.inj heq
        simp [Leases.Event.ends] at hends
      obtain ⟨r', hr', hticket, hl'⟩ := lease?_stays setup s hst e hr hl hne
      exact ⟨i, r', hr', by rw [hticket], hl'⟩

end

section
variable {σ : Type} [Store σ] {setup : Setup} {s₀ s : σ} {policy : RetryPolicy} {h : History}
  {relay : Relay}

theorem Occurs.backed [LawfulStore σ] (ho : Occurs setup s₀ policy h s relay) : relay.Backed := by
  induction ho with
  | fresh => simp [Backed, Relay.fresh]
  | step e ho ih => exact ih.step ho.steady e

theorem Occurs.leases_course (ho : Occurs setup s₀ policy h s relay) :
    ∃ es, relay.leases = Leases.course es := by
  induction ho with
  | fresh => exact ⟨[], rfl⟩
  | @step h s relay e ho ih =>
    obtain ⟨es, hes⟩ := ih
    exact ⟨es ++ (relay.leaseEvent? e).toList, by rw [leases_step, hes]; simp [Leases.course]⟩

/-- A user for whom no run executes a batch has no live lease. -/
theorem Backed.isLive_of_idle (hb : relay.Backed) {user : String}
    (hidle : ∀ r ∈ relay.runs, r.ticket.user = user → r.lease? = none) :
    relay.leases.isLive user = false := by
  cases hlive : Table.get? relay.leases.live user with
  | none => simp [Leases.isLive, Table.has, hlive]
  | some lease =>
    obtain ⟨i, r, hr, hticket, hl⟩ := hb hlive
    rw [hidle r (List.mem_of_getElem? hr) hticket] at hl
    cases hl

end

/-! ## What is live and what is cancelled -/

/-- At most one lease of a user is live. It is the latest that was given to the user, as long as the
user has not written again, all has not been called off and it has not been given back. A lease is
cancelled if one of these, or a newer lease of the user, came about while it was live, its own
return apart: giving a lease back cancels none, and takes no other from its user. A cancellation
tells whether the user had a live lease, and leaves other users alone. A notice is as good as a
cancellation, and any other text on its topic is as good as nothing. The leases of a relay come
about in this way, and a user for whom no run executes a batch has no live lease. -/
theorem leases_by_history {σ : Type} [Store σ] [LawfulStore σ] (setup : Setup) (s₀ : σ)
    (policy : RetryPolicy) :
    (∀ es : List Leases.Event,
      let l := Leases.course es
      (l.live.map (·.1)).Nodup ∧
      (∀ user lease, Table.get? l.live user = some lease ↔ Leases.Holds es user lease) ∧
      (∀ lease, l.isCancelled lease ↔ Leases.Lost es lease) ∧
      (∀ user lease, (l.release user lease).cancelled = l.cancelled ∧
        ∀ other newer, Table.get? l.live other = some newer → (other = user → newer ≠ lease) →
          Table.get? (l.release user lease).live other = some newer) ∧
      (∀ user, ((l.cancel user).2 ↔ l.isLive user) ∧
        ∀ other, other ≠ user →
          Table.get? (l.cancel user).1.live other = Table.get? l.live other ∧
          ∀ lease, (Leases.holders es)[lease]? = some other →
            ((l.cancel user).1.isCancelled lease ↔ l.isCancelled lease)) ∧
      (∀ user, l.step (.hear (Notice.encode ⟨user⟩)) = l.step (.cancel user)) ∧
      ∀ text fault, Notice.decode text = .error fault → l.step (.hear text) = l) ∧
    ∀ {h : History} {s : σ} {relay : Relay}, Occurs setup s₀ policy h s relay →
      (∃ es, relay.leases = Leases.course es) ∧
      ∀ user, (∀ r ∈ relay.runs, r.ticket.user = user → r.lease? = none) →
        relay.leases.isLive user = false := by
  refine ⟨fun es => ?_, fun {h s relay} ho => ⟨ho.leases_course, fun user hidle => ?_⟩⟩
  · intro l
    refine ⟨Leases.nodup_course es, Leases.get?_live_course es, Leases.isCancelled_course es,
      fun user lease => ⟨l.cancelled_release user lease, fun _ _ hnewer hne => ?_⟩,
      fun user => ⟨l.cancel_eq_isLive user, fun other hother => ⟨?_, fun lease hholder => ?_⟩⟩,
      l.step_hear_encode, fun text fault => l.step_hear_error⟩
    · exact Leases.release_leaves hnewer hne
    · rw [Leases.get?_live_cancel, if_neg hother]
    · exact Leases.isCancelled_cancel_of_ne es hother hholder
  · exact Backed.isLive_of_idle ho.backed hidle

/-- The first lease of `a` gives way to a second one and is given back late, and that of `b` is
called off by a notice. -/
def supersededLate : List Leases.Event :=
  [.register "a", .register "b", .hear "no notice", .register "a", .release "a" 0,
    .hear (Notice.encode ⟨"b"⟩)]

/-- A run executes its batch under a lease, and gives the lease back. -/
def leasingOnce : List Event :=
  accepting 0 ⟨"u", "chat", "A"⟩ "one" "m1" 5 ++ starting 0 ++ asking 0 ++
    concluding 0 (.ok default)

theorem supersededLate_by_history :
    Leases.Holds supersededLate "a" 2 ∧ Leases.Lost supersededLate 0 ∧
      Leases.Lost supersededLate 1 ∧ ¬ Leases.Lost supersededLate 2 ∧
      (course plain ({} : Memory) .standard (leasingOnce.take 12)).2.2.leases.isLive "u" ∧
      (course plain ({} : Memory) .standard leasingOnce).2.2.leases.isLive "u" = false := by
  obtain ⟨hleases, hrelay⟩ := leases_by_history plain ({} : Memory) .standard
  obtain ⟨-, hlive, hcancelled, -⟩ := hleases supersededLate
  have hoccurs := occurs_course plain ({} : Memory) .standard leasingOnce
  have hidle : ∀ r ∈ (course plain ({} : Memory) .standard leasingOnce).2.2.runs,
      r.ticket.user = "u" → r.lease? = none := by decide +kernel
  refine ⟨(hlive "a" 2).mp ?_, (hcancelled 0).mp ?_, (hcancelled 1).mp ?_,
    mt (hcancelled 2).mpr ?_, ?_, (hrelay hoccurs).2 "u" hidle⟩
  all_goals decide +kernel

end Relay
end ChatRelay
