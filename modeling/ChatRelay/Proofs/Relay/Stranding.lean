import ChatRelay.Proofs.Relay.Conservation
import ChatRelay.Proofs.Relay.Firings

/-!
# Nobody is left waiting

As long as the queue is open, messages that wait for a user are attended to: the user's task is
pending, or one of its firings is on the way to taking them, or whoever put some of them into the
list has still to arm the task. This rests on two decisions that are made apart and agree: a failed
batch is put back if and only if its firing goes on to see to a retry.
-/

namespace ChatRelay
open KeyedLists

/-- Whether a message is one that a deposit has put into the list before arming the task. -/
def Deposit.HasPut (d : Deposit) (m : Pending) : Prop :=
  d.result? = none ∧ ∃ back, d.messages = back ++ d.phase.left ∧ m ∈ back

namespace BatchRun

/-- Whether a message is one that a run has put back into the list. -/
def HasPutBack (r : BatchRun) (m : Pending) : Prop :=
  match r.phase with
  | .requeuing batch deposit => ∃ back, batch = back ++ deposit.phase.left ∧ m ∈ back
  | .restoring batch left _ => ∃ back, batch = back ++ left ∧ m ∈ back
  | .finished (.restored batch _) => m ∈ batch
  | _ => False

variable {σ : Type} [Store σ] [LawfulStore σ] {s s' : σ} {r r' : BatchRun} {d : Deed} {m : Pending}

theorem HasPutBack.progress (hm : r.HasPutBack m) (h : r.Progress s d s' r') :
    r'.HasPutBack m ∨ d = .rearmed r.ticket := by
  cases h with
  | idle => exact .inl hm
  | @requeued batch left deposit n hp hd =>
    simp only [HasPutBack, hp, hd, Deposit.Phase.left] at hm
    obtain ⟨back, hback, hmem⟩ := hm
    refine .inl ⟨back ++ [n], ?_, List.mem_append_left _ hmem⟩
    simpa [Deposit.Phase.left_ofLeft] using hback
  | rearmed outcome hp hd => exact .inr rfl
  | @restored batch left n cause hp =>
    simp only [HasPutBack, hp] at hm
    obtain ⟨back, rfl, hmem⟩ := hm
    cases left with
    | nil => exact .inl (List.mem_append_left _ hmem)
    | cons k left => exact .inl ⟨back ++ [n], by simp, List.mem_append_left _ hmem⟩
  | _ => simp_all [HasPutBack]

theorem Progress.hasPutBack {user : String} (h : r.Progress s (.putBack user m) s' r')
    (hr : r.Orderly) : s' = Pending.push s user m ∧ r.ticket.user = user ∧ r.result? = none ∧
      m ∈ r.held ∧ r'.HasPutBack m := by
  cases h with
  | @requeued batch left deposit n hp hd =>
    simp only [Orderly, hp, hd, Deposit.Phase.left] at hr
    obtain ⟨-, -, -, back, hback⟩ := hr
    refine ⟨rfl, rfl, by simp [result?, hp], by simp [held, hp, hd, Deposit.Phase.left],
      back ++ [m], ?_, by simp⟩
    simpa [Deposit.Phase.left_ofLeft] using hback
  | @restored batch left n cause hp =>
    simp only [Orderly, hp] at hr
    obtain ⟨-, -, -, back, rfl⟩ := hr
    refine ⟨rfl, rfl, by simp [result?, hp], by simp [held, hp], ?_⟩
    cases left with
    | nil => exact List.mem_append_right _ List.mem_cons_self
    | cons k left => exact ⟨back ++ [m], by simp, by simp⟩

/-- A run that put messages back and is through reports a failure that is worth a retry. -/
theorem HasPutBack.result (hm : r.HasPutBack m) (hr : r.Orderly) {o : Except RelayError Unit}
    (ho : r.result? = some o) : ∃ cause, o = .error (.pipeline cause) ∧ r.putsBack cause := by
  unfold result? at ho
  split at ho
  · next ending hp =>
    obtain rfl := Option.some.inj ho
    cases ending with
    | restored batch cause =>
      simp only [Orderly, hp] at hr
      exact ⟨cause, rfl, hr⟩
    | _ => simp [HasPutBack, hp] at hm
  · cases ho

/-- The run and its firing decide alike. -/
theorem putsBack_eq_wantsRetry {q : Timer.Queue} {f : Timer.Firing} (ha : r.attempt = q.attempt f)
    (hopen : q.closed = false) (cause : PipelineError) :
    r.putsBack cause = q.wantsRetry f (.error (.pipeline cause)) := by
  simp [putsBack, Timer.Queue.wantsRetry, RelayError.isRetryable, ha, hopen, Bool.and_comm]

end BatchRun

namespace Relay
open Timer

variable {σ : Type} [Store σ] [LawfulStore σ]

/-- Somebody attends to the messages that wait for a user. -/
inductive Attended (s : σ) (relay : Relay) (user : String) : Prop
  | pending (h : relay.queue.isPending (Ticket.dedupId user))
  /-- A firing of the task has claimed its timer, and waits for its lock. -/
  | claimed {g : Nat} {f : Firing} (hf : relay.queue.firing? g = some f)
      (hid : f.task.dedupId = Ticket.dedupId user)
      (hp : f.phase = .claimed ∨ ∃ lock, f.phase = .waiting lock)
  /-- Its handler is at work, and has not taken the messages yet. -/
  | draining {i : Nat} {r : BatchRun} (hr : relay.runs[i]? = some r) (hu : r.ticket.user = user)
      (hp : r.phase = .draining)
  /-- A deposit that put one of the messages into the list has not armed the task yet. -/
  | depositing {i : Nat} {d : Deposit} {m : Pending} (hd : relay.deposits[i]? = some d)
      (hu : d.ticket.user = user) (hm : d.HasPut m) (hw : m ∈ waiting s user)
  /-- A run that put one of the messages back has not armed the task yet, nor has its firing seen
  to a retry. -/
  | puttingBack {i g : Nat} {r : BatchRun} {f : Firing} {m : Pending}
      (hr : relay.runs[i]? = some r) (hu : r.ticket.user = user) (hm : r.HasPutBack m)
      (hw : m ∈ waiting s user) (hg : r.firing = some g) (hf : relay.queue.firing? g = some f)
      (ho : ∀ ending, f.phase ≠ .over ending)

section
variable {setup : Setup} {s s' : σ} {relay relay' : Relay} {d : Deed} {user : String}

/-! ## What becomes of the list -/

theorem Happens.list (hap : Happens setup s relay d s' relay') (hs : LawfulStore.Sound s)
    (user : String) :
    texts s' (Pending.listKey user) = texts s (Pending.listKey user) ∨
      texts s' (Pending.listKey user) = [] ∨
      ∃ m, (d = .accepted user m ∨ d = .putBack user m) ∧ s' = Pending.push s user m := by
  have hpush : ∀ {u : String} {m : Pending}, user ≠ u →
      texts (Pending.push s u m) (Pending.listKey user) = texts s (Pending.listKey user) :=
    fun hu => (texts_push hs ..).trans (if_neg hu)
  cases hap with
  | @accepted i dep m left hd hp =>
    by_cases hu : user = dep.ticket.user
    · exact .inr (.inr ⟨m, .inl (hu ▸ rfl), hu ▸ rfl⟩)
    · exact .inl (hpush hu)
  | @ran i r r' d s' leases hr hp hne =>
    have hback : ∀ {m}, d = .putBack r.ticket.user m → s' = Pending.push s r.ticket.user m →
        texts s' (Pending.listKey user) = texts s (Pending.listKey user) ∨
          texts s' (Pending.listKey user) = [] ∨
          ∃ m, (d = .accepted user m ∨ d = .putBack user m) ∧ s' = Pending.push s user m := by
      rintro m rfl rfl
      by_cases hu : user = r.ticket.user
      · exact .inr (.inr ⟨m, .inr (hu ▸ rfl), hu ▸ rfl⟩)
      · exact .inl (hpush hu)
    cases hp with
    | drained hp =>
      rw [texts_takeAll hs]
      split
      · exact .inr (.inl rfl)
      · exact .inl rfl
    | executed hp hx hst => exact .inl (hst.texts _)
    | requeued hp hd => exact hback rfl rfl
    | restored hp => exact hback rfl rfl
    | marked hp => exact .inl (LawfulStore.texts_mark ..)
    | _ => exact .inl rfl
  | _ => exact .inl rfl

theorem Happens.mem_waiting (hap : Happens setup s relay d s' relay') (hs : LawfulStore.Sound s)
    {m : Pending} (hm : m ∈ waiting s user) (hw : texts s' (Pending.listKey user) ≠ []) :
    m ∈ waiting s' user := by
  change m ∈ Pending.decodeAll (texts s' _)
  rcases hap.list hs user with heq | hnil | ⟨n, -, rfl⟩
  · rw [heq]
    exact hm
  · exact absurd hnil hw
  · rw [texts_push hs, if_pos rfl, Pending.decodeAll, List.filterMap_append]
    exact List.mem_append_left _ hm

/-! ## What becomes of the tasks -/

/-- An open queue of the relay's own takes every task of a ticket. -/
theorem isPending_of_schedule (ht : relay.Tended) (hsched : setup.scheduler = .timers)
    (hopen : relay.queue.closed = false) {t : Ticket} {delay : Nat} {queue : Queue}
    {handedOver : List Task} {outcome : Except TaskError Unit}
    (hq : relay.schedule setup (t.task delay) = ({ relay with queue, handedOver }, outcome)) :
    queue.isPending (Ticket.dedupId t.user) := by
  have hk : (t.task delay).key ∈ relay.queue.handlers := by simp [ht.handlers, Ticket.task]
  have hqueue : (relay.schedule setup (t.task delay)).1.queue = queue := by rw [hq]
  rw [schedule, hsched] at hqueue
  dsimp only at hqueue
  rw [Queue.schedule_eq hopen hk] at hqueue
  subst hqueue
  exact Queue.isPending_arm relay.queue (t.task delay) ..

theorem Happens.isPending_of_rearmed {t : Ticket}
    (hap : Happens setup s relay (.rearmed t) s' relay') (ht : relay.Tended)
    (hsched : setup.scheduler = .timers) (hopen : relay.queue.closed = false) :
    relay'.queue.isPending (Ticket.dedupId t.user) := by
  cases hap with
  | rearmed hr hp hd hq => exact isPending_of_schedule ht hsched hopen hq
  | ran leases hr hp hne => exact absurd rfl (hne t)

/-! ## Attention passes on -/

/-- Every unfinished deposit is to put what it has not put into the list yet. -/
def Deposited (relay : Relay) : Prop :=
  ∀ {i : Nat} {d : Deposit}, relay.deposits[i]? = some d → d.result? = none →
    ∃ back, d.messages = back ++ d.phase.left

theorem Happens.deposited (hap : Happens setup s relay d s' relay') (hd : relay.Deposited) :
    relay'.Deposited := by
  cases hap with
  | enqueued ticket m hm =>
    intro i d' hi hres
    rcases List.mem_append.mp (List.mem_of_getElem? hi) with hmem | hmem
    · obtain ⟨k, hk⟩ := List.mem_iff_getElem?.mp hmem
      exact hd hk hres
    · rw [List.mem_singleton] at hmem
      exact ⟨[], by rw [hmem]; rfl⟩
  | @accepted i dep m left hi hp =>
    intro k d' hk hres
    rcases getElem?_set_cases hk with ⟨rfl, rfl⟩ | ⟨-, hk⟩
    · obtain ⟨back, hback⟩ := hd hi (by simp [Deposit.result?, hp])
      rw [hp] at hback
      refine ⟨back ++ [m], ?_⟩
      rw [Deposit.Phase.left_ofLeft, List.append_assoc]
      exact hback
    · exact hd hk hres
  | @armed i dep queue handedOver outcome hi hp hq =>
    intro k d' hk hres
    rcases getElem?_set_cases hk with ⟨rfl, rfl⟩ | ⟨-, hk⟩
    · simp [Deposit.armed, hp, Deposit.result?] at hres
    · exact hd hk hres
  | _ => exact hd

theorem Happens.deposit_before (hap : Happens setup s relay d s' relay') (ht : relay.Tended)
    (hsched : setup.scheduler = .timers) (hopen : relay.queue.closed = false) {i : Nat}
    {dep : Deposit} {m : Pending} (hd : relay.deposits[i]? = some dep) (hm : dep.HasPut m) :
    relay'.queue.isPending (Ticket.dedupId dep.ticket.user) ∨
      ∃ dep', relay'.deposits[i]? = some dep' ∧ dep'.ticket = dep.ticket ∧ dep'.HasPut m := by
  have hlen := (List.getElem?_eq_some_iff.mp hd).1
  cases hap with
  | enqueued ticket n hn =>
    exact .inr ⟨dep, by rw [List.getElem?_append_left hlen, hd], rfl, hm⟩
  | @accepted k dep' n left hk hp =>
    refine .inr ?_
    by_cases hki : k = i
    · subst hki
      obtain rfl : dep = dep' := Option.some.inj (hd.symm.trans hk)
      obtain ⟨-, back, hback, hmem⟩ := hm
      rw [hp] at hback
      refine ⟨_, List.getElem?_set_self hlen, rfl, by cases left <;> rfl, back ++ [n], ?_,
        List.mem_append_left _ hmem⟩
      rw [Deposit.Phase.left_ofLeft, List.append_assoc]
      exact hback
    · exact ⟨dep, by rw [List.getElem?_set_ne hki, hd], rfl, hm⟩
  | @armed k dep' queue handedOver outcome hk hp hq =>
    by_cases hki : k = i
    · subst hki
      obtain rfl : dep = dep' := Option.some.inj (hd.symm.trans hk)
      exact .inl (isPending_of_schedule ht hsched hopen hq)
    · exact .inr ⟨dep, by rw [List.getElem?_set_ne hki, hd], rfl, hm⟩
  | _ => exact .inr ⟨dep, hd, rfl, hm⟩

/-- A firing that has claimed its timer gets on to its lock, and then takes the messages. -/
theorem Happens.claimed (hap : Happens setup s relay d s' relay') {g : Nat} {f : Firing}
    (hf : relay.queue.firing? g = some f) (hid : f.task.dedupId = Ticket.dedupId user)
    (hp : f.phase = .claimed ∨ ∃ lock, f.phase = .waiting lock) : Attended s' relay' user := by
  obtain ⟨e, hq, -, hacq, -⟩ := hap.keeps
  obtain ⟨p, hf', rfl | hl⟩ := (changes_of_eq hq).follows hf
  · exact .claimed hf' hid hp
  · rcases hp with hp | ⟨lock, hp⟩
    · rw [hp] at hl
      cases hl with
      | waiting lock => exact .claimed hf' hid (.inr ⟨lock, rfl⟩)
    · rw [hp] at hl
      cases hl with
      | running lock =>
        obtain ⟨i, r, hr, hg, hstart⟩ := hacq g rfl
        refine .draining hr ?_ hstart.phase
        obtain ⟨g', f₀, lock', ticket, delay, hf₀, -, htask, -, -, rfl⟩ := hstart
        obtain rfl := Option.some.inj hg
        obtain rfl : f = f₀ := Option.some.inj (hf.symm.trans hf₀)
        rw [htask] at hid
        exact Ticket.dedupId_injective hid

/-- The firing of a run that put messages back does not come to its end before their task is
pending. -/
theorem Happens.puttingBack (hap : Happens setup s relay d s' relay') (ht : relay.Tended)
    (hm : relay.Matched) (hopen : relay.queue.closed = false) {i g : Nat} {r : BatchRun}
    {f : Firing} {m : Pending} (hr : relay.runs[i]? = some r) (hback : r.HasPutBack m)
    (hg : r.firing = some g) (hf : relay.queue.firing? g = some f)
    (ho : ∀ ending, f.phase ≠ .over ending) :
    relay'.queue.isPending (Ticket.dedupId r.ticket.user) ∨
      ∃ f', relay'.queue.firing? g = some f' ∧ ∀ ending, f'.phase ≠ .over ending := by
  obtain ⟨g', f₀, delay, hg', hf₀, htask, hatt, hat⟩ := hm.owned hr
  obtain rfl := Option.some.inj (hg.symm.trans hg')
  obtain rfl : f = f₀ := Option.some.inj (hf.symm.trans hf₀)
  have hid : f.task.dedupId = Ticket.dedupId r.ticket.user := by rw [htask]; rfl
  obtain ⟨e, hq, -⟩ := hap.keeps
  obtain ⟨p, hf', hl⟩ := (changes_of_eq hq).follows hf
  by_cases hover : ∃ ending, p = .over ending
  · obtain ⟨ending, rfl⟩ := hover
    have hl := hl.resolve_left fun he => ho ending he.symm
    rcases hq with hq | hq
    · rw [hq, hf] at hf'
      exact absurd (congrArg Firing.phase (Option.some.inj hf')) (ho ending)
    · -- where its handler has reported, a firing comes to its end by settling only
      generalize hphase : f.phase = phase at hl hat
      cases hl with
      | settled jitter outcome retry =>
        rcases hat with hrun | ⟨o, ho', hres⟩
        · cases hrun
        obtain rfl := Option.some.inj ho'
        obtain ⟨cause, rfl, hputs⟩ := hback.result (ht.orderly hr) hres
        have hwants : relay.queue.wantsRetry f (.error (.pipeline cause)) :=
          r.putsBack_eq_wantsRetry hatt hopen cause ▸ hputs
        left
        rw [hq, ← hid]
        exact (Queue.leavesTimer_settle hf hphase hwants jitter).isPending
      | _ => simp [BatchRun.At, Phase.isRunning, Phase.outcome?] at hat
  · exact .inr ⟨_, hf', fun ending he => hover ⟨ending, he⟩⟩

theorem Attended.step (ha : Attended s relay user) (hap : Happens setup s relay d s' relay')
    (ht : relay.Tended) (hm : relay.Matched) (hs : LawfulStore.Sound s)
    (hsched : setup.scheduler = .timers) (hopen : relay'.queue.closed = false)
    (hw : texts s' (Pending.listKey user) ≠ []) : Attended s' relay' user := by
  have hbefore := hap.open_before hopen
  cases ha with
  | pending h =>
    obtain ⟨e, hq, -⟩ := hap.keeps
    have hkeys : ∀ {g f}, relay.queue.firing? g = some f → f.task.key ∈ relay.queue.handlers := by
      intro g f hf
      obtain ⟨ticket, delay, htask⟩ := ht.tasks hf
      rw [ht.handlers, htask]
      exact List.mem_singleton.mpr rfl
    rcases (changes_of_eq hq).isPending h hkeys with h | h | ⟨g, f, hf, hid, hp⟩
    · exact .pending h
    · rw [hopen] at h
      cases h
    · exact .claimed hf hid (.inl hp)
  | claimed hf hid hp => exact hap.claimed hf hid hp
  | draining hr hu hp =>
    obtain ⟨r', hr', rfl | hprog⟩ := hap.run_before hr
    · exact .draining hr' hu hp
    · cases hprog with
      | idle => exact .draining hr' hu hp
      | drained _ =>
        subst hu
        exact absurd ((texts_takeAll hs ..).trans (if_pos rfl)) hw
      | _ => simp_all
  | depositing hd hu hput hmem =>
    rcases hap.deposit_before ht hsched hbefore hd hput with h | ⟨dep', hd', hticket, hput'⟩
    · exact .pending (hu ▸ h)
    · exact .depositing hd' (hticket ▸ hu) hput' (hap.mem_waiting hs hmem hw)
  | @puttingBack i g r f m hr hu hback hmem hg hf ho =>
    rcases hap.puttingBack ht hm hbefore hr hback hg hf ho with h | ⟨f', hf', ho'⟩
    · exact .pending (hu ▸ h)
    · obtain ⟨r', hr', hsame⟩ := hap.run_before hr
      rcases hsame with rfl | hprog
      · exact .puttingBack hr' hu hback (hap.mem_waiting hs hmem hw) hg hf' ho'
      · obtain ⟨hticket, hfiring, -⟩ := hprog.frame
        rcases hback.progress hprog with hback' | rfl
        · exact .puttingBack hr' (hticket ▸ hu) hback' (hap.mem_waiting hs hmem hw)
            (hfiring.trans hg) hf' ho'
        · exact .pending (hu ▸ hap.isPending_of_rearmed ht hsched hbefore)

/-- Whoever puts a message into the list attends to it. -/
theorem Happens.attended_of_push {h : History} (hap : Happens setup s relay d s' relay')
    (hb : Balanced h s relay) (ht : relay.Tended) (hd : relay.Deposited) (hm : relay.Matched)
    (hs : LawfulStore.Sound s) {m : Pending}
    (hdeed : d = .accepted user m ∨ d = .putBack user m) : Attended s' relay' user := by
  have hmem : m.IsStorable → m ∈ waiting (Pending.push s user m) user := fun hstor => by
    rw [waiting_push hs _ _ hstor, if_pos rfl]
    exact List.mem_append_right _ List.mem_cons_self
  cases hap with
  | @accepted i dep n left hi hp =>
    obtain ⟨rfl, rfl⟩ : dep.ticket.user = user ∧ n = m := by simpa using hdeed
    have hstor : n.IsStorable := hb.deposits hi n (by rw [hp]; exact List.mem_cons_self)
    obtain ⟨back, hback⟩ := hd hi (by simp [Deposit.result?, hp])
    rw [hp] at hback
    refine .depositing (List.getElem?_set_self (List.getElem?_eq_some_iff.mp hi).1) rfl
      ⟨by cases left <;> rfl, back ++ [n], ?_, by simp⟩ (hmem hstor)
    rw [Deposit.Phase.left_ofLeft, List.append_assoc]
    exact hback
  | @ran i r r' d s' leases hr hp hne =>
    rcases hdeed with rfl | rfl
    · exact absurd rfl (hp.ne_accepted user m)
    · obtain ⟨rfl, rfl, hres, hheld, hback⟩ := hp.hasPutBack (ht.orderly hr)
      obtain ⟨g, f, -, hg, hf, -, hrun⟩ := hm.running hr hres
      obtain ⟨hticket, hfiring, -⟩ := hp.frame
      refine .puttingBack (List.getElem?_set_self (List.getElem?_eq_some_iff.mp hr).1)
        (congrArg Ticket.user hticket) hback (hmem (hb.heldStorable hr m hheld))
        (hfiring.trans hg) hf fun ending he => ?_
      rw [he] at hrun
      cases hrun
  | _ => simp at hdeed

theorem Comes.deposited {s₀ : σ} {policy : RetryPolicy} {h : History}
    (hc : Comes setup s₀ policy h s relay) : relay.Deposited := by
  apply hc.invariant (P := fun _ _ relay => relay.Deposited) (by simp [Deposited, Relay.fresh])
  intro h s relay d s' relay' t _ hd _ _ _ hap
  exact hap.deposited hd

theorem Comes.attended {s₀ : σ} {policy : RetryPolicy} {h : History} (hs : IsEmptied s₀)
    (hc : Comes setup s₀ policy h s relay) (hsched : setup.scheduler = .timers)
    (hopen : relay.queue.closed = false) (hw : texts s (Pending.listKey user) ≠ []) :
    Attended s relay user := by
  revert hopen hw
  refine hc.invariant (P := fun _ s relay => relay.queue.closed = false →
    texts s (Pending.listKey user) ≠ [] → Attended s relay user) ?_ ?_
  · intro _ hw
    exact absurd (hs.texts user) hw
  · intro h s relay d s' relay' t hc ih _ _ _ hap hopen hw
    have hsound := hc.sound hs.sound
    have hstep : texts s (Pending.listKey user) ≠ [] → Attended s' relay' user := fun hold =>
      (ih (hap.open_before hopen) hold).step hap hc.tended hc.matched hsound hsched hopen hw
    rcases hap.list hsound user with heq | hnil | ⟨m, hdeed, -⟩
    · exact hstep (heq ▸ hw)
    · exact absurd hnil hw
    · exact hap.attended_of_push (hc.balanced hs) hc.tended hc.deposited hc.matched hsound hdeed

/-- Messages that wait for a user are attended to as long as the queue is open. Each run decides
about a failed batch as its firing does about a retry, for every failure and at every attempt; so
the firing of a batch that was put back settles only with a timer of its task pending. -/
theorem waiting_messages_attended {s₀ : σ} {policy : RetryPolicy} {h : History} (hs : IsEmptied s₀)
    (hc : Comes setup s₀ policy h s relay) (hsched : setup.scheduler = .timers)
    (hopen : relay.queue.closed = false) :
    (∀ user, texts s (Pending.listKey user) ≠ [] → Attended s relay user) ∧
    ∀ {i : Nat} {r : BatchRun}, relay.runs[i]? = some r → ∃ g f delay, r.firing = some g ∧
      relay.queue.firing? g = some f ∧ f.task = r.ticket.task delay ∧
      (∀ cause, r.putsBack cause = relay.queue.wantsRetry f (.error (.pipeline cause))) ∧
      ∀ {batch : List Pending} {cause : PipelineError} {outcome : Except RelayError Unit},
        r.phase = .finished (.restored batch cause) → f.phase = .settling outcome →
          outcome = .error (.pipeline cause) ∧ ∀ jitter,
            relay.queue.LeavesTimer f (relay.step setup s (.timer (.settle g jitter))).2.queue := by
  refine ⟨fun user => hc.attended hs hsched hopen, fun {i r} hr => ?_⟩
  obtain ⟨g, f, delay, hg, hf, htask, hatt, hat⟩ := hc.matched.owned hr
  have hagree := r.putsBack_eq_wantsRetry hatt hopen
  refine ⟨g, f, delay, hg, hf, htask, hagree, fun {batch cause outcome} hr' hp => ?_⟩
  have hputs : r.putsBack cause := by
    have := hc.tended.orderly hr
    rwa [BatchRun.Orderly, hr'] at this
  have hout : outcome = .error (.pipeline cause) := by
    rw [BatchRun.At, hp] at hat
    rcases hat with hrun | ⟨o, ho, hres⟩
    · cases hrun
    · obtain rfl : outcome = o := Option.some.inj ho
      rw [BatchRun.result?, hr'] at hres
      exact (Option.some.inj hres).symm
  refine ⟨hout, fun jitter => Queue.leavesTimer_settle hf hp ?_ jitter⟩
  rw [hout, ← hagree]
  exact hputs

/-- The generation for a message fails, and the message is back in the list while no timer is
pending. -/
def failing : List Event :=
  accepting 0 ⟨"u", "chat", "A"⟩ "one" "m1" 5 ++ starting 0 ++ asking 0 ++
    concluding 0 (.error (.requestFailed "p" "down")) ++ returning 0 0

theorem failing_attended :
    let last := course plain ({} : Memory) .standard failing
    last.2.2.queue.isPending (Ticket.dedupId "u") = false ∧
      texts last.2.1 (Pending.listKey "u") ≠ [] ∧ Attended last.2.1 last.2.2 "u" := by
  have hc := comes_course plain ({} : Memory) .standard failing (by decide +kernel)
  have hw :
      texts (course plain ({} : Memory) .standard failing).2.1 (Pending.listKey "u") ≠ [] := by
    decide +kernel
  exact ⟨by decide +kernel, hw,
    (waiting_messages_attended isEmptied_memory hc rfl (by decide +kernel)).1 "u" hw⟩

end

end Relay
end ChatRelay
