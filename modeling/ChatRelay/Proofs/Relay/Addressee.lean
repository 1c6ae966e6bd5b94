import ChatRelay.Proofs.Relay.Firings
import ChatRelay.Proofs.Timer.Due

/-!
# Where answers go

An answer goes where the task of its run says. The pending task of a user is that of the newest
message, unless a run has armed an older one again since: a retry does so only where nothing is
pending, but a run that was called off does so in any case.
-/

namespace ChatRelay

/-- Where the answer to a user's messages should go, and whether an older task has been armed since
the one that says so. -/
structure Address where
  latest : Option Ticket := none
  stale : Bool := false
deriving DecidableEq, Repr

namespace Address

def next (a : Address) (user : String) : Deed → Address
  | .armed t => if t.user = user then ⟨some t, false⟩ else a
  | .rearmed t => if t.user = user then { a with stale := decide (a.latest ≠ some t) } else a
  | .retried task =>
    if task.dedupId = Ticket.dedupId user then
      { a with stale := decide (a.latest ≠ (Ticket.ofPayload task.payload).toOption) }
    else a
  | _ => a

end Address

theorem Ticket.task_injective {t t' : Ticket} {delay delay' : Nat}
    (h : t.task delay = t'.task delay') : t = t' :=
  payload_injective (congrArg Timer.Task.payload h)

namespace Relay
open Timer

/-- Where the answer to a user's messages should go by a history. -/
def address (user : String) : History → Address
  | [] => {}
  | t :: h => (address user h).next user t.deed

/-- The address agrees with what is pending. -/
structure Addressed (a : Address) (q : Queue) (user : String) : Prop where
  known : ∀ {g : Nat} {f : Firing}, q.firing? g = some f →
    f.task.dedupId = Ticket.dedupId user → ∃ t, a.latest = some t
  due : ∀ {t : Ticket} {delay : Nat}, q.due? (Ticket.dedupId user) = some (t.task delay) →
    (a.latest = some t ↔ a.stale = false)

namespace Addressed
variable {a : Address} {q q' : Queue} {user : String}

theorem of_changes (h : Addressed a q user) {e : Queue.Event} (hc : q.Changes e q')
    (hs : ∀ task, e ≠ .schedule task)
    (hr : ∀ g jitter, e = .settle g jitter → q.retried? g = none) : Addressed a q' user where
  known hf hid := by
    rcases hc.task_of hf with ⟨g₀, f₀, hf₀, htask⟩ | he
    · exact h.known hf₀ (htask ▸ hid)
    · exact absurd he (hs _)
  due hd := by
    rcases hc.due? hs hr (Ticket.dedupId user) with heq | hnone
    · exact h.due (heq ▸ hd)
    · rw [hnone] at hd
      cases hd

theorem of_armed (h : Addressed a q user) {a' : Address} (t : Ticket) (delay : Nat)
    (hf : ∀ {g f}, q'.firing? g = some f →
      (∃ g₀ f₀, q.firing? g₀ = some f₀ ∧ f₀.task = f.task) ∨ f.task = t.task delay)
    (hd : ∀ id, q'.due? id = if id = Ticket.dedupId t.user then some (t.task delay) else q.due? id)
    (hmine : t.user = user → (∃ l, a'.latest = some l) ∧ (a'.latest = some t ↔ a'.stale = false))
    (hothers : t.user ≠ user → a' = a) : Addressed a' q' user := by
  by_cases hu : t.user = user
  · obtain ⟨hlatest, hstale⟩ := hmine hu
    refine ⟨fun _ _ => hlatest, fun {t' delay'} hdue => ?_⟩
    rw [hd, if_pos (congrArg Ticket.dedupId hu.symm)] at hdue
    obtain rfl := Ticket.task_injective (Option.some.inj hdue)
    exact hstale
  · have hid : ¬ Ticket.dedupId user = Ticket.dedupId t.user := fun hid =>
      hu (Ticket.dedupId_injective hid).symm
    rw [hothers hu]
    constructor
    · intro g f hf' hid'
      rcases hf hf' with ⟨g₀, f₀, hf₀, htask⟩ | htask
      · exact h.known hf₀ (htask ▸ hid')
      · rw [htask] at hid'
        exact absurd hid'.symm hid
    · intro t' delay' hdue
      rw [hd, if_neg hid] at hdue
      exact h.due hdue

end Addressed

section
variable {σ : Type} [Store σ] [LawfulStore σ] {setup : Setup} {s s' : σ} {relay relay' : Relay}
  {d : Deed}

theorem Happens.timers_of_closed (hap : Happens setup s relay d s' relay')
    (hq : relay.queue.closed → relay.queue.timers = []) (hc : relay'.queue.closed) :
    relay'.queue.timers = [] := by
  obtain ⟨e, hqueue, -⟩ := hap.keeps
  exact (changes_of_eq hqueue).timers_of_closed hq hc

theorem Comes.timers_of_closed {s₀ : σ} {policy : RetryPolicy} {h : History}
    (hc : Comes setup s₀ policy h s relay) : relay.queue.closed → relay.queue.timers = [] := by
  refine hc.invariant (P := fun _ _ relay => relay.queue.closed → relay.queue.timers = []) ?_ ?_
  · exact fun _ => rfl
  · intro h s relay d s' relay' t _ hq _ _ _ hap
    exact hap.timers_of_closed hq

/-- The task of a ticket is armed, or refused by a queue that is shut down. -/
theorem Addressed.of_schedule {a a' : Address} {user : String} (ha : Addressed a relay.queue user)
    (ht : relay.Tended) (hq : relay.queue.Sound)
    (hclosed : relay.queue.closed → relay.queue.timers = []) (hsched : setup.scheduler = .timers)
    {t : Ticket} {delay : Nat} {queue : Queue} {handedOver : List Task}
    {outcome : Except TaskError Unit}
    (hs : relay.schedule setup (t.task delay) = ({ relay with queue, handedOver }, outcome))
    (hmine : t.user = user → (∃ l, a'.latest = some l) ∧ (a'.latest = some t ↔ a'.stale = false))
    (hothers : t.user ≠ user → a' = a) : Addressed a' queue user := by
  have hqueue : queue = (relay.queue.schedule (t.task delay)).1 := by
    have := congrArg (·.1.queue) hs
    simp only [schedule, hsched] at this
    exact this.symm
  cases hc : relay.queue.closed with
  | true =>
    have hsame : queue = relay.queue := by simp [hqueue, Queue.schedule, hc]
    rw [hsame]
    refine ⟨fun {g f} hf hid => ?_, fun {t' delay'} hd => ?_⟩
    · by_cases hu : t.user = user
      · exact (hmine hu).1
      · exact hothers hu ▸ ha.known hf hid
    · rw [Queue.due?_of_timers (by rw [hclosed hc]; rfl)] at hd
      cases hd
  | false =>
    have hk : (t.task delay).key ∈ relay.queue.handlers := by simp [ht.handlers, Ticket.task]
    subst hqueue
    refine ha.of_armed t delay (fun {g f} hf => ?_) (Queue.due?_schedule hq hc hk) hmine hothers
    apply ((Queue.changes_step relay.queue (.schedule (t.task delay))).task_of hf).imp_right
    exact fun he => (Queue.Event.schedule.inj he).symm

theorem Happens.addressed {h : History} {user : String} (hap : Happens setup s relay d s' relay')
    (ha : Addressed (address user h) relay.queue user) (ht : relay.Tended) (hm : relay.Matched)
    (hq : relay.queue.Sound) (hclosed : relay.queue.closed → relay.queue.timers = [])
    (hsched : setup.scheduler = .timers) :
    Addressed ((address user h).next user d) relay'.queue user := by
  cases hap with
  | armed hd hp hs =>
    refine ha.of_schedule ht hq hclosed hsched hs (fun hu => ?_) fun hu => if_neg hu
    simp [Address.next, hu]
  | @rearmed i r batch deposit queue handedOver outcome hr hp hd hs =>
    refine ha.of_schedule ht hq hclosed hsched hs (fun hu => ?_) fun hu => if_neg hu
    obtain ⟨g, f, delay, -, hf, htask, -⟩ := hm.owned hr
    obtain ⟨l, hl⟩ := ha.known hf (by rw [htask, ← hu]; rfl)
    simp [Address.next, hu, hl]
  | @retried g task jitter hr =>
    obtain ⟨f, outcome, hf, -, rfl, -⟩ := Queue.retried?_eq_some hr
    obtain ⟨t, delay, htask⟩ := ht.tasks hf
    have hid : f.task.dedupId = Ticket.dedupId t.user := by rw [htask]; rfl
    have hpayload : (Ticket.ofPayload f.task.payload).toOption = some t := by
      rw [htask]
      exact congrArg Except.toOption (Ticket.ofPayload_payload t)
    refine ha.of_armed t delay (fun {g' f'} hf' => ?_) (fun id => ?_)
      (fun hu => ?_) fun hu => ?_
    · rcases (Queue.changes_step relay.queue (.settle g jitter)).task_of hf' with hold | he
      · exact .inl hold
      · cases he
    · rw [(Queue.due?_retry hq hr jitter id).1, hid, htask]
    · obtain ⟨l, hl⟩ := ha.known hf (hu ▸ hid)
      simp [Address.next, hid, hu, hl, hpayload]
    · have hne : ¬ f.task.dedupId = Ticket.dedupId user := fun he =>
        hu (Ticket.dedupId_injective (hid.symm.trans he))
      simp [Address.next, hne]
  | timer e hs hacq hfin hr => exact ha.of_changes (Queue.changes_step _ e) hs hr
  | @started g f lock ticket delay hf hp htask hl =>
    exact ha.of_changes (Queue.changes_step _ (.acquire g)) (by simp) (by simp)
  | @returned i r g result hr hg hres =>
    exact ha.of_changes (Queue.changes_step _ (.finish g result)) (by simp) (by simp)
  | ran leases hr hp hne =>
    cases hp with
    | rearmed outcome hp hd => exact absurd rfl (hne _)
    | _ => exact ha
  | _ => exact ha

theorem Comes.addressed {s₀ : σ} {policy : RetryPolicy} {h : History}
    (hc : Comes setup s₀ policy h s relay) (hsched : setup.scheduler = .timers) (user : String) :
    Addressed (address user h) relay.queue user := by
  refine hc.invariant (P := fun h _ relay => Addressed (address user h) relay.queue user) ?_ ?_
  · exact ⟨by simp [Relay.fresh, Queue.firing?], by simp [Relay.fresh, Queue.due?]⟩
  · intro h s relay d s' relay' t hc ha _ _ hd hap
    rw [address, hd]
    exact hap.addressed ha hc.tended hc.matched hc.queue_sound hc.timers_of_closed hsched

/-- The pending task of a user is that of the newest message, unless an older one has been armed
since. A firing that settles leaves the task that is pending; and every run makes its request, and
tells of its failure, where the task of its firing says. -/
theorem pending_task_of_latest {s₀ : σ} {policy : RetryPolicy} {h : History}
    (hc : Comes setup s₀ policy h s relay) (hsched : setup.scheduler = .timers) :
    (∀ {user : String} {task : Task}, relay.queue.due? (Ticket.dedupId user) = some task →
      ∃ ticket latest delay, task = Ticket.task ticket delay ∧ ticket.user = user ∧
        (address user h).latest = some latest ∧
        (ticket = latest ↔ (address user h).stale = false)) ∧
    (∀ {id : String} {task : Task} (g : Nat) (jitter : Rat), relay.queue.due? id = some task →
      (relay.step setup s (.timer (.settle g jitter))).2.queue.due? id = some task) ∧
    ∀ {i : Nat} {r : BatchRun}, relay.runs[i]? = some r → ∃ g f delay, r.firing = some g ∧
      relay.queue.firing? g = some f ∧ f.task = r.ticket.task delay ∧
      (∀ {batch : List Pending} {lease : Nat} {x : Execution} {q : Request},
        r.phase = .executing batch lease x → x.request? = some q → q.chat = r.ticket.chat) ∧
      ∀ primary text, (r.notice primary text).chat = r.ticket.chat := by
  refine ⟨fun {user task} hd => ?_, fun {id task} g jitter hd => ?_, fun {i r} hr => ?_⟩
  · have ha := hc.addressed hsched user
    obtain ⟨g, hg, hget⟩ := Option.bind_eq_some_iff.mp hd
    obtain ⟨f, hf, htask⟩ := Option.map_eq_some_iff.mp hget
    obtain ⟨f₀, hf₀, hid, -⟩ := hc.queue_sound.pending hg
    obtain rfl : f = f₀ := Option.some.inj (hf.symm.trans hf₀)
    obtain ⟨ticket, delay, hticket⟩ := hc.tended.tasks hf
    obtain rfl : task = ticket.task delay := htask.symm.trans hticket
    obtain ⟨latest, hlatest⟩ := ha.known hf hid
    rw [hticket] at hid
    refine ⟨ticket, latest, delay, rfl, Ticket.dedupId_injective hid, hlatest, ?_⟩
    rw [← ha.due hd, hlatest]
    exact ⟨fun he => congrArg some he.symm, fun he => (Option.some.inj he).symm⟩
  · exact Queue.due?_settle hc.queue_sound hd g jitter
  · obtain ⟨g, f, delay, hg, hf, htask, -⟩ := hc.matched.owned hr
    refine ⟨g, f, delay, hg, hf, htask, fun {batch lease x q} hp hq => ?_, fun _ _ => rfl⟩
    have horderly := hc.tended.orderly hr
    simp only [BatchRun.Orderly, hp] at horderly
    rw [horderly.2.2 q hq]
    rfl

/-- A message comes in while a run is at work, from another chat than the one before. -/
def moving : List Event :=
  accepting 0 ⟨"u", "old", "A"⟩ "one" "m1" 5 ++ starting 0 ++ asking 0 ++
    accepting 1 ⟨"u", "new", "B"⟩ "two" "m2" 6

theorem moving_task_of_latest :
    let last := course plain ({} : Memory) .none moving
    last.2.2.queue.due? (Ticket.dedupId "u") = some (Ticket.task ⟨"u", "new", "B"⟩ 100) ∧
      (address "u" last.1).latest = some ⟨"u", "new", "B"⟩ := by
  have hc := comes_course plain ({} : Memory) .none moving (by decide +kernel)
  have hd : (course plain ({} : Memory) .none moving).2.2.queue.due? (Ticket.dedupId "u") =
      some (Ticket.task ⟨"u", "new", "B"⟩ 100) := by decide +kernel
  obtain ⟨ticket, latest, delay, htask, -, hlatest, hsame⟩ := (pending_task_of_latest hc rfl).1 hd
  obtain rfl := hsame.mpr (by decide +kernel)
  obtain rfl := Ticket.task_injective htask
  exact ⟨hd, hlatest⟩

/-- When the run is called off, its own task takes the place of that of the newest message. -/
theorem moving_then_superseding :
    let last := course plain ({} : Memory) .none (moving ++ superseding 0 "u")
    (∀ d ∈ last.2.2.deposits, d.result? = some (.ok ())) ∧
      (accepted "u" last.1).map (·.text) = ["one", "two"] ∧
      (address "u" last.1).latest = some ⟨"u", "new", "B"⟩ ∧
      last.2.2.queue.due? (Ticket.dedupId "u") = some (Ticket.task ⟨"u", "old", "A"⟩ 100) := by
  decide +kernel

end

end Relay
end ChatRelay
