import ChatRelay.Timer.Queue
import Mathlib.Data.List.Basic

/-!
# What an event does to a firing

A firing keeps its task and its attempt for good, and its phase moves only along `Phase.Leads`. New
firings come about by schedules and by retries.
-/

namespace ChatRelay.Timer

/-- The lock for which a firing in this phase counts until it tidies the table. -/
def Phase.engaged? : Phase → Option Nat
  | .waiting lock | .running lock | .ended lock _ | .unlocked lock _ => some lock
  | _ => none

def Phase.outcome? : Phase → Option (Except RelayError Unit)
  | .ended _ outcome | .unlocked _ outcome | .tidied _ outcome | .settling outcome
  | .over (.ran outcome _) => some outcome
  | _ => none

theorem Phase.engaged?_of_lock? {p : Phase} {lock : Nat} (h : p.lock? = some lock) :
    p.engaged? = some lock := by cases p <;> simp_all [lock?, engaged?]

theorem Phase.handle?_of_engaged? {p : Phase} {lock : Nat} (h : p.engaged? = some lock) :
    p.handle? = some lock := by cases p <;> simp_all [handle?, engaged?]

/-- Where an event may take a firing of generation `g` from where it is. -/
inductive Phase.Leads (g : Nat) : Queue.Event → Phase → Phase → Prop
  | calledOff (e : Queue.Event) : Leads g e .sleeping (.over .replaced)
  | woke : Leads g (.wake g) .sleeping .awake
  | overtaken : Leads g (.claim g) .awake (.over .overtaken)
  | unhandled : Leads g (.claim g) .awake (.over .unhandled)
  | claimed : Leads g (.claim g) .awake .claimed
  | waiting (lock : Nat) : Leads g (.takeHandle g) .claimed (.waiting lock)
  | running (lock : Nat) : Leads g (.acquire g) (.waiting lock) (.running lock)
  | ended (lock : Nat) (o : Except RelayError Unit) :
      Leads g (.finish g o) (.running lock) (.ended lock o)
  | unlocked (lock : Nat) (o : Except RelayError Unit) :
      Leads g (.unlock g) (.ended lock o) (.unlocked lock o)
  | tidied (lock : Nat) (o : Except RelayError Unit) :
      Leads g (.tidy g) (.unlocked lock o) (.tidied lock o)
  | settling (lock : Nat) (o : Except RelayError Unit) :
      Leads g (.dropHandle g) (.tidied lock o) (.settling o)
  | settled (jitter : Rat) (o : Except RelayError Unit) (retry : Option Nat) :
      Leads g (.settle g jitter) (.settling o) (.over (.ran o retry))

theorem Phase.Leads.outcome? {g : Nat} {e : Queue.Event} {p p' : Phase} (h : Leads g e p p')
    {o : Except RelayError Unit} (ho : p.outcome? = some o) : p'.outcome? = some o := by
  cases h <;> simp_all [Phase.outcome?]

/-- It starts once, and ends with its report. -/
theorem Phase.Leads.isRunning {g : Nat} {e : Queue.Event} {p p' : Phase} (h : Leads g e p p')
    (hr : p.isRunning) : ∃ lock o, e = .finish g o ∧ p' = .ended lock o := by
  cases h <;> simp_all [Phase.isRunning]

/-- Only a firing that takes its lock starts its handler. -/
theorem Phase.Leads.started {g : Nat} {e : Queue.Event} {p p' : Phase} (h : Leads g e p p')
    (hr : p'.isRunning) : e = .acquire g := by
  cases h <;> simp_all [Phase.isRunning]

namespace Queue

/-! ## Parts of the steps -/

section
variable (q : Queue) (g : Nat) (p : Phase)

@[simp] theorem policy_setPhase : (q.setPhase g p).policy = q.policy := rfl
@[simp] theorem handlers_setPhase : (q.setPhase g p).handlers = q.handlers := rfl
@[simp] theorem closed_setPhase : (q.setPhase g p).closed = q.closed := rfl
@[simp] theorem now_setPhase : (q.setPhase g p).now = q.now := rfl
@[simp] theorem timers_setPhase : (q.setPhase g p).timers = q.timers := rfl
@[simp] theorem locks_setPhase : (q.setPhase g p).locks = q.locks := rfl

@[simp] theorem length_setPhase : (q.setPhase g p).firings.length = q.firings.length :=
  List.length_modify ..

theorem firing?_setPhase (k : Nat) :
    (q.setPhase g p).firing? k =
      if k = g then (q.firing? k).map fun f => { f with phase := p } else q.firing? k := by
  simp only [firing?, setPhase, List.getElem?_modify]
  by_cases h : k = g
  · simp [h]
  · simp [h, Ne.symm h]

end

@[simp] theorem callOff_task (f : Firing) : (callOff f).task = f.task := by
  unfold callOff
  split <;> rfl

@[simp] theorem callOff_attempt (f : Firing) : (callOff f).attempt = f.attempt := by
  unfold callOff
  split <;> rfl

theorem callOff_phase (f : Firing) :
    (callOff f).phase = f.phase ∨ f.phase = .sleeping ∧ (callOff f).phase = .over .replaced := by
  unfold callOff
  split
  · next h => exact .inr ⟨h, rfl⟩
  · exact .inl rfl

@[simp] theorem callOff_engaged? (f : Firing) : (callOff f).phase.engaged? = f.phase.engaged? := by
  rcases callOff_phase f with h | ⟨hs, h⟩
  · rw [h]
  · rw [h, hs]
    rfl

@[simp] theorem callOff_lock? (f : Firing) : (callOff f).phase.lock? = f.phase.lock? := by
  rcases callOff_phase f with h | ⟨hs, h⟩
  · rw [h]
  · rw [h, hs]
    rfl

section
variable (q : Queue) (dedupId : String)

@[simp] theorem policy_displace : (q.displace dedupId).policy = q.policy := by
  unfold displace
  split <;> rfl

@[simp] theorem handlers_displace : (q.displace dedupId).handlers = q.handlers := by
  unfold displace
  split <;> rfl

@[simp] theorem closed_displace : (q.displace dedupId).closed = q.closed := by
  unfold displace
  split <;> rfl

@[simp] theorem timers_displace : (q.displace dedupId).timers = q.timers := by
  unfold displace
  split <;> rfl

@[simp] theorem locks_displace : (q.displace dedupId).locks = q.locks := by
  unfold displace
  split <;> rfl

@[simp] theorem nextLock_displace : (q.displace dedupId).nextLock = q.nextLock := by
  unfold displace
  split <;> rfl

@[simp] theorem length_displace : (q.displace dedupId).firings.length = q.firings.length := by
  unfold displace
  split <;> simp

theorem firing?_displace (k : Nat) :
    (q.displace dedupId).firing? k =
      if Table.get? q.timers dedupId = some k then (q.firing? k).map callOff else q.firing? k := by
  unfold displace
  split
  · next g hg =>
    simp only [firing?, List.getElem?_modify, hg, Option.some.injEq]
    split <;> simp
  · next hg => simp [hg]

end

section
variable (q : Queue) (task : Task) (delayMillis attempt : Nat) (origin : Option Nat)

@[simp] theorem policy_arm : (q.arm task delayMillis attempt origin).policy = q.policy :=
  policy_displace ..

@[simp] theorem handlers_arm : (q.arm task delayMillis attempt origin).handlers = q.handlers :=
  handlers_displace ..

@[simp] theorem closed_arm : (q.arm task delayMillis attempt origin).closed = q.closed :=
  closed_displace ..

@[simp] theorem locks_arm : (q.arm task delayMillis attempt origin).locks = q.locks :=
  locks_displace ..

@[simp] theorem nextLock_arm :
    (q.arm task delayMillis attempt origin).nextLock = q.nextLock := nextLock_displace ..

theorem get?_timers_arm (id : String) :
    Table.get? (q.arm task delayMillis attempt origin).timers id =
      if id = task.dedupId then some q.firings.length else Table.get? q.timers id := by
  simp only [arm, timers_displace]
  exact Table.get?_put ..

theorem isPending_arm : (q.arm task delayMillis attempt origin).isPending task.dedupId := by
  rw [isPending, Table.has, get?_timers_arm, if_pos rfl]
  rfl

def armed : Firing :=
  { task, attempt, origin := origin.getD q.firings.length
    due := (q.displace task.dedupId).now + delayMillis }

@[simp] theorem length_arm :
    (q.arm task delayMillis attempt origin).firings.length = q.firings.length + 1 := by
  simp [arm]

theorem firing?_arm (k : Nat) :
    (q.arm task delayMillis attempt origin).firing? k =
      if k = q.firings.length then some (q.armed task delayMillis attempt origin)
      else (q.displace task.dedupId).firing? k := by
  have hlen : (q.displace task.dedupId).firings.length = q.firings.length := length_displace ..
  simp only [firing?, arm, armed]
  rcases Nat.lt_trichotomy k q.firings.length with h | h | h
  · rw [List.getElem?_append_left (by omega), if_neg (by omega)]
  · rw [h, ← hlen, List.getElem?_concat_length, if_pos rfl]
  · rw [List.getElem?_eq_none (by simp; omega), if_neg (by omega),
      List.getElem?_eq_none (by omega)]

end

theorem schedule_eq {q : Queue} {task : Task} (hc : q.closed = false) (hk : task.key ∈ q.handlers) :
    q.schedule task = (q.arm task task.delayMillis 1 none, .ok ()) := by
  simp [schedule, hc, hk]

theorem firing?_lt {q : Queue} {g : Nat} {f : Firing} (h : q.firing? g = some f) :
    g < q.firings.length := (List.getElem?_eq_some_iff.mp h).1

theorem isPending_iff {q : Queue} {id : String} :
    q.isPending id ↔ ∃ g, Table.get? q.timers id = some g := by
  rw [isPending, Table.has, Option.isSome_iff_exists]

theorem isPending_arm_of {q : Queue} {id : String} (h : q.isPending id) (task : Task)
    (delayMillis attempt : Nat) (origin : Option Nat) :
    (q.arm task delayMillis attempt origin).isPending id := by
  obtain ⟨g, hg⟩ := isPending_iff.mp h
  rw [isPending_iff, get?_timers_arm]
  split
  · exact ⟨_, rfl⟩
  · exact ⟨g, hg⟩

/-! ## What an event makes of the queue -/

/-- The table of timers after a firing has moved: it loses the entry of one that claims it. -/
def TimersMoved (q : Queue) (g : Nat) (f : Firing) (p : Phase) (timers : Table String Nat) : Prop :=
  timers = q.timers ∨ Table.get? q.timers f.task.dedupId = some g ∧
    timers = Table.remove q.timers f.task.dedupId ∧ (f.task.key ∈ q.handlers → p = .claimed)

inductive Changes (q : Queue) : Event → Queue → Prop
  | idle (e : Event) : Changes q e q
  | waited (millis : Nat) : Changes q (.wait millis) (q.wait millis)
  | moved {e : Event} {g : Nat} {f : Firing} {p : Phase} {timers locks : Table String Nat}
      {nextLock : Nat} (hf : q.firing? g = some f) (hl : f.phase.Leads g e p)
      (ht : TimersMoved q g f p timers) :
      Changes q e ({ q with timers, locks, nextLock }.setPhase g p)
  | armed (task : Task) (hc : q.closed = false) (hk : task.key ∈ q.handlers) :
      Changes q (.schedule task) (q.arm task task.delayMillis 1 none)
  | retried {g : Nat} {f : Firing} {outcome : Except RelayError Unit} (jitter : Rat)
      (hf : q.firing? g = some f) (hp : f.phase = .settling outcome)
      (hw : q.wantsRetry f outcome) (hn : q.isPending f.task.dedupId = false) :
      Changes q (.settle g jitter)
        ((q.setPhase g (.over (.ran outcome (some q.firings.length)))).arm f.task
          (q.retryMillis f.attempt jitter) (f.attempt + 1) (some f.origin))
  | shutdown : Changes q .shutdown q.shutdown

theorem Changes.moved_only {q : Queue} {e : Event} {g : Nat} {f : Firing} {p : Phase}
    (hf : q.firing? g = some f) (hl : f.phase.Leads g e p) : Changes q e (q.setPhase g p) :=
  .moved hf hl (.inl rfl)

theorem acquire_cases (q : Queue) (g : Nat) :
    q.acquire g = q ∨ ∃ f lock, q.firing? g = some f ∧ f.phase = .waiting lock ∧
      q.isLocked lock = false ∧ q.acquire g = q.setPhase g (.running lock) := by
  unfold acquire
  split
  · next lock hp =>
    obtain ⟨f, hf, hp⟩ := Option.map_eq_some_iff.mp hp
    split
    · exact .inl rfl
    · next hl => exact .inr ⟨f, lock, hf, hp, by simpa using hl, rfl⟩
  · exact .inl rfl

theorem changes_schedule (q : Queue) (task : Task) :
    Changes q (.schedule task) (q.schedule task).1 := by
  simp only [schedule]
  split
  · exact .idle _
  · next hc =>
    split
    · exact .idle _
    · next hk => exact .armed task (by simpa using hc) (not_not.mp hk)

theorem changes_claim (q : Queue) (g : Nat) : Changes q (.claim g) (q.claim g) := by
  simp only [claim]
  split
  · next f hf =>
    split
    · exact .idle _
    · next hp =>
      have hp : f.phase = .awake := not_not.mp hp
      split
      · exact .moved_only hf (hp ▸ .overtaken)
      · next hmine =>
        have hmine := not_not.mp hmine
        split
        · exact .moved hf (hp ▸ .claimed) (.inr ⟨hmine, rfl, fun _ => rfl⟩)
        · next hk => exact .moved hf (hp ▸ .unhandled) (.inr ⟨hmine, rfl, fun h => absurd h hk⟩)
  · exact .idle _

theorem changes_takeHandle (q : Queue) (g : Nat) : Changes q (.takeHandle g) (q.takeHandle g) := by
  simp only [takeHandle]
  split
  · next f hf =>
    split
    · exact .idle _
    · next hp =>
      have hp : f.phase = .claimed := not_not.mp hp
      split
      · exact .moved_only hf (hp ▸ .waiting _)
      · exact .moved hf (hp ▸ .waiting _) (.inl rfl)
  · exact .idle _

theorem changes_tidy (q : Queue) (g : Nat) : Changes q (.tidy g) (q.tidy g) := by
  simp only [tidy]
  split
  · next f hf =>
    split
    · next lock o hp =>
      have hl : f.phase.Leads g (.tidy g) (.tidied lock o) := hp ▸ .tidied lock o
      split
      · exact (Changes.moved hf hl (.inl rfl) : Changes q (.tidy g)
          ({ q with locks := Table.remove q.locks f.task.dedupId }.setPhase g (.tidied lock o)))
      · exact .moved_only hf hl
    · exact .idle _
  · exact .idle _

theorem changes_settle (q : Queue) (g : Nat) (jitter : Rat) :
    Changes q (.settle g jitter) (q.settle g jitter) := by
  simp only [settle]
  split
  · next f hf =>
    split
    · next o hp =>
      split
      · next hc =>
        rw [Bool.and_eq_true, Bool.not_eq_true'] at hc
        exact .retried jitter hf hp hc.1 hc.2
      · exact .moved_only hf (hp ▸ .settled jitter o none)
    · exact .idle _
  · exact .idle _

/-- An event does nothing else. -/
theorem changes_step (q : Queue) (e : Event) : Changes q e (q.step e) := by
  cases e with
  | schedule task => exact changes_schedule q task
  | wait millis => exact .waited millis
  | wake g =>
    simp only [step, wake]
    split
    · next f hf =>
      split
      · next hp => exact .moved_only hf (hp.1 ▸ .woke)
      · exact .idle _
    · exact .idle _
  | claim g => exact changes_claim q g
  | takeHandle g => exact changes_takeHandle q g
  | acquire g =>
    rcases acquire_cases q g with heq | ⟨f, lock, hf, hp, -, heq⟩
    · rw [step, heq]
      exact .idle _
    · rw [step, heq]
      exact .moved_only hf (hp ▸ .running lock)
  | finish g o =>
    simp only [step, finish, phase?]
    split
    · next lock hp =>
      obtain ⟨f, hf, hp⟩ := Option.map_eq_some_iff.mp hp
      exact .moved_only hf (hp ▸ .ended lock o)
    · exact .idle _
  | unlock g =>
    simp only [step, unlock, phase?]
    split
    · next lock o hp =>
      obtain ⟨f, hf, hp⟩ := Option.map_eq_some_iff.mp hp
      exact .moved_only hf (hp ▸ .unlocked lock o)
    · exact .idle _
  | tidy g => exact changes_tidy q g
  | dropHandle g =>
    simp only [step, dropHandle, phase?]
    split
    · next lock o hp =>
      obtain ⟨f, hf, hp⟩ := Option.map_eq_some_iff.mp hp
      exact .moved_only hf (hp ▸ .settling lock o)
    · exact .idle _
  | settle g jitter => exact changes_settle q g jitter
  | shutdown => exact .shutdown

namespace Changes
variable {q q' : Queue} {e : Event}

theorem frame (h : Changes q e q') : q'.policy = q.policy ∧ q'.handlers = q.handlers := by
  cases h with
  | armed task hc hk => simp
  | retried jitter hf hp hw hn => simp
  | _ => exact ⟨rfl, rfl⟩

theorem closed (h : Changes q e q') (hc : q.closed) : q'.closed := by
  cases h with
  | armed task hc' hk => simpa using hc
  | retried jitter hf hp hw hn => simpa using hc
  | shutdown => rfl
  | _ => exact hc

/-- A pending timer stays, or is replaced, or is claimed, unless the queue is shut down. -/
theorem isPending (h : Changes q e q') {id : String} (hp : q.isPending id)
    (hk : ∀ {g f}, q.firing? g = some f → f.task.key ∈ q.handlers) :
    q'.isPending id ∨ q'.closed ∨
      ∃ g f, q'.firing? g = some f ∧ f.task.dedupId = id ∧ f.phase = .claimed := by
  cases h with
  | armed task hc hk' => exact .inl (isPending_arm_of hp ..)
  | @retried g f outcome jitter hf hp' hw hn =>
    have hset : (q.setPhase g (.over (.ran outcome (some q.firings.length)))).isPending id := hp
    exact .inl (isPending_arm_of hset ..)
  | shutdown => exact .inr (.inl rfl)
  | @moved _ g f p timers locks nextLock hf hl ht =>
    rcases ht with rfl | ⟨hmine, rfl, hclaim⟩
    · exact .inl hp
    · by_cases hid : f.task.dedupId = id
      · refine .inr (.inr ⟨g, { f with phase := p }, ?_, hid, hclaim (hk hf)⟩)
        rw [firing?_setPhase, if_pos rfl]
        exact congrArg _ hf
      · obtain ⟨g', hg'⟩ := isPending_iff.mp hp
        refine .inl (isPending_iff.mpr ⟨g', ?_⟩)
        exact (Table.get?_remove ..).trans ((if_neg (Ne.symm hid)).trans hg')
  | _ => exact .inl hp

end Changes

/-! ## What an event makes of a firing -/

def Follows (g : Nat) (e : Event) (f : Firing) (q' : Queue) : Prop :=
  ∃ p, q'.firing? g = some { f with phase := p } ∧ (p = f.phase ∨ f.phase.Leads g e p)

section
variable {q q' : Queue} {g : Nat} {f : Firing} {e : Event}

theorem Follows.refl (e : Event) (h : q.firing? g = some f) : Follows g e f q :=
  ⟨f.phase, h, .inl rfl⟩

theorem follows_setPhase {k : Nat} {fk : Firing} {p : Phase} (h : q.firing? g = some f)
    (hk : q.firing? k = some fk) (hl : fk.phase.Leads k e p) : Follows g e f (q.setPhase k p) := by
  by_cases hg : g = k
  · subst hg
    obtain rfl : f = fk := Option.some.inj (h.symm.trans hk)
    exact ⟨p, by rw [firing?_setPhase, if_pos rfl, h]; rfl, .inr hl⟩
  · exact ⟨f.phase, by rw [firing?_setPhase, if_neg hg, h], .inl rfl⟩

theorem follows_callOff (h : q.firing? g = some (callOff f)) : Follows g e f q := by
  refine ⟨(callOff f).phase, ?_, ?_⟩
  · rw [h]
    unfold callOff
    split <;> rfl
  · rcases callOff_phase f with hp | ⟨hs, hp⟩
    · exact .inl hp
    · rw [hs, hp]
      exact .inr (.calledOff e)

theorem follows_arm (h : q.firing? g = some f) (task : Task) (delayMillis attempt : Nat)
    (origin : Option Nat) : Follows g e f (q.arm task delayMillis attempt origin) := by
  have hg := firing?_lt h
  have hk := firing?_arm q task delayMillis attempt origin g
  rw [if_neg (by omega), firing?_displace, h] at hk
  split at hk
  · exact follows_callOff hk
  · exact .refl e hk

/-- A firing keeps its task and its attempt, and its phase moves along. -/
theorem Changes.follows (hc : Changes q e q') (h : q.firing? g = some f) : Follows g e f q' := by
  cases hc with
  | idle e => exact .refl _ h
  | waited millis => exact .refl _ h
  | moved hf hl ht => exact follows_setPhase h hf hl
  | armed task hc hk => exact follows_arm h ..
  | @retried k fk outcome jitter hf hp hw hn =>
    by_cases hg : g = k
    · -- the firing that retries is over before its successor is armed
      subst hg
      obtain rfl : f = fk := Option.some.inj (h.symm.trans hf)
      have hover : (q.setPhase g (.over (.ran outcome (some q.firings.length)))).firing? g =
          some { f with phase := .over (.ran outcome (some q.firings.length)) } := by
        rw [firing?_setPhase, if_pos rfl, h]
        rfl
      obtain ⟨p, hp', rfl | hpl⟩ := follows_arm (e := .settle g jitter) hover f.task
        (q.retryMillis f.attempt jitter) (f.attempt + 1) (some f.origin)
      · exact ⟨_, hp', .inr (hp ▸ .settled jitter outcome _)⟩
      · cases hpl
    · refine follows_arm ?_ ..
      rw [firing?_setPhase, if_neg hg, h]
  | shutdown =>
    apply follows_callOff
    change (q.firings.map callOff)[g]? = _
    rw [List.getElem?_map]
    exact congrArg (Option.map callOff) h

/-- Where a firing comes from that an event brings about. -/
inductive Arises (q : Queue) (f : Firing) : Event → Prop
  | scheduled (hs : f.phase = .sleeping) : Arises q f (.schedule f.task)
  | retried {k : Nat} {fk : Firing} (jitter : Rat) (hk : q.firing? k = some fk)
      (hf : f.task = fk.task) (hs : f.phase = .sleeping) : Arises q f (.settle k jitter)

theorem Arises.sleeping (h : Arises q f e) : f.phase = .sleeping := by
  cases h with
  | scheduled hs => exact hs
  | retried jitter hk hf hs => exact hs

theorem Changes.arises (hc : Changes q e q') (hn : q.firing? g = none)
    (h : q'.firing? g = some f) : Arises q f e := by
  have harm : ∀ {q₁ : Queue} {task delayMillis attempt origin}, q₁.firing? g = none →
      (q₁.arm task delayMillis attempt origin).firing? g = some f →
      f.task = task ∧ f.phase = .sleeping := by
    intro q₁ task delayMillis attempt origin hn' hf
    rw [firing?_arm, firing?_displace, hn'] at hf
    split at hf
    · obtain rfl := Option.some.inj hf
      exact ⟨rfl, rfl⟩
    · split at hf <;> cases hf
  cases hc with
  | armed task hc hk =>
    obtain ⟨rfl, hs⟩ := harm hn h
    exact .scheduled hs
  | retried jitter hf hp hw hn' =>
    obtain ⟨htask, hs⟩ := harm (by rw [firing?_setPhase, hn]; split <;> rfl) h
    exact .retried jitter hf htask hs
  | @moved _ k fk p timers locks nextLock hf hl ht =>
    rw [firing?_setPhase] at h
    have hn' : ({ q with timers, locks, nextLock } : Queue).firing? g = none := hn
    rw [hn'] at h
    split at h <;> cases h
  | shutdown =>
    change (q.firings.map callOff)[g]? = _ at h
    rw [List.getElem?_map] at h
    change q.firings[g]? = none at hn
    rw [hn] at h
    cases h
  | _ =>
    change q.firings[g]? = none at hn
    change q.firings[g]? = _ at h
    rw [hn] at h
    cases h

/-- A firing whose handler runs did so before, unless it has just got its lock. -/
theorem Changes.running (hc : Changes q e q') (h : q'.firing? g = some f)
    (hr : f.phase.isRunning) :
    e = .acquire g ∨ ∃ f', q.firing? g = some f' ∧ f'.phase.isRunning := by
  cases hf : q.firing? g with
  | none =>
    rw [(hc.arises hf h).sleeping] at hr
    cases hr
  | some f' =>
    obtain ⟨p, hp, hl⟩ := hc.follows hf
    obtain rfl := Option.some.inj (hp.symm.trans h)
    rcases hl with rfl | hl
    · exact .inr ⟨f', rfl, hr⟩
    · exact .inl (hl.started hr)

end

/-! ## Retries -/

/-- A firing has settled, and a timer of its task is pending: that of a newer schedule, or that of a
retry. -/
def LeavesTimer (q : Queue) (f : Firing) (q' : Queue) : Prop :=
  q.isPending f.task.dedupId ∧ q'.timers = q.timers ∨
    ∃ g f', Table.get? q'.timers f.task.dedupId = some g ∧ q'.firing? g = some f' ∧
      f'.task = f.task ∧ f'.attempt = f.attempt + 1 ∧ f'.phase = .sleeping

theorem LeavesTimer.isPending {q q' : Queue} {f : Firing} (h : LeavesTimer q f q') :
    q'.isPending f.task.dedupId := by
  rw [isPending_iff]
  rcases h with ⟨hpend, hsame⟩ | ⟨g, -, hget, -⟩
  · rw [hsame]
    exact isPending_iff.mp hpend
  · exact ⟨g, hget⟩

theorem leavesTimer_settle {q : Queue} {g : Nat} {f : Firing} {outcome : Except RelayError Unit}
    (hf : q.firing? g = some f) (hp : f.phase = .settling outcome) (hw : q.wantsRetry f outcome)
    (jitter : Rat) : LeavesTimer q f (q.settle g jitter) := by
  cases hpend : q.isPending f.task.dedupId with
  | true => exact .inl ⟨hpend, by simp [settle, hf, hp, hpend]⟩
  | false =>
    refine .inr ⟨q.firings.length,
      (q.setPhase g (.over (.ran outcome (some q.firings.length)))).armed f.task
        (q.retryMillis f.attempt jitter) (f.attempt + 1) (some f.origin), ?_, ?_, rfl, rfl, rfl⟩
    · simp [settle, hf, hp, hw, hpend, get?_timers_arm]
    · simp [settle, hf, hp, hw, hpend, firing?_arm]

/-- The task that is tried again if the firing settles now. -/
def retried? (q : Queue) (g : Nat) : Option Task :=
  match q.firing? g with
  | some f =>
    match f.phase with
    | .settling outcome =>
      if q.wantsRetry f outcome && !q.isPending f.task.dedupId then some f.task else none
    | _ => none
  | none => none

/-- A retry is armed only where no timer is pending. -/
theorem retried?_eq_some {q : Queue} {g : Nat} {task : Task} (h : q.retried? g = some task) :
    ∃ f outcome, q.firing? g = some f ∧ f.phase = .settling outcome ∧ f.task = task ∧
      q.wantsRetry f outcome ∧ q.isPending task.dedupId = false ∧
      ∀ jitter, q.settle g jitter =
        (q.setPhase g (.over (.ran outcome (some q.firings.length)))).arm task
          (q.retryMillis f.attempt jitter) (f.attempt + 1) (some f.origin) := by
  unfold retried? at h
  split at h
  · next f hf =>
    split at h
    · next outcome hp =>
      split at h
      · next hc =>
        obtain rfl := Option.some.inj h
        have hc' := hc
        simp only [Bool.and_eq_true, Bool.not_eq_true'] at hc'
        refine ⟨f, outcome, hf, hp, rfl, hc'.1, hc'.2, fun jitter => ?_⟩
        simp only [settle, hf, hp, hc, if_true]
      · cases h
    · cases h
  · cases h

end Queue
end ChatRelay.Timer
