import ChatRelay.Proofs.Timer.Due

/-!
# Claiming a timer

Each timer is claimed by one firing at most, and only by the one that was armed last for its dedup
id. So a task that is scheduled takes the place of all that were scheduled before it and have not
been claimed: its own firing is the only one of them that can still start its handler, and does so
when its delay is over. A queue that is shut down starts the handlers of those that had claimed
their timers by then, and of no others.
-/

namespace ChatRelay.Timer

def Phase.hasClaimed : Phase → Bool
  | .sleeping | .awake | .over .replaced | .over .overtaken => false
  | _ => true

/-- Whether the handler is at work, or has been. -/
def Phase.hasStarted : Phase → Bool
  | .running _ | .ended _ _ | .unlocked _ _ | .tidied _ _ | .settling _ | .over (.ran _ _) => true
  | _ => false

def Phase.hasWoken : Phase → Bool
  | .sleeping | .over .replaced => false
  | _ => true

theorem Phase.hasClaimed_of_hasStarted {p : Phase} (h : p.hasStarted) : p.hasClaimed := by
  rcases p with _ | _ | _ | _ | _ | _ | _ | _ | _ | ending
  case «over» => cases ending <;> simp_all [hasStarted, hasClaimed]
  all_goals simp_all [hasStarted, hasClaimed]

theorem Phase.hasWoken_of_hasClaimed {p : Phase} (h : p.hasClaimed) : p.hasWoken := by
  rcases p with _ | _ | _ | _ | _ | _ | _ | _ | _ | ending
  case «over» => cases ending <;> simp_all [hasClaimed, hasWoken]
  all_goals simp_all [hasClaimed, hasWoken]

theorem Phase.not_hasClaimed_of_isUnclaimed {p : Phase} (h : p.isUnclaimed) :
    p.hasClaimed = false := by
  cases p <;> simp_all [isUnclaimed, hasClaimed]

def Queue.Event.firing? : Queue.Event → Option Nat
  | .wake g | .claim g | .takeHandle g | .acquire g | .finish g _ | .unlock g | .tidy g
  | .dropHandle g | .settle g _ => some g
  | .schedule _ | .wait _ | .shutdown => none

namespace Phase.Leads
variable {g : Nat} {e : Queue.Event} {p p' : Phase}

theorem hasClaimed (h : Leads g e p p') (hp : p.hasClaimed) : p'.hasClaimed := by
  cases h <;> simp_all [Phase.hasClaimed]

/-- A timer is claimed from the phase in which its firing is awake. -/
theorem claim_of (h : Leads g e p p') (hp : p.hasClaimed = false) (hp' : p'.hasClaimed) :
    e = .claim g ∧ p = .awake := by
  cases h <;> simp_all [Phase.hasClaimed]

/-- Only a firing itself makes a step once it has claimed its timer. -/
theorem own (h : Leads g e p p') (hp : p.hasClaimed) : e.firing? = some g := by
  cases h <;> simp_all [Phase.hasClaimed, Queue.Event.firing?]

theorem wake_of (h : Leads g e p p') (hp : p.hasWoken = false) (hp' : p'.hasWoken) :
    e = .wake g ∧ p = .sleeping := by
  cases h <;> simp_all [Phase.hasWoken]

end Phase.Leads

namespace Queue

def fresh (policy : RetryPolicy) (handlers : List String) : Queue := { policy, handlers }

def run (q : Queue) (es : List Event) : Queue := es.foldl step q

@[simp] theorem run_nil (q : Queue) : q.run [] = q := rfl

@[simp] theorem run_cons (q : Queue) (e : Event) (es : List Event) :
    q.run (e :: es) = (q.step e).run es := rfl

@[simp] theorem run_append (q : Queue) (es es' : List Event) :
    q.run (es ++ es') = (q.run es).run es' := List.foldl_append

def claimed? (q : Queue) : Event → Option Nat
  | .claim g =>
    match q.firing? g with
    | some f =>
      if f.phase = .awake ∧ Table.get? q.timers f.task.dedupId = some g then some g else none
    | none => none
  | _ => none

/-- The firings that claim their timers, in the order in which they do. -/
def claims (q : Queue) : List Event → List Nat
  | [] => []
  | e :: es => (q.claimed? e).toList ++ (q.step e).claims es

def Started (q : Queue) (g : Nat) : Prop := ∃ f, q.firing? g = some f ∧ f.phase.hasStarted

def Claimed (q : Queue) (g : Nat) : Prop := ∃ f, q.firing? g = some f ∧ f.phase.hasClaimed

theorem Started.claimed {q : Queue} {g : Nat} (h : q.Started g) : q.Claimed g := by
  obtain ⟨f, hf, hp⟩ := h
  exact ⟨f, hf, Phase.hasClaimed_of_hasStarted hp⟩

theorem claimed?_eq_some {q : Queue} {e : Event} {g : Nat} :
    q.claimed? e = some g ↔ e = .claim g ∧ ∃ f, q.firing? g = some f ∧ f.phase = .awake ∧
      Table.get? q.timers f.task.dedupId = some g := by
  cases e with
  | claim k =>
    cases hk : q.firing? k with
    | none =>
      simp only [claimed?, hk, reduceCtorEq, false_iff, not_and, not_exists]
      intro heq f hf
      obtain rfl := Event.claim.inj heq
      simp [hk] at hf
    | some f =>
      simp only [claimed?, hk, Option.ite_none_right_eq_some, Option.some.injEq]
      constructor
      · rintro ⟨hc, rfl⟩
        exact ⟨rfl, f, hk, hc⟩
      · rintro ⟨heq, f', hf', hc⟩
        cases heq
        obtain rfl := Option.some.inj (hk.symm.trans hf')
        exact ⟨hc, rfl⟩
  | _ => simp [claimed?]

section
variable {q : Queue} {e : Event} {g : Nat} {f : Firing}

theorem step_of_claimed (h : q.claimed? e = some g) (hf : q.firing? g = some f) :
    (q.step e).timers = Table.remove q.timers f.task.dedupId ∧ (q.step e).Claimed g := by
  obtain ⟨rfl, f', hf', hp, hmine⟩ := claimed?_eq_some.mp h
  obtain rfl := Option.some.inj (hf.symm.trans hf')
  simp only [step, claim, hf, hp, hmine, ne_eq, not_true_eq_false, if_false]
  split
  · exact ⟨rfl, _, by rw [firing?_setPhase, if_pos rfl]; exact congrArg _ hf, rfl⟩
  · exact ⟨rfl, _, by rw [firing?_setPhase, if_pos rfl]; exact congrArg _ hf, rfl⟩

theorem Claimed.step (h : q.Claimed g) (e : Event) : (q.step e).Claimed g := by
  obtain ⟨f, hf, hp⟩ := h
  obtain ⟨p, hf', hl⟩ := (changes_step q e).follows hf
  refine ⟨_, hf', ?_⟩
  rcases hl with rfl | hl
  · exact hp
  · exact hl.hasClaimed hp

theorem claimed_step (h : (q.step e).Claimed g) : q.Claimed g ∨ q.claimed? e = some g := by
  obtain ⟨f', hf', hp'⟩ := h
  cases hf : q.firing? g with
  | none =>
    rw [((changes_step q e).arises hf hf').sleeping] at hp'
    cases hp'
  | some f =>
    obtain ⟨p, hp, hl⟩ := (changes_step q e).follows hf
    obtain rfl := Option.some.inj (hp.symm.trans hf')
    cases hc : f.phase.hasClaimed with
    | true => exact .inl ⟨f, hf, hc⟩
    | false =>
      rcases hl with rfl | hl
      · rw [hc] at hp'
        cases hp'
      · obtain ⟨rfl, hawake⟩ := hl.claim_of hc hp'
        refine .inr (claimed?_eq_some.mpr ⟨rfl, f, hf, hawake, ?_⟩)
        by_contra hno
        -- the timer is another firing's, and this one is over
        have hover : (q.step (.claim g)).firing? g = some { f with phase := .over .overtaken } := by
          simp only [Queue.step, claim, hf, hawake, ne_eq, not_true_eq_false, if_false, hno,
            not_false_eq_true, if_true, firing?_setPhase]
          rfl
        obtain rfl := congrArg Firing.phase (Option.some.inj (hover.symm.trans hp))
        cases hp'

/-- A firing that has claimed its timer is left alone by all events but its own. -/
theorem firing?_step_of_claimed (hf : q.firing? g = some f) (hp : f.phase.hasClaimed)
    (he : e.firing? ≠ some g) : (q.step e).firing? g = some f := by
  obtain ⟨p, hf', rfl | hl⟩ := (changes_step q e).follows hf
  · exact hf'
  · exact absurd (hl.own hp) he

end

/-! ## What holds at all times -/

/-- Nothing was armed for an id after this firing. -/
def IsLatest (q : Queue) (id : String) (g : Nat) : Prop :=
  ∀ g' f', q.firing? g' = some f' → f'.task.dedupId = id → g' ≤ g

/-- What goes without saying for a queue besides its tables being sound. -/
structure Regular (q : Queue) : Prop where
  keys : (q.timers.map (·.1)).Nodup
  latest : ∀ {id : String} {g : Nat}, Table.get? q.timers id = some g → q.IsLatest id g
  due : ∀ {g : Nat} {f : Firing}, q.firing? g = some f → f.phase.hasWoken → f.due ≤ q.now

theorem now_displace (q : Queue) (id : String) : (q.displace id).now = q.now := by
  unfold displace
  split <;> rfl

@[simp] theorem now_arm (q : Queue) (task : Task) (delayMillis attempt : Nat)
    (origin : Option Nat) : (q.arm task delayMillis attempt origin).now = q.now :=
  now_displace ..

section
variable {q q' : Queue} {e : Event}

theorem Changes.now_le (h : Changes q e q') : q.now ≤ q'.now := by
  cases h with
  | waited millis => exact Nat.le_add_right ..
  | armed task hc hk => simp
  | retried jitter hf hp hw hn => simp [setPhase]
  | _ => exact Nat.le_refl _

theorem nodup_keys_arm (h : (q.timers.map (·.1)).Nodup) (task : Task) (delayMillis attempt : Nat)
    (origin : Option Nat) :
    ((q.arm task delayMillis attempt origin).timers.map (·.1)).Nodup := by
  simp only [arm, timers_displace]
  exact Table.nodup_keys_put h ..

theorem Changes.keys (h : Changes q e q') (hq : (q.timers.map (·.1)).Nodup) :
    (q'.timers.map (·.1)).Nodup := by
  cases h with
  | moved hf hl ht =>
    rcases ht with rfl | ⟨-, rfl, -⟩
    · exact hq
    · exact Table.nodup_keys_remove hq _
  | armed task hc hk => exact nodup_keys_arm hq ..
  | retried jitter hf hp hw hn => exact nodup_keys_arm (by simpa using hq) ..
  | shutdown => exact List.nodup_nil
  | _ => exact hq

theorem IsLatest.setPhase {id : String} {g : Nat} (h : q.IsLatest id g) (k : Nat) (p : Phase) :
    (q.setPhase k p).IsLatest id g := by
  intro g' f' hf hid
  rw [firing?_setPhase] at hf
  split at hf
  · obtain ⟨f, hold, rfl⟩ := Option.map_eq_some_iff.mp hf
    exact h _ _ hold hid
  · exact h _ _ hf hid

theorem IsLatest.arm (h : ∀ {id : String} {g : Nat}, Table.get? q.timers id = some g →
      q.IsLatest id g) {task : Task} {delayMillis attempt : Nat} {origin : Option Nat} {id : String}
    {g : Nat} (ht : Table.get? (q.arm task delayMillis attempt origin).timers id = some g) :
    (q.arm task delayMillis attempt origin).IsLatest id g := by
  intro g' f' hf hid
  have hlt := firing?_lt hf
  rw [length_arm] at hlt
  rw [get?_timers_arm] at ht
  split at ht
  · obtain rfl := Option.some.inj ht
    omega
  · next hne =>
    rw [firing?_arm] at hf
    split at hf
    · obtain rfl := Option.some.inj hf
      exact absurd hid.symm hne
    · rw [firing?_displace] at hf
      split at hf
      · obtain ⟨f, hold, rfl⟩ := Option.map_eq_some_iff.mp hf
        exact h ht _ _ hold (by simpa using hid)
      · exact h ht _ _ hf hid

theorem Changes.latest (h : Changes q e q')
    (hq : ∀ {id : String} {g : Nat}, Table.get? q.timers id = some g → q.IsLatest id g)
    {id : String} {g : Nat} (ht : Table.get? q'.timers id = some g) : q'.IsLatest id g := by
  cases h with
  | @moved _ k f p timers locks nextLock hk hl htm =>
    have hold : Table.get? q.timers id = some g := by
      rcases htm with rfl | ⟨-, rfl, -⟩
      · exact ht
      · refine Eq.trans ?_ ht
        change _ = Table.get? (Table.remove q.timers f.task.dedupId) id
        rw [Table.get?_remove, if_neg]
        rintro rfl
        have hnone := (Table.get?_remove q.timers f.task.dedupId f.task.dedupId).symm.trans ht
        simp at hnone
    have hl : IsLatest { q with timers, locks, nextLock } id g := hq hold
    exact hl.setPhase k p
  | armed task hc hk => exact IsLatest.arm hq ht
  | @retried k f outcome jitter hk hp hw hn =>
    have hset : ∀ {id g},
        Table.get? (q.setPhase k (.over (.ran outcome (some q.firings.length)))).timers id =
          some g → (q.setPhase k (.over (.ran outcome (some q.firings.length)))).IsLatest id g :=
      fun hold => (hq hold).setPhase _ _
    exact IsLatest.arm hset ht
  | shutdown => cases ht
  | _ => exact hq ht

end

theorem regular_fresh (policy : RetryPolicy) (handlers : List String) :
    (fresh policy handlers).Regular where
  keys := List.nodup_nil
  latest h := by cases h
  due h := by simp [firing?, fresh] at h

theorem Regular.step {q : Queue} (h : q.Regular) (e : Event) : (q.step e).Regular where
  keys := (changes_step q e).keys h.keys
  latest := (changes_step q e).latest h.latest
  due {g f'} hf' hp' := by
    cases hf : q.firing? g with
    | none =>
      rw [((changes_step q e).arises hf hf').sleeping] at hp'
      cases hp'
    | some f =>
      obtain ⟨p, hp, hl⟩ := (changes_step q e).follows hf
      obtain rfl := Option.some.inj (hp.symm.trans hf')
      have hnow := (changes_step q e).now_le
      cases hw : f.phase.hasWoken with
      | true =>
        have hdue := h.due hf hw
        exact Nat.le_trans hdue hnow
      | false =>
        rcases hl with rfl | hl
        · rw [hw] at hp'
          cases hp'
        · obtain ⟨rfl, hsleeps⟩ := hl.wake_of hw hp'
          by_cases hd : f.due ≤ q.now
          · exact Nat.le_trans hd hnow
          · -- it does not wake up before it is due
            rw [Queue.step, wake, hf] at hp
            simp only [hd, and_false, if_false] at hp
            obtain rfl := congrArg Firing.phase (Option.some.inj (hf.symm.trans hp))
            rw [hw] at hp'
            cases hp'

/-! ## What holds of runs -/

section
variable {q : Queue} {g : Nat} {f : Firing}

theorem Sound.run (h : q.Sound) (es : List Event) : (q.run es).Sound := by
  induction es generalizing q with
  | nil => exact h
  | cons e es ih => exact ih (h.step e)

theorem Regular.run (h : q.Regular) (es : List Event) : (q.run es).Regular := by
  induction es generalizing q with
  | nil => exact h
  | cons e es ih => exact ih (h.step e)

theorem Claimed.run (h : q.Claimed g) (es : List Event) : (q.run es).Claimed g := by
  induction es generalizing q with
  | nil => exact h
  | cons e es ih => exact ih (h.step e)

/-- A firing keeps its task for good. -/
theorem firing?_run (hf : q.firing? g = some f) (es : List Event) :
    ∃ p, (q.run es).firing? g = some { f with phase := p } := by
  induction es generalizing q f with
  | nil => exact ⟨f.phase, hf⟩
  | cons e es ih =>
    obtain ⟨p, hp, -⟩ := (changes_step q e).follows hf
    obtain ⟨p', hp'⟩ := ih hp
    exact ⟨p', hp'⟩

theorem not_claimed_of_mem_claims {es : List Event} (h : g ∈ q.claims es) : ¬ q.Claimed g := by
  induction es generalizing q with
  | nil => cases h
  | cons e es ih =>
    rcases List.mem_append.mp h with h | h
    · rw [Option.mem_toList, claimed?_eq_some] at h
      obtain ⟨-, f, hf, hp, -⟩ := h
      rintro ⟨f', hf', hc⟩
      obtain rfl := Option.some.inj (hf.symm.trans hf')
      rw [hp] at hc
      cases hc
    · exact fun hc => ih h (hc.step e)

theorem claimed_of_claimed? {e : Event} (h : q.claimed? e = some g) : (q.step e).Claimed g := by
  obtain ⟨-, f, hf, -⟩ := claimed?_eq_some.mp h
  exact (step_of_claimed h hf).2

theorem claimed_run_iff {es : List Event} :
    (q.run es).Claimed g ↔ q.Claimed g ∨ g ∈ q.claims es := by
  induction es generalizing q with
  | nil => simp [claims]
  | cons e es ih =>
    rw [run_cons, ih, claims, List.mem_append, Option.mem_toList]
    constructor
    · rintro (h | h)
      · exact (claimed_step h).imp_right .inl
      · exact .inr (.inr h)
    · rintro (h | h | h)
      · exact .inl (h.step e)
      · exact .inl (claimed_of_claimed? h)
      · exact .inr h

theorem nodup_claims (q : Queue) (es : List Event) : (q.claims es).Nodup := by
  induction es generalizing q with
  | nil => exact List.nodup_nil
  | cons e es ih =>
    refine List.nodup_append.mpr ⟨?_, ih _, ?_⟩
    · cases q.claimed? e <;> simp
    · rintro g hg _ hlater rfl
      exact not_claimed_of_mem_claims hlater (claimed_of_claimed? (Option.mem_toList.mp hg))

/-- A firing whose timer was not claimed before something newer was armed for its id never claims
it. -/
theorem not_claimed_of_later (h : q.Regular) {g' : Nat} {f' : Firing} (hf : q.firing? g = some f)
    (hf' : q.firing? g' = some f') (hid : f'.task.dedupId = f.task.dedupId) (hlt : g' < g)
    (hn : ¬ q.Claimed g') (es : List Event) : ¬ (q.run es).Claimed g' := by
  induction es generalizing q f f' with
  | nil => exact hn
  | cons e es ih =>
    obtain ⟨p, hp, -⟩ := (changes_step q e).follows hf
    obtain ⟨p', hp', -⟩ := (changes_step q e).follows hf'
    refine ih (h.step e) hp hp' hid fun hc => ?_
    rcases claimed_step hc with hc | hc
    · exact hn hc
    · obtain ⟨-, f₀, hf₀, -, hmine⟩ := claimed?_eq_some.mp hc
      obtain rfl := Option.some.inj (hf'.symm.trans hf₀)
      have hle := h.latest hmine g f hf hid.symm
      omega

/-- A queue that is shut down has no timers, and nothing is claimed or armed any more. -/
theorem run_of_closed (hc : q.closed) (ht : q.timers = []) (es : List Event) :
    (q.run es).closed ∧ (q.run es).timers = [] ∧ q.claims es = [] := by
  induction es generalizing q with
  | nil => exact ⟨hc, ht, rfl⟩
  | cons e es ih =>
    have hch := changes_step q e
    have hnone : q.claimed? e = none := by
      by_contra h
      obtain ⟨g, hg⟩ := Option.ne_none_iff_exists'.mp h
      obtain ⟨-, f, -, -, hmine⟩ := claimed?_eq_some.mp hg
      rw [ht] at hmine
      cases hmine
    obtain ⟨hc', ht', hcl⟩ :=
      ih (hch.closed hc) (hch.timers_of_closed (fun _ => ht) (hch.closed hc))
    exact ⟨hc', ht', by rw [claims, hnone, hcl]; rfl⟩

theorem claimed_of_shutdown (h : q.shutdown.Claimed g) : q.Claimed g := by
  refine (claimed_step (e := .shutdown) h).resolve_right fun hc => ?_
  obtain ⟨heq, -⟩ := claimed?_eq_some.mp hc
  cases heq

end

/-! ## Coming to the handler -/

section
variable {q : Queue} {g : Nat} {f : Firing}

theorem firing?_setPhase_self (hf : q.firing? g = some f) (p : Phase) :
    (q.setPhase g p).firing? g = some { f with phase := p } := by
  rw [firing?_setPhase, if_pos rfl, hf]
  rfl

/-- When its delay is over, the firing whose timer is pending claims it and asks for its lock. -/
theorem comes_to_wait (hf : q.firing? g = some f) (hp : f.phase = .sleeping)
    (ht : Table.get? q.timers f.task.dedupId = some g) (hk : f.task.key ∈ q.handlers) :
    ∃ lock, (q.run [.wait f.due, .wake g, .claim g, .takeHandle g]).firing? g =
      some { f with phase := .waiting lock } := by
  have hwaited : (q.wait f.due).firing? g = some f := hf
  have hwoken : (q.wait f.due).wake g = (q.wait f.due).setPhase g .awake := by
    have hdue : f.due ≤ (q.wait f.due).now := Nat.le_add_left ..
    simp only [wake, hwaited, hp, hdue, and_self, if_true]
  have hawake := firing?_setPhase_self hwaited .awake
  have hclaimed : (((q.wait f.due).setPhase g .awake).claim g).firing? g =
      some { f with phase := .claimed } := by
    have ht' : Table.get? ((q.wait f.due).setPhase g .awake).timers f.task.dedupId = some g := ht
    have hk' : f.task.key ∈ ((q.wait f.due).setPhase g .awake).handlers := hk
    simp only [claim, hawake, ht', ne_eq, not_true_eq_false, if_false, hk', if_true]
    exact firing?_setPhase_self hawake _
  simp only [run_cons, run_nil, step, hwoken]
  generalize ((q.wait f.due).setPhase g .awake).claim g = q' at hclaimed ⊢
  unfold takeHandle
  simp only [hclaimed, ne_eq, not_true_eq_false, if_false]
  split
  · exact ⟨_, firing?_setPhase_self hclaimed _⟩
  · exact ⟨_, firing?_setPhase_self hclaimed _⟩

/-- The holder of a lock lets go of it, and nobody else notices. -/
theorem let_go (hs : q.Sound) {lock : Nat} (hl : q.isLocked lock) :
    ∃ k, (q.run [.finish k (.ok ()), .unlock k]).isLocked lock = false ∧
      ∀ g f, q.firing? g = some f → f.phase.lock? = none →
        (q.run [.finish k (.ok ()), .unlock k]).firing? g = some f := by
  obtain ⟨f, hmem, hlock⟩ := List.any_eq_true.mp hl
  rw [decide_eq_true_eq] at hlock
  obtain ⟨k, hk⟩ := List.mem_iff_getElem?.mp hmem
  have hfree : ∀ o, (q.setPhase k (.unlocked lock o)).isLocked lock = false := by
    intro o
    rw [isLocked, List.any_eq_false]
    intro f' hf' hlock'
    rw [decide_eq_true_eq] at hlock'
    obtain ⟨k', hk'⟩ := List.mem_iff_getElem?.mp hf'
    have hafter := (firing?_setPhase q k (.unlocked lock o) k').symm.trans hk'
    split at hafter
    · obtain ⟨f₀, -, rfl⟩ := Option.map_eq_some_iff.mp hafter
      cases hlock'
    · next hne => exact hne (hs.exclusive hafter hk hlock' hlock)
  have hother : ∀ p g f', q.firing? g = some f' → f'.phase.lock? = none →
      (q.setPhase k p).firing? g = some f' := by
    intro p g f' hf' hnone
    rw [firing?_setPhase, if_neg, hf']
    rintro rfl
    obtain rfl := Option.some.inj (hf'.symm.trans hk)
    rw [hlock] at hnone
    cases hnone
  have hphase : q.phase? k = some f.phase := congrArg (Option.map _) hk
  cases hp : f.phase with
  | running l =>
    obtain rfl : l = lock := by simpa [hp, Phase.lock?] using hlock
    have hrun : q.run [.finish k (.ok ()), .unlock k] =
        (q.setPhase k (.ended l (.ok ()))).setPhase k (.unlocked l (.ok ())) := by
      have hended : (q.setPhase k (.ended l (.ok ()))).phase? k = some (.ended l (.ok ())) := by
        rw [phase?, firing?_setPhase_self hk]
        rfl
      simp [step, finish, unlock, hphase, hp, hended]
    have hsame : (q.setPhase k (.ended l (.ok ()))).setPhase k (.unlocked l (.ok ())) =
        q.setPhase k (.unlocked l (.ok ())) := by
      simp [setPhase, List.modify_modify_eq, Function.comp_def]
    exact ⟨k, by rw [hrun, hsame]; exact hfree _, by rw [hrun, hsame]; exact hother _⟩
  | ended l o =>
    obtain rfl : l = lock := by simpa [hp, Phase.lock?] using hlock
    have hrun : q.run [.finish k (.ok ()), .unlock k] = q.setPhase k (.unlocked l o) := by
      simp [step, finish, unlock, hphase, hp]
    exact ⟨k, by rw [hrun]; exact hfree _, by rw [hrun]; exact hother _⟩
  | _ => simp [hp, Phase.lock?] at hlock

theorem started_of_acquire {lock : Nat} (hf : q.firing? g = some f) (hp : f.phase = .waiting lock)
    (hl : q.isLocked lock = false) : (q.step (.acquire g)).Started g := by
  have hacq : q.step (.acquire g) = q.setPhase g (.running lock) := by
    simp [step, acquire, phase?, hf, hp, hl]
  rw [hacq]
  exact ⟨_, firing?_setPhase_self hf _, rfl⟩

/-- A firing whose timer is pending may come to its handler, whoever has the lock before. -/
theorem may_start (hs : q.Sound) (hf : q.firing? g = some f) (hp : f.phase = .sleeping)
    (ht : Table.get? q.timers f.task.dedupId = some g) (hk : f.task.key ∈ q.handlers) :
    ∃ es, (q.run es).Started g := by
  obtain ⟨lock, hwaits⟩ := comes_to_wait hf hp ht hk
  have hs' := hs.run [.wait f.due, .wake g, .claim g, .takeHandle g]
  cases hl : (q.run [.wait f.due, .wake g, .claim g, .takeHandle g]).isLocked lock with
  | false =>
    refine ⟨[.wait f.due, .wake g, .claim g, .takeHandle g] ++ [.acquire g], ?_⟩
    rw [run_append]
    exact started_of_acquire hwaits rfl hl
  | true =>
    obtain ⟨k, hfree, hother⟩ := let_go hs' hl
    refine ⟨[.wait f.due, .wake g, .claim g, .takeHandle g] ++
      ([.finish k (.ok ()), .unlock k] ++ [.acquire g]), ?_⟩
    rw [run_append, run_append]
    exact started_of_acquire (hother g _ hwaits rfl) rfl hfree

end

theorem schedule_of_ok {q : Queue} {task : Task} (h : (q.schedule task).2 = .ok ()) :
    task.key ∈ q.handlers ∧ (q.schedule task).1 = q.arm task task.delayMillis 1 none := by
  unfold schedule at h ⊢
  split at h
  · cases h
  · next hc =>
    split at h
    · cases h
    · next hk => exact ⟨not_not.mp hk, by rw [if_neg hc, if_neg hk]⟩

/-- The firing of a task that is scheduled: it may start its handler, with this task and once the
delay is over, and none that was there before and has not claimed its timer may. -/
theorem schedule_supersedes {q : Queue} (hs : q.Sound) (hr : q.Regular) {task : Task}
    (h : (q.schedule task).2 = .ok ()) :
    (∃ later, ((q.schedule task).1.run later).Started q.firings.length) ∧
    ∀ later,
      (((q.schedule task).1.run later).Started q.firings.length →
        q.now + task.delayMillis ≤ ((q.schedule task).1.run later).now ∧
        ∃ f, ((q.schedule task).1.run later).firing? q.firings.length = some f ∧ f.task = task) ∧
      ∀ g f, q.firing? g = some f → f.task.dedupId = task.dedupId → ¬ q.Claimed g →
        ¬ ((q.schedule task).1.run later).Started g := by
  obtain ⟨hk, harm⟩ := schedule_of_ok h
  have hs' : (q.schedule task).1.Sound := hs.step (.schedule task)
  have hr' : (q.schedule task).1.Regular := hr.step (.schedule task)
  have hnew : (q.schedule task).1.firing? q.firings.length =
      some (q.armed task task.delayMillis 1 none) := by
    rw [harm, firing?_arm, if_pos rfl]
  have hpending : Table.get? (q.schedule task).1.timers task.dedupId = some q.firings.length := by
    rw [harm, get?_timers_arm, if_pos rfl]
  have hkeys : task.key ∈ (q.schedule task).1.handlers := by rwa [harm, handlers_arm]
  refine ⟨may_start hs' hnew rfl hpending hkeys, fun later => ⟨fun hstarted => ?_, ?_⟩⟩
  · obtain ⟨f, hf, hp⟩ := hstarted
    obtain ⟨p, hrun⟩ := firing?_run hnew later
    obtain rfl := Option.some.inj (hrun.symm.trans hf)
    refine ⟨?_, _, hf, rfl⟩
    have hdue := (hr'.run later).due hf (Phase.hasWoken_of_hasClaimed
      (Phase.hasClaimed_of_hasStarted hp))
    simpa [armed, now_displace] using hdue
  · intro g f hf hid hn hstarted
    obtain ⟨p, hp, -⟩ := (changes_step q (.schedule task)).follows hf
    have hn' : ¬ (q.schedule task).1.Claimed g := fun hc =>
      (claimed_step (e := .schedule task) hc).elim hn fun hcl => by
        obtain ⟨heq, -⟩ := claimed?_eq_some.mp hcl
        cases heq
    exact not_claimed_of_later hr' hnew hp hid (firing?_lt hf) hn' later hstarted.claimed

/-- At any time, of the firings of a dedup id only the one that was armed last can have a pending
timer and can claim it, which takes it from the table; each timer is claimed once at most, and a
firing that has claimed its own is left alone. A task that is scheduled takes the place of those
whose timers have not been claimed: its firing may still start its handler, once its delay is over,
and none of theirs ever does. After a shutdown nothing is pending, every task is refused, and only
those start their handlers that had claimed their timers before. -/
theorem timer_claimed_by_latest (policy : RetryPolicy) (handlers : List String)
    (es : List Event) :
    let q := (fresh policy handlers).run es
    let claims := (fresh policy handlers).claims es
    (q.timers.map (·.1)).Nodup ∧
    (∀ id g, Table.get? q.timers id = some g → g ∉ claims ∧ q.IsLatest id g ∧
      ∃ f, q.firing? g = some f ∧ f.task.dedupId = id) ∧
    claims.Nodup ∧
    (∀ e g f, q.claimed? e = some g → q.firing? g = some f → q.IsLatest f.task.dedupId g ∧
      (q.step e).timers = Table.remove q.timers f.task.dedupId) ∧
    (∀ g, q.Started g → g ∈ claims) ∧
    (∀ e g f, g ∈ claims → q.firing? g = some f → e.firing? ≠ some g →
      (q.step e).firing? g = some f) ∧
    (∀ task, (q.schedule task).2 = .ok () →
      (∃ later, ((q.schedule task).1.run later).Started q.firings.length) ∧
      ∀ later,
        (((q.schedule task).1.run later).Started q.firings.length →
          q.now + task.delayMillis ≤ ((q.schedule task).1.run later).now ∧
          ∃ f, ((q.schedule task).1.run later).firing? q.firings.length = some f ∧
            f.task = task) ∧
        ∀ g f, q.firing? g = some f → f.task.dedupId = task.dedupId → g ∉ claims →
          ¬ ((q.schedule task).1.run later).Started g) ∧
    ∀ later, (q.shutdown.run later).timers = [] ∧
      (∀ task, (q.shutdown.run later).schedule task =
        (q.shutdown.run later, .error .shutdown)) ∧
      ∀ g, (q.shutdown.run later).Started g → g ∈ claims := by
  intro q claims
  have hs : q.Sound := Sound.run (sound_of_no_firings rfl rfl) es
  have hr : q.Regular := (regular_fresh policy handlers).run es
  have hclaims : ∀ g, q.Claimed g ↔ g ∈ claims := fun g => by
    refine claimed_run_iff.trans (or_iff_right ?_)
    rintro ⟨f, hf, -⟩
    simp [firing?, fresh] at hf
  refine ⟨hr.keys, fun id g ht => ?_, nodup_claims _ es, fun e g f hc hf => ?_,
    fun g hstarted => (hclaims g).mp hstarted.claimed, fun e g f hg hf he => ?_,
    fun task hok => ?_, fun later => ?_⟩
  · obtain ⟨f, hf, hid, hu⟩ := hs.pending ht
    refine ⟨fun hg => ?_, hr.latest ht, f, hf, hid⟩
    obtain ⟨f', hf', hp⟩ := (hclaims g).mpr hg
    obtain rfl := Option.some.inj (hf.symm.trans hf')
    rw [Phase.not_hasClaimed_of_isUnclaimed hu] at hp
    cases hp
  · obtain ⟨-, f', hf', -, hmine⟩ := claimed?_eq_some.mp hc
    obtain rfl := Option.some.inj (hf.symm.trans hf')
    exact ⟨hr.latest hmine, (step_of_claimed hc hf).1⟩
  · obtain ⟨f', hf', hp⟩ := (hclaims g).mpr hg
    obtain rfl := Option.some.inj (hf.symm.trans hf')
    exact firing?_step_of_claimed hf hp he
  · obtain ⟨hstarts, hlater⟩ := schedule_supersedes hs hr hok
    refine ⟨hstarts, fun later => ⟨(hlater later).1, fun g f hf hid hg => ?_⟩⟩
    exact (hlater later).2 g f hf hid fun hc => hg ((hclaims g).mp hc)
  · obtain ⟨hclosed, htimers, hnone⟩ := run_of_closed (q := q.shutdown) rfl rfl later
    refine ⟨htimers, fun task => by rw [schedule, if_pos hclosed], fun g hstarted => ?_⟩
    have hc := claimed_run_iff.mp hstarted.claimed
    rw [hnone] at hc
    exact (hclaims g).mp (claimed_of_shutdown (hc.resolve_right (by simp)))

/-- A task is scheduled, and a while later another one of the same id. -/
def rescheduled : Queue :=
  (fresh .none ["k"]).run
    [.schedule ⟨"k", .string "first", 100, "id"⟩, .wait 60, .wake 0, .claim 0]

theorem rescheduled_claimed_by_latest :
    Table.get? rescheduled.timers "id" = some 0 ∧
      ∀ later,
        let q := (rescheduled.schedule ⟨"k", .string "second", 100, "id"⟩).1.run later
        ¬ q.Started 0 ∧ (q.Started 1 → 160 ≤ q.now) := by
  have h := timer_claimed_by_latest .none ["k"]
    [.schedule ⟨"k", .string "first", 100, "id"⟩, .wait 60, .wake 0, .claim 0]
  obtain ⟨-, -, -, -, -, -, hsched, -⟩ := h
  obtain ⟨-, hlater⟩ := hsched ⟨"k", .string "second", 100, "id"⟩ (by decide +kernel)
  refine ⟨by decide +kernel, fun later => ⟨?_, fun hstarted => ?_⟩⟩
  · exact (hlater later).2 0 _ rfl rfl (by decide +kernel)
  · exact ((hlater later).1 hstarted).1

end Queue
end ChatRelay.Timer
