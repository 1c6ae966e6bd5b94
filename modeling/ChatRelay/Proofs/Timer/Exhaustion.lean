import ChatRelay.Proofs.Timer.Retries

/-!
# Chains come to rest

A chain that is left alone is never stuck: as long as it has not come to rest, its last firing has a
step to make, if need be after some time has gone by or after the holder of its lock has let go. If
all its runs fail in a way that may be tried again, it comes to rest when the attempts are used up.
Together with what a run hands on, this is the account of retries: which attempts there are, what
they are given, and what ends them.
-/

namespace ChatRelay.Timer

/-- How many steps a firing has before it at most. -/
def Phase.remaining : Phase → Nat
  | .sleeping => 9
  | .awake => 8
  | .claimed => 7
  | .waiting _ => 6
  | .running _ => 5
  | .ended _ _ => 4
  | .unlocked _ _ => 3
  | .tidied _ _ => 2
  | .settling _ => 1
  | .over _ => 0

namespace Queue

variable {q : Queue} {e : Event} {c g : Nat} {f : Firing} {task : Task} {before : List Nat}

/-- Events that neither schedule a task nor shut the queue down, and settle no firing of another
chain. -/
def Event.LeavesAlone (q : Queue) (c : Nat) : Event → Prop
  | .schedule _ | .shutdown => False
  | .settle k _ => k ∈ q.chain c
  | _ => True

def Event.SettlesNone : Event → Prop
  | .settle _ _ => False
  | _ => True

/-- A handler of the chain reports nothing but an error that may heal. -/
def Event.FailsIn (q : Queue) (c : Nat) : Event → Prop
  | .finish k o => k ∈ q.chain c → ∃ cause, o = .error cause ∧ cause.isRetryable
  | _ => True

theorem Undisturbed.step (h : q.Undisturbed c) (hl : q.Linked c task)
    (he : e.LeavesAlone q c) : (q.step e).Undisturbed c := by
  have hch := changes_step q e
  constructor
  · generalize q.step e = q' at hch
    cases hch with
    | armed task hopen hk => exact he.elim
    | retried jitter hf hp hw hn =>
      rw [closed_arm, closed_setPhase]
      exact h.isOpen
    | shutdown => exact he.elim
    | _ => exact h.isOpen
  · intro g f f₀ hf₀ hf hle hid
    obtain ⟨f₁, hf₁, -⟩ := hl.first
    obtain ⟨p, hp, -⟩ := hch.follows hf₁
    obtain rfl := Option.some.inj (hp.symm.trans hf₀)
    rcases hch.comes_from hf with hnew | ⟨f', p', hold, rfl, -⟩
    · obtain ⟨-, ⟨rfl, -⟩ | ⟨k, fk, jitter, rfl, hk, horigin, -⟩⟩ := hch.new_firing hnew hf
      · exact he.elim
      · obtain ⟨fk', hk', ho⟩ := mem_chain.mp he
        obtain rfl := Option.some.inj (hk.symm.trans hk')
        exact horigin.symm.trans ho
    · exact h.alone (f := f') hf₁ hold hle hid

theorem FailsOnly.step (h : q.FailsOnly c) (he : e.FailsIn q c) : (q.step e).FailsOnly c := by
  intro g f outcome hf ho hout
  have hch := changes_step q e
  rcases hch.comes_from hf with hnew | ⟨f₀, p, hold, rfl, rfl | hl⟩
  · rw [(hch.arises hnew hf).sleeping] at hout
    cases hout
  · exact h g f₀ outcome hold ho hout
  · rcases hl.outcome?_from hout with hout | rfl
    · exact h g f₀ outcome hold ho hout
    · exact he (mem_chain.mpr ⟨f₀, hold, ho⟩)

theorem policy_run (q : Queue) (es : List Event) : (q.run es).policy = q.policy := by
  induction es generalizing q with
  | nil => rfl
  | cons e es ih => exact (ih _).trans (changes_step q e).frame.1

theorem Linked.chain_step (h : q.Linked c task) (he : e.SettlesNone) :
    (q.step e).chain c = q.chain c := by
  obtain ⟨f, hf, -⟩ := h.first
  refine ((changes_step q e).chain (firing?_lt hf)).resolve_right ?_
  rintro ⟨k, -, -, jitter, rfl, -⟩
  exact he

/-- A chain that is left alone and has failed so far. -/
structure Failing (q : Queue) (c : Nat) (task : Task) : Prop where
  proper : q.Proper
  undisturbed : q.Undisturbed c
  fails : q.FailsOnly c
  linked : q.Linked c task

namespace Failing

theorem step (h : q.Failing c task) (he : e.LeavesAlone q c) (ho : e.FailsIn q c) :
    (q.step e).Failing c task where
  proper := h.proper.step e
  undisturbed := h.undisturbed.step h.linked he
  fails := h.fails.step ho
  linked := h.linked.step e

/-- After some events a firing of the chain is nearer to its end, and the chain is as it was. -/
def Nears (q : Queue) (c : Nat) (task : Task) (g : Nat) (f : Firing) : Prop :=
  ∃ es p, (q.run es).Failing c task ∧ (q.run es).chain c = q.chain c ∧
    (q.run es).firing? g = some { f with phase := p } ∧ p.remaining < f.phase.remaining

theorem nears (h : q.Failing c task) {p : Phase} (he : e.LeavesAlone q c) (hs : e.SettlesNone)
    (ho : e.FailsIn q c) (hp : (q.step e).firing? g = some { f with phase := p })
    (hlt : p.remaining < f.phase.remaining) : Nears q c task g f :=
  ⟨[e], p, h.step he ho, h.linked.chain_step hs, hp, hlt⟩

theorem Nears.of_run (es : List Event) (hn : Nears (q.run es) c task g f)
    (hchain : (q.run es).chain c = q.chain c) : Nears q c task g f := by
  obtain ⟨es', p, hfail, hchain', hmoved⟩ := hn
  rw [← run_append] at hfail hchain' hmoved
  exact ⟨es ++ es', p, hfail, hchain'.trans hchain, hmoved⟩

/-- None but the last firing can have a lock, so that the holder of its lock is a stranger and may
let go. -/
theorem let_go (h : q.Failing c task) (hlast : q.chain c = before ++ [g])
    (hf : q.firing? g = some f) {lock : Nat} (hp : f.phase = .waiting lock)
    (hl : q.isLocked lock) :
    ∃ es, (q.run es).Failing c task ∧ (q.run es).chain c = q.chain c ∧
      (q.run es).firing? g = some f ∧ (q.run es).isLocked lock = false := by
  obtain ⟨k, hfree, hother⟩ := Queue.let_go h.proper.sound hl
  have hl₁ := h.linked.step (.finish k (.ok ()))
  have hchain : (q.run [.finish k (.ok ()), .unlock k]).chain c = q.chain c :=
    (hl₁.chain_step (e := .unlock k) trivial).trans
      (h.linked.chain_step (e := .finish k (.ok ())) trivial)
  refine ⟨[.finish k (.ok ()), .unlock k],
    ⟨proper_run h.proper _, ?_, ?_, hl₁.step (.unlock k)⟩, hchain,
    hother g f hf (by rw [hp]; rfl), hfree⟩
  · have h₁ : (q.step (.finish k (.ok ()))).Undisturbed c := h.undisturbed.step h.linked trivial
    have h₂ : ((q.step (.finish k (.ok ()))).step (.unlock k)).Undisturbed c := h₁.step hl₁ trivial
    exact h₂
  · intro g' f' outcome hf' ho hout
    obtain ⟨f₀, hf₀, ho₀⟩ := mem_chain.mp (hchain ▸ mem_chain.mpr ⟨f', hf', ho⟩)
    have hnone : f₀.phase.lock? = none := by
      rcases h.linked.last_or_over hlast hf₀ ho₀ with rfl | ⟨ending, hover⟩
      · obtain rfl := Option.some.inj (hf₀.symm.trans hf)
        rw [hp]
        rfl
      · rw [hover]
        rfl
    obtain rfl := Option.some.inj ((hother g' f₀ hf₀ hnone).symm.trans hf')
    exact h.fails g' f₀ outcome hf₀ ho₀ hout

/-- The last firing has a step to make until it settles. -/
theorem advance (h : q.Failing c task) (hlast : q.chain c = before ++ [g])
    (hf : q.firing? g = some f) (hrem : 1 < f.phase.remaining) : Nears q c task g f := by
  have ho : f.origin = c := by
    obtain ⟨f', hf', ho⟩ := mem_chain.mp (by rw [hlast]; simp : g ∈ q.chain c)
    exact Option.some.inj (hf.symm.trans hf') ▸ ho
  have hnot := h.undisturbed.not_superseded h.proper hlast hf ho
  have hkey := h.proper.accounted.keys hf
  obtain ⟨p, hp⟩ : ∃ p, f.phase = p := ⟨_, rfl⟩
  cases p with
  | sleeping =>
    have hwaited : (q.wait f.due).firing? g = some f := hf
    have hdue : f.due ≤ (q.wait f.due).now := Nat.le_add_left ..
    have hwait : (q.step (.wait f.due)).Failing c task := h.step trivial trivial
    refine Nears.of_run [.wait f.due] ?_
      (h.linked.chain_step (e := .wait f.due) trivial)
    refine hwait.nears (e := .wake g) (p := .awake) trivial trivial trivial ?_
      (by simp [hp, Phase.remaining])
    simp only [Queue.step, wake, hwaited, hp, hdue, and_self, if_true,
      firing?_setPhase_self hwaited]
  | awake =>
    have hmine := (h.proper.accounted.unclaimed g f hf (by rw [hp]; rfl)).resolve_right hnot
    refine h.nears (e := .claim g) (p := .claimed) trivial trivial trivial ?_
      (by simp [hp, Phase.remaining])
    simp only [Queue.step, claim, hf, hp, hmine, ne_eq, not_true_eq_false, if_false, hkey, if_true]
    exact firing?_setPhase_self hf _
  | claimed =>
    have hwaits : ∃ lock, (q.step (.takeHandle g)).firing? g =
        some { f with phase := .waiting lock } := by
      simp only [Queue.step, takeHandle, hf, hp, ne_eq, not_true_eq_false, if_false]
      split
      · exact ⟨_, firing?_setPhase_self hf _⟩
      · exact ⟨_, firing?_setPhase_self hf _⟩
    obtain ⟨lock, hwaits⟩ := hwaits
    exact h.nears (e := .takeHandle g) trivial trivial trivial hwaits
      (by simp [hp, Phase.remaining])
  | waiting lock =>
    have hacquire : ∀ {q : Queue}, q.Failing c task → q.firing? g = some f →
        q.isLocked lock = false → Nears q c task g f := by
      intro q h hf hfree
      refine h.nears (e := .acquire g) (p := .running lock) trivial trivial trivial ?_
        (by simp [hp, Phase.remaining])
      simp only [Queue.step, acquire, phase?, hf, hp, Option.map_some, hfree]
      exact firing?_setPhase_self hf _
    cases hl : q.isLocked lock with
    | false => exact hacquire h hf hl
    | true =>
      obtain ⟨es, hfail, hchain, hf', hfree⟩ := h.let_go hlast hf hp hl
      exact (hacquire hfail hf' hfree).of_run es hchain
  | running lock =>
    let outcome : Except RelayError Unit := .error (.store (.unavailable ""))
    refine h.nears (e := .finish g outcome) (p := .ended lock outcome) trivial trivial ?_ ?_
      (by simp [hp, Phase.remaining])
    · exact fun _ => ⟨_, rfl, rfl⟩
    · simp only [Queue.step, finish, phase?, hf, hp, Option.map_some]
      exact firing?_setPhase_self hf _
  | ended lock o =>
    refine h.nears (e := .unlock g) (p := .unlocked lock o) trivial trivial trivial ?_
      (by simp [hp, Phase.remaining])
    simp only [Queue.step, unlock, phase?, hf, hp, Option.map_some]
    exact firing?_setPhase_self hf _
  | unlocked lock o =>
    refine h.nears (e := .tidy g) (p := .tidied lock o) trivial trivial trivial ?_
      (by simp [hp, Phase.remaining])
    simp only [Queue.step, tidy, hf, hp]
    split
    · exact firing?_setPhase_self hf _
    · exact firing?_setPhase_self hf _
  | tidied lock o =>
    refine h.nears (e := .dropHandle g) (p := .settling o) trivial trivial trivial ?_
      (by simp [hp, Phase.remaining])
    simp only [Queue.step, dropHandle, phase?, hf, hp, Option.map_some]
    exact firing?_setPhase_self hf _
  | settling o => simp [hp, Phase.remaining] at hrem
  | «over» ending => simp [hp, Phase.remaining] at hrem

theorem eq_settling_of_remaining {p : Phase} (h : p.remaining ≤ 1) :
    (∃ outcome, p = .settling outcome) ∨ ∃ ending, p = .over ending := by
  cases p with
  | settling outcome => exact .inl ⟨outcome, rfl⟩
  | «over» ending => exact .inr ⟨ending, rfl⟩
  | _ => simp [Phase.remaining] at h

/-- So it comes to settle, unless it is over. -/
theorem comes_to_settle (h : q.Failing c task) (hlast : q.chain c = before ++ [g])
    (hf : q.firing? g = some f) :
    ∃ es p, (q.run es).Failing c task ∧ (q.run es).chain c = q.chain c ∧
      (q.run es).firing? g = some { f with phase := p } ∧ p.remaining ≤ 1 := by
  induction hn : f.phase.remaining using Nat.strong_induction_on generalizing q f with
  | _ n ih =>
    by_cases hrem : n ≤ 1
    · exact ⟨[], f.phase, h, rfl, hf, hn ▸ hrem⟩
    · obtain ⟨es, p, hfail, hchain, hmoved, hlt⟩ := h.advance hlast hf (by omega)
      obtain ⟨es', p', hfail', hchain', hmoved', hle⟩ :=
        ih p.remaining (hn ▸ hlt) hfail (hchain.trans hlast) hmoved rfl
      rw [← run_append] at hfail' hchain' hmoved'
      exact ⟨es ++ es', p', hfail', hchain'.trans hchain, hmoved', hle⟩

theorem atRest_of_last_over (h : q.Failing c task) (hlast : q.chain c = before ++ [g])
    {ending : Ending} (hf : q.firing? g = some f) (hp : f.phase = .over ending) : q.AtRest c := by
  intro g' f' hf' ho
  rcases h.linked.last_or_over hlast hf' ho with rfl | hover
  · obtain rfl := Option.some.inj (hf'.symm.trans hf)
    exact ⟨ending, hp⟩
  · exact hover

/-- A chain that is left alone may go on failing until it comes to rest. -/
theorem comes_to_rest (h : q.Failing c task) (hpos : 1 ≤ q.policy.maxAttempts) :
    ∃ es, (q.run es).Failing c task ∧ (q.run es).AtRest c := by
  induction hn : q.policy.maxAttempts - (q.chain c).length using Nat.strong_induction_on
    generalizing q with
  | _ n ih =>
    obtain ⟨before, g, hlast⟩ := h.linked.exists_last
    have hg : g ∈ q.chain c := by simp [hlast]
    obtain ⟨f, hf, ho⟩ := mem_chain.mp hg
    obtain ⟨es, p, hfail, hchain, hmoved, hle⟩ := h.comes_to_settle hlast hf
    rcases eq_settling_of_remaining hle with ⟨outcome, rfl⟩ | ⟨ending, rfl⟩
    · have hmem : g ∈ (q.run es).chain c := hchain.symm ▸ hg
      have hsettled : ((q.run es).step (.settle g 1)).Failing c task := hfail.step hmem trivial
      by_cases hretry : Retries (q.run es) g { f with phase := .settling outcome } outcome
      · -- a retry makes the chain longer, and the policy leaves fewer of them
        have hmore : ((q.run es).step (.settle g 1)).chain c =
            (q.run es).chain c ++ [(q.run es).firings.length] := ho ▸ hretry.chain_settle 1
        have hpolicy : ((q.run es).step (.settle g 1)).policy = q.policy :=
          (changes_step _ _).frame.1.trans (policy_run q es)
        have hmax := hsettled.linked.length_le (hpolicy ▸ hpos)
        rw [hmore, hchain, List.length_append, List.length_singleton, hpolicy] at hmax
        obtain ⟨es', hfail', hrest⟩ := ih _ (by
          rw [hmore, hchain, List.length_append, List.length_singleton, hpolicy]
          omega) hsettled (hpolicy ▸ hpos) rfl
        rw [← run_cons, ← run_append] at hfail' hrest
        exact ⟨_, hfail', hrest⟩
      · refine ⟨es ++ [.settle g 1], ?_⟩
        have hover := settle_of_not_retries hmoved rfl hretry 1
        have hend : ((q.run es).step (.settle g 1)).chain c = before ++ [g] := by
          change ((q.run es).settle g 1).chain c = _
          rw [hover, chain_setPhase, hchain, hlast]
        rw [run_append]
        exact ⟨hsettled,
          hsettled.atRest_of_last_over hend (hover ▸ firing?_setPhase_self hmoved _) rfl⟩
    · exact ⟨es, hfail, hfail.atRest_of_last_over (hchain.trans hlast) hmoved rfl⟩

end Failing

/-! ## Chains of retries -/

/-- Whatever has happened to a queue, each firing goes back to a schedule of its task, and those of
one schedule make a chain in which each is retried by the next. The runs of a chain are given the
payload of the schedule and the attempts one, two and so on, up to the limit of the policy at most.
A run that settles is followed by a retry exactly if it failed with an error that may heal, was not
the last attempt, the queue is open and no timer of its id is pending; in no other way does a chain
grow. A schedule that finds a timer pending ends the chain of that timer and opens its own with the
first attempt. A chain that is left alone and keeps failing can always come to rest, and has then as
many runs as the policy allows, of which just the last is told that it is the last. No attempt needs
more than a word. -/
theorem retries_as_chains (policy : RetryPolicy) (handlers : List String)
    (hpos : 1 ≤ policy.maxAttempts) (hword : policy.maxAttempts < Numeral.values32)
    (es : List Event) :
    let q := (fresh policy handlers).run es
    (∀ g f, q.firing? g = some f → g ∈ q.chain f.origin ∧
      (q.chain f.origin).IsChain q.RetriedBy ∧
      ∃ f₀, q.firing? f.origin = some f₀ ∧ f₀.origin = f.origin ∧ f₀.task = f.task) ∧
    (∀ c f, q.firing? c = some f → f.origin = c →
      (q.runs c).length ≤ policy.maxAttempts ∧
      (q.runs c).map q.given? = (List.range' 1 (q.runs c).length).map fun i =>
        some (f.task.payload, ⟨f.task.dedupId, i, policy.maxAttempts⟩)) ∧
    (∀ g f outcome jitter, q.firing? g = some f → f.phase = .settling outcome →
      let q' := q.step (.settle g jitter)
      let retry := q.firings.length
      (Retries q g f outcome →
        q'.chain f.origin = q.chain f.origin ++ [retry] ∧
        Table.get? q'.timers f.task.dedupId = some retry ∧
        q'.given? retry =
          some (f.task.payload, ⟨f.task.dedupId, f.attempt + 1, policy.maxAttempts⟩)) ∧
      (¬ Retries q g f outcome →
        q'.chain f.origin = q.chain f.origin ∧ q'.timers = q.timers ∧
        q'.phase? g = some (.over (.ran outcome none)))) ∧
    (∀ c e, c < q.firings.length → (q.step e).chain c ≠ q.chain c →
      ∃ g f outcome jitter, e = .settle g jitter ∧ f.origin = c ∧ Retries q g f outcome) ∧
    (∀ task g f, (q.schedule task).2 = .ok () → Table.get? q.timers task.dedupId = some g →
      q.firing? g = some f →
      let q' := (q.schedule task).1
      let new := q.firings.length
      Table.get? q'.timers task.dedupId = some new ∧ q'.chain new = [new] ∧
      q'.given? new = some (task.payload, ⟨task.dedupId, 1, policy.maxAttempts⟩) ∧
      ∀ later, (q'.run later).chain f.origin = q.chain f.origin ∧
        (q'.run later).runs f.origin = q.runs f.origin) ∧
    (∀ c f, q.firing? c = some f → f.origin = c → q.Undisturbed c → q.FailsOnly c →
      (q.AtRest c → (q.runs c).length = policy.maxAttempts ∧
        (q.runs c).map (fun g => (q.given? g).map (·.2.isFinal)) =
          List.replicate (policy.maxAttempts - 1) (some false) ++ [some true]) ∧
      ∃ later, (q.run later).Undisturbed c ∧ (q.run later).FailsOnly c ∧
        (q.run later).AtRest c) ∧
    ∀ g f, q.firing? g = some f → f.attempt < Numeral.values32 ∧
      ∀ outcome, Retries q g f outcome → f.attempt + 1 < Numeral.values32 := by
  intro q
  have hq : q.Proper := proper_run (proper_fresh policy handlers) es
  have hpolicy : q.policy = policy := policy_run (fresh policy handlers) es
  have hmax : 1 ≤ q.policy.maxAttempts := hpolicy.symm ▸ hpos
  refine ⟨fun g f hf => ?_, fun c f hf ho => ?_, fun g f outcome jitter hf hp => ?_,
    fun c e hc hgrows => ?_, fun task g f hok ht hf => ?_, fun c f hf ho hu hfails => ?_,
    fun g f hf => ?_⟩
  · have hl := hq.linked g f hf
    obtain ⟨f₀, hf₀, -, htask⟩ := hl.first
    obtain ⟨rest, hchain, hlinks⟩ := hl.links
    obtain ⟨f₁, hf₁, ho⟩ := mem_chain.mp (by rw [hchain]; simp : f.origin ∈ q.chain f.origin)
    obtain rfl := Option.some.inj (hf₀.symm.trans hf₁)
    exact ⟨mem_chain.mpr ⟨f, hf, rfl⟩, hchain ▸ hlinks, f₀, hf₀, ho, htask⟩
  · have hl := ho ▸ hq.linked c f hf
    have hgiven := hl.given_runs
    rw [hpolicy] at hgiven
    exact ⟨hpolicy ▸ hl.length_runs_le hmax, hgiven⟩
  · constructor
    · intro hr
      obtain ⟨due, hnew⟩ := hr.firing?_retry jitter
      refine ⟨hr.chain_settle jitter, ?_, ?_⟩
      · change Table.get? (q.settle g jitter).timers _ = _
        rw [hr.settle, get?_timers_arm, if_pos rfl, length_setPhase]
      · have hframe : (q.settle g jitter).policy = policy :=
          (changes_step q (.settle g jitter)).frame.1.trans hpolicy
        change (q.settle g jitter).given? q.firings.length = _
        simp only [given?, hnew, Option.map_some, attempt, hframe]
    · intro hr
      have hover := settle_of_not_retries hf hp hr jitter
      simp only [step, hover, chain_setPhase, timers_setPhase, phase?, firing?_setPhase_self hf,
        Option.map_some, and_self]
  · rcases (changes_step q e).chain hc with hsame | ⟨g, f, outcome, jitter, he, ho, hr, -⟩
    · exact absurd hsame hgrows
    · exact ⟨g, f, outcome, jitter, he, ho, hr⟩
  · have hnone : q.firing? q.firings.length = none := List.getElem?_eq_none (Nat.le_refl _)
    obtain ⟨-, harm⟩ := schedule_of_ok hok
    refine ⟨?_, ?_, ?_, chain_of_schedule hq.sound hq.regular hok ht hf (hq.linked g f hf)⟩
    · rw [harm, get?_timers_arm, if_pos rfl]
    · rw [harm, chain_arm, Option.getD_none, if_pos rfl, chain_eq_nil hnone hq.linked]
      rfl
    · rw [harm, given?, firing?_arm, if_pos rfl]
      simp [attempt, armed, hpolicy]
  · have hl : q.Linked c f.task := ho ▸ hq.linked c f hf
    constructor
    · intro hrest
      have hruns := hu.runs_of_atRest hq hfails hrest hl hmax
      rwa [hpolicy] at hruns
    · obtain ⟨later, hfail, hrest⟩ := Failing.comes_to_rest ⟨hq, hu, hfails, hl⟩ hmax
      exact ⟨later, hfail.undisturbed, hfail.fails, hrest⟩
  · have hle := (hq.linked g f hf).attempt_le hmax (mem_chain.mpr ⟨f, hf, rfl⟩) hf
    rw [hpolicy] at hle
    refine ⟨by omega, fun outcome hr => ?_⟩
    have hearly := isFinal_eq_false.mp hr.early
    rw [hpolicy] at hearly
    omega

/-- A task fails, is tried again at once, and fails for the last time. -/
def failingTwice : List Event :=
  let fails (g : Nat) : List Event :=
    [.wake g, .claim g, .takeHandle g, .acquire g, .finish g (.error (.store (.query "locked"))),
      .unlock g, .tidy g, .dropHandle g, .settle g 1]
  .schedule ⟨"k", .string "batch", 0, "id"⟩ :: (fails 0 ++ fails 1)

theorem failingTwice_exhausts :
    let q := (fresh ⟨2, 0, 0⟩ ["k"]).run failingTwice
    (q.runs 0).map q.given? =
      [some (.string "batch", ⟨"id", 1, 2⟩), some (.string "batch", ⟨"id", 2, 2⟩)] ∧
    (q.runs 0).map (fun g => (q.given? g).map (·.2.isFinal)) = [some false, some true] := by
  intro q
  have hfirings : ∀ f ∈ q.firings, f.origin = 0 ∧ f.task = ⟨"k", .string "batch", 0, "id"⟩ ∧
      ∃ retry, f.phase = .over (.ran (.error (.store (.query "locked"))) retry) := by
    have hq : q.firings = [
        ⟨⟨"k", .string "batch", 0, "id"⟩, 1, 0, 0,
          .over (.ran (.error (.store (.query "locked"))) (some 1))⟩,
        ⟨⟨"k", .string "batch", 0, "id"⟩, 2, 0, 0,
          .over (.ran (.error (.store (.query "locked"))) none)⟩] := by decide +kernel
    simp [hq]
  obtain ⟨-, hgiven, -, -, -, hleft, -⟩ :=
    retries_as_chains ⟨2, 0, 0⟩ ["k"] (by decide) (by decide) failingTwice
  obtain ⟨f, hf⟩ : ∃ f, q.firing? 0 = some f := Option.isSome_iff_exists.mp (by decide +kernel)
  obtain ⟨ho, htask, -⟩ := hfirings f (List.mem_of_getElem? hf)
  obtain ⟨hrest, -⟩ := hleft 0 f hf ho
    { isOpen := by decide +kernel
      alone := fun _ hf _ _ => (hfirings _ (List.mem_of_getElem? hf)).1 }
    fun g f outcome hf _ hout => by
      obtain ⟨-, -, retry, hp⟩ := hfirings f (List.mem_of_getElem? hf)
      rw [hp] at hout
      obtain rfl := Option.some.inj hout
      exact ⟨_, rfl, rfl⟩
  obtain ⟨hlength, hflags⟩ := hrest fun g f hf _ =>
    let ⟨_, _, _, hp⟩ := hfirings f (List.mem_of_getElem? hf)
    ⟨_, hp⟩
  refine ⟨?_, hflags⟩
  obtain ⟨-, hgiven⟩ := hgiven 0 f hf ho
  rw [hlength, htask] at hgiven
  exact hgiven

end Queue
end ChatRelay.Timer
