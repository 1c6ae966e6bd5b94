import ChatRelay.Proofs.Timer.Claiming
import Mathlib.Data.List.Chain

/-!
# Chains of retries

The firings that go back to one schedule make a chain. Each of them but the last has run, has failed
with an error that may heal, and was tried again by the one behind it: with the same task, and as
the attempt after its own. A chain grows only when its last firing settles, so that the attempts are
counted from one without a gap, up to the limit of the policy.
-/

namespace ChatRelay.Timer.Queue

def origin? (q : Queue) (g : Nat) : Option Nat := (q.firing? g).map (·.origin)

/-- The firings that go back to the schedule of generation `c`, in the order in which they were
armed. -/
def chain (q : Queue) (c : Nat) : List Nat :=
  (List.range q.firings.length).filter fun g => q.origin? g = some c

/-- Those of them whose handlers have started. -/
def runs (q : Queue) (c : Nat) : List Nat :=
  (q.chain c).filter fun g => (q.phase? g).any Phase.hasStarted

/-- What the handler of a firing is given: the payload of its task, and which attempt it is. -/
def given? (q : Queue) (g : Nat) : Option (Json × Attempt) :=
  (q.firing? g).map fun f => (f.task.payload, q.attempt f)

section
variable {q q' : Queue} {e : Event} {c g : Nat} {f : Firing}

theorem mem_chain : g ∈ q.chain c ↔ ∃ f, q.firing? g = some f ∧ f.origin = c := by
  simp only [chain, List.mem_filter, List.mem_range, origin?, decide_eq_true_eq,
    Option.map_eq_some_iff]
  exact ⟨fun h => h.2, fun ⟨f, hf, ho⟩ => ⟨firing?_lt hf, f, hf, ho⟩⟩

theorem chain_congr (hl : q'.firings.length = q.firings.length)
    (ho : ∀ g, q'.origin? g = q.origin? g) (c : Nat) : q'.chain c = q.chain c := by
  simp only [chain, hl, ho]

@[simp] theorem callOff_origin (f : Firing) : (callOff f).origin = f.origin := by
  unfold callOff
  split <;> rfl

@[simp] theorem origin?_setPhase (q : Queue) (g : Nat) (p : Phase) (k : Nat) :
    (q.setPhase g p).origin? k = q.origin? k := by
  rw [origin?, firing?_setPhase, origin?]
  split
  · cases q.firing? k <;> rfl
  · rfl

@[simp] theorem chain_setPhase (q : Queue) (g : Nat) (p : Phase) (c : Nat) :
    (q.setPhase g p).chain c = q.chain c :=
  chain_congr (length_setPhase ..) (origin?_setPhase q g p) c

theorem origin?_displace (q : Queue) (id : String) (k : Nat) :
    (q.displace id).origin? k = q.origin? k := by
  rw [origin?, firing?_displace, origin?]
  split
  · cases q.firing? k <;> simp
  · rfl

theorem chain_arm (q : Queue) (task : Task) (delayMillis attempt : Nat) (origin : Option Nat)
    (c : Nat) :
    (q.arm task delayMillis attempt origin).chain c =
      q.chain c ++ if origin.getD q.firings.length = c then [q.firings.length] else [] := by
  have hnew : (q.arm task delayMillis attempt origin).origin? q.firings.length =
      some (origin.getD q.firings.length) := by
    rw [origin?, firing?_arm, if_pos rfl]
    rfl
  have hold : ∀ k ∈ List.range q.firings.length,
      (q.arm task delayMillis attempt origin).origin? k = q.origin? k := by
    intro k hk
    rw [← origin?_displace q task.dedupId k, origin?, firing?_arm,
      if_neg (Nat.ne_of_lt (List.mem_range.mp hk)), origin?]
  rw [chain, length_arm, List.range_succ, List.filter_append]
  congr 1
  · exact List.filter_congr fun k hk => by rw [hold k hk]
  · simp only [List.filter_cons, List.filter_nil, hnew, Option.some.injEq, decide_eq_true_eq]

/-! ## How a firing settles -/

/-- A run has failed and is tried again if it settles now. -/
structure Retries (q : Queue) (g : Nat) (f : Firing) (outcome : Except RelayError Unit) : Prop where
  settles : q.firing? g = some f ∧ f.phase = .settling outcome
  heals : ∃ cause, outcome = .error cause ∧ cause.isRetryable
  early : (q.attempt f).isFinal = false
  isOpen : q.closed = false
  free : q.isPending f.task.dedupId = false

theorem isFinal_attempt : (q.attempt f).isFinal = decide (q.policy.maxAttempts ≤ f.attempt) := rfl

theorem isFinal_eq_false : (q.attempt f).isFinal = false ↔ f.attempt < q.policy.maxAttempts := by
  rw [isFinal_attempt, decide_eq_false_iff_not, Nat.not_le]

theorem wantsRetry_iff (q : Queue) (f : Firing) (outcome : Except RelayError Unit) :
    q.wantsRetry f outcome ↔ (∃ cause, outcome = .error cause ∧ cause.isRetryable) ∧
      (q.attempt f).isFinal = false ∧ q.closed = false := by
  cases outcome with
  | ok => simp [wantsRetry]
  | error cause => simp [wantsRetry, and_assoc]

theorem Retries.settle {outcome : Except RelayError Unit} (h : Retries q g f outcome)
    (jitter : Rat) :
    q.settle g jitter = (q.setPhase g (.over (.ran outcome (some q.firings.length)))).arm f.task
      (q.retryMillis f.attempt jitter) (f.attempt + 1) (some f.origin) := by
  have hw := (wantsRetry_iff q f outcome).mpr ⟨h.heals, h.early, h.isOpen⟩
  simp only [Queue.settle, h.settles.1, h.settles.2, hw, h.free, Bool.not_false, Bool.and_self,
    if_true]

/-- The run that is tried again names its retry. -/
theorem Retries.firing?_settle {outcome : Except RelayError Unit} (h : Retries q g f outcome)
    (jitter : Rat) :
    (q.settle g jitter).firing? g =
      some { f with phase := .over (.ran outcome (some q.firings.length)) } := by
  have hself := firing?_setPhase_self h.settles.1 (.over (.ran outcome (some q.firings.length)))
  have hne : g ≠ q.firings.length := Nat.ne_of_lt (firing?_lt h.settles.1)
  rw [h.settle, firing?_arm, length_setPhase, if_neg hne, firing?_displace, hself]
  split <;> rfl

/-- Its retry is a firing of the same task, with the next attempt. -/
theorem Retries.firing?_retry {outcome : Except RelayError Unit} (h : Retries q g f outcome)
    (jitter : Rat) : ∃ due, (q.settle g jitter).firing? q.firings.length =
      some { task := f.task, attempt := f.attempt + 1, origin := f.origin, due } := by
  have hnew := firing?_arm (q.setPhase g (.over (.ran outcome (some q.firings.length)))) f.task
    (q.retryMillis f.attempt jitter) (f.attempt + 1) (some f.origin) q.firings.length
  rw [length_setPhase, if_pos rfl] at hnew
  exact ⟨_, h.settle jitter ▸ hnew⟩

theorem Retries.chain_settle {outcome : Except RelayError Unit} (h : Retries q g f outcome)
    (jitter : Rat) :
    (q.settle g jitter).chain f.origin = q.chain f.origin ++ [q.firings.length] := by
  rw [h.settle, chain_arm, chain_setPhase, Option.getD_some, if_pos rfl, length_setPhase]

theorem settle_of_not_retries {outcome : Except RelayError Unit} (hf : q.firing? g = some f)
    (hp : f.phase = .settling outcome) (h : ¬ Retries q g f outcome) (jitter : Rat) :
    q.settle g jitter = q.setPhase g (.over (.ran outcome none)) := by
  simp only [Queue.settle, hf, hp]
  refine if_neg fun hc => h ?_
  rw [Bool.and_eq_true, Bool.not_eq_true', wantsRetry_iff] at hc
  exact ⟨⟨hf, hp⟩, hc.1.1, hc.1.2.1, hc.1.2.2, hc.2⟩

/-- A chain that is there grows only when one of its firings is tried again. -/
theorem Changes.chain (h : Changes q e q') (hc : c < q.firings.length) :
    q'.chain c = q.chain c ∨ ∃ g f outcome jitter, e = .settle g jitter ∧ f.origin = c ∧
      Retries q g f outcome ∧ q'.chain c = q.chain c ++ [q.firings.length] := by
  cases h with
  | moved hf hl ht =>
    refine .inl ?_
    rw [chain_setPhase]
    rfl
  | armed task hopen hk =>
    refine .inl ?_
    rw [chain_arm, Option.getD_none, if_neg (Nat.ne_of_gt hc), List.append_nil]
  | @retried g f outcome jitter hf hp hw hn =>
    rw [wantsRetry_iff] at hw
    rw [chain_arm, chain_setPhase, Option.getD_some, length_setPhase]
    by_cases ho : f.origin = c
    · rw [if_pos ho]
      exact .inr ⟨g, f, outcome, jitter, rfl, ho, ⟨⟨hf, hp⟩, hw.1, hw.2.1, hw.2.2, hn⟩, rfl⟩
    · rw [if_neg ho, List.append_nil]
      exact .inl rfl
  | shutdown =>
    refine .inl (chain_congr (List.length_map ..) (fun k => ?_) c)
    change ((q.firings.map callOff)[k]?).map _ = (q.firings[k]?).map _
    rw [List.getElem?_map]
    cases q.firings[k]? <;> simp
  | _ => exact .inl rfl

end

/-! ## The links of a chain -/

/-- A run failed with an error that may heal, and another firing of its task is the next attempt. -/
def RetriedBy (q : Queue) (p g : Nat) : Prop :=
  ∃ fp f cause, q.firing? p = some fp ∧ q.firing? g = some f ∧
    fp.phase = .over (.ran (.error cause) (some g)) ∧ cause.isRetryable ∧
    fp.attempt < q.policy.maxAttempts ∧ f.attempt = fp.attempt + 1 ∧ f.task = fp.task

/-- A chain opens with the firing of a schedule, and each of its firings is retried by the next. -/
structure Linked (q : Queue) (c : Nat) (task : Task) : Prop where
  first : ∃ f, q.firing? c = some f ∧ f.attempt = 1 ∧ f.task = task
  links : ∃ rest, q.chain c = c :: rest ∧ (c :: rest).IsChain q.RetriedBy

section
variable {q q' : Queue} {e : Event} {c g : Nat} {f : Firing} {task : Task}

theorem Phase.Leads.not_over {g : Nat} {e : Event} {ending : Ending} {p : Phase} :
    ¬ Phase.Leads g e (.over ending) p := nofun

/-- A firing is new or was there before, as it is but for its phase. -/
theorem Changes.comes_from (h : Changes q e q') (hf : q'.firing? g = some f) :
    q.firing? g = none ∨ ∃ f₀ p, q.firing? g = some f₀ ∧ f = { f₀ with phase := p } ∧
      (p = f₀.phase ∨ f₀.phase.Leads g e p) := by
  cases hold : q.firing? g with
  | none => exact .inl rfl
  | some f₀ =>
    obtain ⟨p, hp, hl⟩ := h.follows hold
    exact .inr ⟨f₀, p, rfl, Option.some.inj (hf.symm.trans hp), hl⟩

theorem Changes.firing?_of_over (h : Changes q e q') (hf : q.firing? g = some f) {ending : Ending}
    (hp : f.phase = .over ending) : q'.firing? g = some f := by
  obtain ⟨p, hf', rfl | hl⟩ := h.follows hf
  · exact hf'
  · rw [hp] at hl
    exact absurd hl Phase.Leads.not_over

theorem RetriedBy.after (h : q.RetriedBy c g) (hc : Changes q e q') : q'.RetriedBy c g := by
  obtain ⟨fp, f, cause, hfp, hf, hp, hcause, hlt, hattempt, htask⟩ := h
  obtain ⟨p, hf', -⟩ := hc.follows hf
  have hfp' := hc.firing?_of_over hfp hp
  exact ⟨fp, _, cause, hfp', hf', hp, hcause, hc.frame.1 ▸ hlt, hattempt, htask⟩

theorem Linked.exists_last (h : q.Linked c task) :
    ∃ before g, q.chain c = before ++ [g] := by
  obtain ⟨rest, hchain, -⟩ := h.links
  have hne : q.chain c ≠ [] := by simp [hchain]
  exact ⟨_, _, (List.dropLast_append_getLast hne).symm⟩

/-- All but the last of a chain have run. -/
theorem Linked.over_of_before (h : q.Linked c task) {before : List Nat}
    (hchain : q.chain c = before ++ [g]) {k : Nat} (hk : k ∈ before) :
    ∃ f cause next, q.firing? k = some f ∧ f.phase = .over (.ran (.error cause) (some next)) ∧
      cause.isRetryable := by
  obtain ⟨rest, hrest, hlinks⟩ := h.links
  rw [← hrest, hchain] at hlinks
  obtain ⟨l, r, rfl⟩ := List.append_of_mem hk
  have hlink : ∃ next, q.RetriedBy k next := by
    cases r with
    | nil =>
      rw [List.append_assoc, List.singleton_append] at hlinks
      exact ⟨_, (List.isChain_append_cons_cons.mp hlinks).2.1⟩
    | cons next r =>
      rw [List.append_assoc, List.cons_append, List.cons_append] at hlinks
      exact ⟨next, (List.isChain_append_cons_cons.mp hlinks).2.1⟩
  obtain ⟨next, f, -, cause, hf, -, hp, hcause, -⟩ := hlink
  exact ⟨f, cause, next, hf, hp, hcause⟩

/-- A firing of a chain is its last one, or over. -/
theorem Linked.last_or_over (h : q.Linked c task) {before : List Nat} {last : Nat}
    (hchain : q.chain c = before ++ [last]) (hf : q.firing? g = some f) (ho : f.origin = c) :
    g = last ∨ ∃ ending, f.phase = .over ending := by
  have hg : g ∈ before ++ [last] := hchain ▸ mem_chain.mpr ⟨f, hf, ho⟩
  rcases List.mem_append.mp hg with hg | hg
  · obtain ⟨f', cause, next, hf', hover, -⟩ := h.over_of_before hchain hg
    obtain rfl := Option.some.inj (hf.symm.trans hf')
    exact .inr ⟨_, hover⟩
  · exact .inl (List.mem_singleton.mp hg)

/-- Only the last firing of a chain is not over. -/
theorem Linked.eq_append (h : q.Linked c task) (hf : q.firing? g = some f) (ho : f.origin = c)
    (hp : ∀ ending, f.phase ≠ .over ending) : ∃ before, q.chain c = before ++ [g] := by
  obtain ⟨before, last, hchain⟩ := h.exists_last
  rcases h.last_or_over hchain hf ho with rfl | ⟨ending, hover⟩
  · exact ⟨before, hchain⟩
  · exact absurd hover (hp ending)

theorem Linked.step (h : q.Linked c task) (e : Event) : (q.step e).Linked c task := by
  have hch := changes_step q e
  obtain ⟨f₀, hf₀, hone, htask⟩ := h.first
  obtain ⟨rest, hchain, hlinks⟩ := h.links
  obtain ⟨p, hf₀', -⟩ := hch.follows hf₀
  refine ⟨⟨_, hf₀', hone, htask⟩, ?_⟩
  have hlinks' : (c :: rest).IsChain (q.step e).RetriedBy := hlinks.imp fun _ _ hl => hl.after hch
  rcases hch.chain (firing?_lt hf₀) with hsame | ⟨g, f, outcome, jitter, rfl, ho, hr, hmore⟩
  · exact ⟨rest, hsame.trans hchain, hlinks'⟩
  · refine ⟨rest ++ [q.firings.length], by rw [hmore, hchain]; rfl, ?_⟩
    -- the firing that is tried again is the last one so far
    obtain ⟨hf, hp⟩ := hr.settles
    obtain ⟨before, hlast⟩ := h.eq_append hf ho (by simp [hp])
    obtain ⟨cause, rfl, hcause⟩ := hr.heals
    have hearly : f.attempt < q.policy.maxAttempts := by
      simpa only [isFinal_eq_false] using hr.early
    rw [← List.cons_append, List.isChain_append]
    refine ⟨hlinks', List.isChain_singleton _, ?_⟩
    rw [← hchain, hlast]
    rintro x hx y hy
    obtain rfl : g = x := by simpa using hx
    obtain rfl : q.firings.length = y := by simpa using hy
    obtain ⟨due, hnew⟩ := hr.firing?_retry jitter
    exact ⟨_, _, cause, hr.firing?_settle jitter, hnew, rfl, hcause, hch.frame.1 ▸ hearly, rfl, rfl⟩

theorem chain_eq_nil (h : q.firing? c = none) (ho : ∀ g f, q.firing? g = some f →
    q.Linked f.origin f.task) : q.chain c = [] := by
  rw [List.eq_nil_iff_forall_not_mem]
  intro g hg
  obtain ⟨f, hf, rfl⟩ := mem_chain.mp hg
  obtain ⟨f₀, hf₀, -⟩ := (ho g f hf).first
  rw [h] at hf₀
  cases hf₀

/-- A firing that an event brings about is the first of a chain, or the next one of a chain. -/
theorem Changes.new_firing (h : Changes q e q') (hn : q.firing? g = none)
    (hf : q'.firing? g = some f) :
    g = q.firings.length ∧
      (e = .schedule f.task ∧ f.origin = g ∧ f.attempt = 1 ∧ q'.chain g = q.chain g ++ [g] ∨
        ∃ k fk jitter, e = .settle k jitter ∧ q.firing? k = some fk ∧ fk.origin = f.origin ∧
          fk.task = f.task) := by
  have harm : ∀ {q₁ : Queue} {task delayMillis attempt origin}, q₁.firing? g = none →
      (q₁.arm task delayMillis attempt origin).firing? g = some f →
      g = q₁.firings.length ∧ f = q₁.armed task delayMillis attempt origin := by
    intro q₁ task delayMillis attempt origin hn' hf
    rw [firing?_arm, firing?_displace, hn'] at hf
    split at hf
    · next hg => exact ⟨hg, (Option.some.inj hf).symm⟩
    · split at hf <;> cases hf
  cases h with
  | armed task hopen hk =>
    obtain ⟨rfl, rfl⟩ := harm hn hf
    refine ⟨rfl, .inl ⟨rfl, rfl, rfl, ?_⟩⟩
    rw [chain_arm, Option.getD_none, if_pos rfl]
  | @retried k fk outcome jitter hk hp hw hnot =>
    obtain ⟨rfl, rfl⟩ := harm (by rw [firing?_setPhase, hn]; split <;> rfl) hf
    exact ⟨length_setPhase .., .inr ⟨k, fk, jitter, rfl, hk, rfl, rfl⟩⟩
  | @moved _ k fk p timers locks nextLock hk hl ht =>
    rw [firing?_setPhase] at hf
    have hn' : ({ q with timers, locks, nextLock } : Queue).firing? g = none := hn
    rw [hn'] at hf
    split at hf <;> cases hf
  | shutdown =>
    change (q.firings.map callOff)[g]? = _ at hf
    rw [List.getElem?_map, show q.firings[g]? = none from hn] at hf
    cases hf
  | _ => exact absurd (hn.symm.trans hf) (by simp)

theorem linked_step (h : ∀ g f, q.firing? g = some f → q.Linked f.origin f.task) (e : Event)
    (hf : (q.step e).firing? g = some f) : (q.step e).Linked f.origin f.task := by
  have hch := changes_step q e
  rcases hch.comes_from hf with hnew | ⟨f₀, p, hold, rfl, -⟩
  · obtain ⟨-, ⟨-, ho, hone, hchain⟩ | ⟨k, fk, -, -, hk, horigin, htask⟩⟩ :=
      hch.new_firing hnew hf
    · rw [chain_eq_nil hnew h, List.nil_append] at hchain
      rw [ho]
      exact ⟨⟨f, hf, hone, rfl⟩, [], hchain, List.isChain_singleton g⟩
    · rw [← horigin, ← htask]
      exact (h k fk hk).step e
  · exact (h g f₀ hold).step e

/-! ## The attempts of a chain -/

/-- From any of its firings on, the attempts of a chain are counted up. -/
theorem given_of_links {gs : List Nat} (h : (g :: gs).IsChain q.RetriedBy)
    (hf : q.firing? g = some f) :
    (g :: gs).map q.given? = (List.range' f.attempt (gs.length + 1)).map fun i =>
      some (f.task.payload, ⟨f.task.dedupId, i, q.policy.maxAttempts⟩) := by
  induction gs generalizing g f with
  | nil => simp [given?, hf, attempt]
  | cons g' gs ih =>
    obtain ⟨hlink, hlinks⟩ := List.isChain_cons_cons.mp h
    obtain ⟨fp, f', cause, hfp, hf', -, -, -, hattempt, htask⟩ := hlink
    obtain rfl := Option.some.inj (hf.symm.trans hfp)
    rw [List.map_cons, ih hlinks hf', List.length_cons, List.range'_succ, List.map_cons, hattempt,
      htask]
    congr 1
    simp [given?, hf, attempt]

theorem attempt_le_of_links {gs : List Nat} (h : (g :: gs).IsChain q.RetriedBy)
    (hf : q.firing? g = some f) (hle : f.attempt ≤ q.policy.maxAttempts) :
    f.attempt + gs.length ≤ q.policy.maxAttempts := by
  induction gs generalizing g f with
  | nil => exact hle
  | cons g' gs ih =>
    obtain ⟨hlink, hlinks⟩ := List.isChain_cons_cons.mp h
    obtain ⟨fp, f', cause, hfp, hf', -, -, hlt, hattempt, -⟩ := hlink
    obtain rfl := Option.some.inj (hf.symm.trans hfp)
    have := ih hlinks hf' (by omega)
    rw [List.length_cons]
    omega

theorem Linked.given (h : q.Linked c task) :
    (q.chain c).map q.given? = (List.range' 1 (q.chain c).length).map fun i =>
      some (task.payload, ⟨task.dedupId, i, q.policy.maxAttempts⟩) := by
  obtain ⟨f, hf, hone, rfl⟩ := h.first
  obtain ⟨rest, hchain, hlinks⟩ := h.links
  rw [hchain, given_of_links hlinks hf, hone, List.length_cons]

theorem Linked.length_le (h : q.Linked c task) (hpos : 1 ≤ q.policy.maxAttempts) :
    (q.chain c).length ≤ q.policy.maxAttempts := by
  obtain ⟨f, hf, hone, -⟩ := h.first
  obtain ⟨rest, hchain, hlinks⟩ := h.links
  have := attempt_le_of_links hlinks hf (by omega)
  rw [hchain, List.length_cons]
  omega

/-- The attempt of a firing is its place in the chain. -/
theorem Linked.attempt_eq (h : q.Linked c task) {i : Nat} (hi : (q.chain c)[i]? = some g)
    (hf : q.firing? g = some f) : f.attempt = i + 1 := by
  have hlt := (List.getElem?_eq_some_iff.mp hi).1
  have hgiven := congrArg (·[i]?) h.given
  simp only [List.getElem?_map, hi, List.getElem?_range' hlt, Option.map_some, given?, hf,
    Option.some.injEq, Prod.mk.injEq, attempt, Attempt.mk.injEq] at hgiven
  omega

theorem Linked.attempt_le (h : q.Linked c task) (hpos : 1 ≤ q.policy.maxAttempts)
    (hg : g ∈ q.chain c) (hf : q.firing? g = some f) : f.attempt ≤ q.policy.maxAttempts := by
  obtain ⟨i, hi⟩ := List.mem_iff_getElem?.mp hg
  have hlt := (List.getElem?_eq_some_iff.mp hi).1
  have hle := h.length_le hpos
  rw [h.attempt_eq hi hf]
  omega

theorem Linked.runs_eq (h : q.Linked c task) {before : List Nat}
    (hchain : q.chain c = before ++ [g]) :
    q.runs c = before ++ if (q.phase? g).any Phase.hasStarted then [g] else [] := by
  have hbefore : before.filter (fun k => (q.phase? k).any Phase.hasStarted) = before := by
    rw [List.filter_eq_self]
    intro k hk
    obtain ⟨f, cause, next, hf, hp, -⟩ := h.over_of_before hchain hk
    simp [phase?, hf, hp, Phase.hasStarted]
  rw [runs, hchain, List.filter_append, hbefore, List.filter_cons, List.filter_nil]

/-- The runs of a chain are given the same payload, and attempts counted from one. -/
theorem Linked.given_runs (h : q.Linked c task) :
    (q.runs c).map q.given? = (List.range' 1 (q.runs c).length).map fun i =>
      some (task.payload, ⟨task.dedupId, i, q.policy.maxAttempts⟩) := by
  obtain ⟨before, g, hchain⟩ := h.exists_last
  have hgiven := h.given
  rw [h.runs_eq hchain]
  rw [hchain] at hgiven
  split
  · exact hgiven
  · rw [List.length_append, List.length_singleton, List.range'_1_concat, List.map_append,
      List.map_append] at hgiven
    rw [List.append_nil]
    exact (List.append_inj hgiven (by simp)).1

theorem Linked.length_runs_le (h : q.Linked c task) (hpos : 1 ≤ q.policy.maxAttempts) :
    (q.runs c).length ≤ q.policy.maxAttempts :=
  Nat.le_trans (List.length_filter_le ..) (h.length_le hpos)

end

end ChatRelay.Timer.Queue
