import ChatRelay.Proofs.Relay.History

/-!
# Runs and their firings

Each run belongs to a firing of its user's task. The handler of the firing is at work for as long as
the run is, and reports what the run has come to. So the runs of one user never overlap.
-/

namespace ChatRelay

/-- Where a firing is while a run belongs to it. -/
def BatchRun.At (r : BatchRun) (p : Timer.Phase) : Prop :=
  p.isRunning ∨ ∃ o, p.outcome? = some o ∧ r.result? = some o

/-- A run gets on as the one that it is, and when it is through it stays as it is. -/
structure BatchRun.Continues (r r' : BatchRun) : Prop where
  ticket : r'.ticket = r.ticket
  firing : r'.firing = r.firing
  attempt : r'.attempt = r.attempt
  through : ∀ {o}, r.result? = some o → r' = r

theorem BatchRun.Continues.refl (r : BatchRun) : r.Continues r := ⟨rfl, rfl, rfl, fun _ => rfl⟩

theorem BatchRun.Progress.eq_of_finished {σ : Type} [Store σ] [LawfulStore σ] {s s' : σ}
    {r r' : BatchRun} {d : Deed} (h : Progress s r d s' r')
    {o : Except RelayError Unit} (ho : r.result? = some o) : d = .none ∧ s' = s ∧ r' = r := by
  cases h <;> simp_all [result?]

theorem BatchRun.Progress.continues {σ : Type} [Store σ] [LawfulStore σ] {s s' : σ}
    {r r' : BatchRun} {d : Deed} (h : Progress s r d s' r') : r.Continues r' :=
  ⟨h.frame.1, h.frame.2.1, h.frame.2.2, fun ho => (h.eq_of_finished ho).2.2⟩

namespace Relay
open Timer

structure Matched (relay : Relay) : Prop where
  owned : ∀ {i : Nat} {r : BatchRun}, relay.runs[i]? = some r → ∃ g f delay, r.firing = some g ∧
    relay.queue.firing? g = some f ∧ f.task = r.ticket.task delay ∧
    r.attempt = relay.queue.attempt f ∧ r.At f.phase
  single : ∀ {i j : Nat} {r r' : BatchRun}, relay.runs[i]? = some r → relay.runs[j]? = some r' →
    r.firing = r'.firing → i = j

section
variable {relay : Relay}

theorem Matched.running (hm : relay.Matched) {i : Nat} {r : BatchRun}
    (hr : relay.runs[i]? = some r) (hu : r.result? = none) :
    ∃ g f delay, r.firing = some g ∧ relay.queue.firing? g = some f ∧
      f.task = r.ticket.task delay ∧ f.phase.isRunning := by
  obtain ⟨g, f, delay, hg, hf, htask, -, hrun | ⟨o, -, ho⟩⟩ := hm.owned hr
  · exact ⟨g, f, delay, hg, hf, htask, hrun⟩
  · rw [hu] at ho
    cases ho

/-- A user has one unfinished run at most. -/
theorem Matched.eq_of_unfinished (hm : relay.Matched) (hq : relay.queue.Sound) {i j : Nat}
    {r r' : BatchRun} (hr : relay.runs[i]? = some r) (hr' : relay.runs[j]? = some r')
    (hu : r.ticket.user = r'.ticket.user) (h : r.result? = none) (h' : r'.result? = none) :
    i = j := by
  obtain ⟨g, f, delay, hg, hf, htask, hrun⟩ := hm.running hr h
  obtain ⟨g', f', delay', hg', hf', htask', hrun'⟩ := hm.running hr' h'
  have hlock : ∀ {p : Phase}, p.isRunning → p.lock?.isSome := by
    intro p hp
    cases p <;> simp_all [Phase.isRunning, Phase.lock?]
  have hid : f.task.dedupId = f'.task.dedupId := by
    rw [htask, htask']
    exact congrArg Ticket.dedupId hu
  have hgg := hq.eq_of_lock? hf hf' hid (hlock hrun) (hlock hrun')
  exact hm.single hr hr' (by rw [hg, hg', hgg])

end

/-! ## What keeps runs and firings together -/

/-- What an event may do to runs and firings: runs get on or start with their firings, and the
handler of a run reports what the run has come to. -/
structure Upkeep (relay relay' : Relay) : Prop where
  queue : ∃ e, (relay'.queue = relay.queue ∨ relay'.queue = relay.queue.step e) ∧
    ∀ g o, e = .finish g o → relay.isBatch g → ∃ (i : Nat) (r : BatchRun),
      relay.runs[i]? = some r ∧ r.firing = some g ∧ r.result? = some o
  runs : ∀ {i : Nat} {r' : BatchRun}, relay'.runs[i]? = some r' →
    (∃ r, relay.runs[i]? = some r ∧ r.Continues r') ∨
      i = relay.runs.length ∧ Starts relay relay' r'

section
variable {relay relay' : Relay}

theorem Upkeep.policy (hup : Upkeep relay relay') : relay'.queue.policy = relay.queue.policy := by
  obtain ⟨e, hq, -⟩ := hup.queue
  exact (changes_of_eq hq).frame.1

theorem isBatch_of_firing {i : Nat} {r : BatchRun} (hr : relay.runs[i]? = some r) {g : Nat}
    (hg : r.firing = some g) : relay.isBatch g :=
  List.any_eq_true.mpr ⟨r, List.mem_of_getElem? hr, by simpa using hg⟩

/-- What becomes of the firing of a run. -/
theorem Matched.follows (hm : relay.Matched) (hup : Upkeep relay relay') {i : Nat}
    {r r' : BatchRun} (hr : relay.runs[i]? = some r) (hr' : r.Continues r') {g : Nat} {f : Firing}
    (hg : r.firing = some g) (hf : relay.queue.firing? g = some f) (hat : r.At f.phase) :
    ∃ p, relay'.queue.firing? g = some { f with phase := p } ∧ r'.At p := by
  obtain ⟨e, hq, hfin⟩ := hup.queue
  obtain ⟨p, hp, hl⟩ := (changes_of_eq hq).follows hf
  refine ⟨p, hp, ?_⟩
  rcases hat with hrun | ⟨o, ho, hres⟩
  · rcases hl with rfl | hl
    · exact .inl hrun
    · obtain ⟨lock, o, rfl, rfl⟩ := hl.isRunning hrun
      obtain ⟨j, r₀, hr₀, hg₀, hres⟩ := hfin g o rfl (isBatch_of_firing hr hg)
      obtain rfl := hm.single hr hr₀ (hg.trans hg₀.symm)
      obtain rfl : r = r₀ := Option.some.inj (hr.symm.trans hr₀)
      exact .inr ⟨o, rfl, hr'.through hres ▸ hres⟩
  · refine .inr ⟨o, ?_, hr'.through hres ▸ hres⟩
    rcases hl with rfl | hl
    · exact ho
    · exact hl.outcome? ho

theorem Starts.matched {r : BatchRun} (h : Starts relay relay' r)
    (hpol : relay'.queue.policy = relay.queue.policy) :
    ∃ g f delay, r.firing = some g ∧ relay'.queue.firing? g = some f ∧
      f.task = r.ticket.task delay ∧ r.attempt = relay'.queue.attempt f ∧ r.At f.phase := by
  obtain ⟨g, f, lock, ticket, delay, hf, hp, htask, hl, hq, rfl⟩ := h
  have hacq : relay.queue.acquire g = relay.queue.setPhase g (.running lock) := by
    simp [Queue.acquire, Queue.phase?, hf, hp, hl]
  refine ⟨g, { f with phase := .running lock }, delay, rfl, ?_, htask, ?_, .inl rfl⟩
  · rw [hq, hacq, Queue.firing?_setPhase, if_pos rfl, hf]
    rfl
  · simp [Queue.attempt, hpol]

theorem Matched.owned_after (hm : relay.Matched) (hup : Upkeep relay relay') {i : Nat}
    {r r' : BatchRun} (hr : relay.runs[i]? = some r) (hr' : r.Continues r') :
    ∃ g f delay, r'.firing = some g ∧ relay'.queue.firing? g = some f ∧
      f.task = r'.ticket.task delay ∧ r'.attempt = relay'.queue.attempt f ∧ r'.At f.phase := by
  obtain ⟨g, f, delay, hg, hf, htask, hatt, hat⟩ := hm.owned hr
  obtain ⟨p, hp, hat'⟩ := hm.follows hup hr hr' hg hf hat
  refine ⟨g, { f with phase := p }, delay, hr'.firing.trans hg, hp, ?_, ?_, hat'⟩
  · rw [hr'.ticket]
    exact htask
  · rw [hr'.attempt, hatt]
    simp [Queue.attempt, hup.policy]

/-- The firing of a run that starts was waiting before, and so was not that of another run. -/
theorem Matched.firing_ne (hm : relay.Matched) {i : Nat} {r r' new : BatchRun}
    (hr : relay.runs[i]? = some r) (hr' : r.Continues r') (hstart : Starts relay relay' new) :
    r'.firing ≠ new.firing := by
  intro heq
  obtain ⟨g, f, lock, ticket, delay, hf, hp, -, -, -, rfl⟩ := hstart
  obtain ⟨g', f', -, hg', hf', -, -, hat⟩ := hm.owned hr
  obtain rfl : g' = g := Option.some.inj (hg'.symm.trans (hr'.firing.symm.trans heq))
  obtain rfl : f = f' := Option.some.inj (hf.symm.trans hf')
  rw [BatchRun.At, hp] at hat
  rcases hat with hrun | ⟨o, ho, -⟩
  · cases hrun
  · cases ho

theorem Matched.of_upkeep (hm : relay.Matched) (hup : Upkeep relay relay') : relay'.Matched := by
  constructor
  · intro i r' hr'
    rcases hup.runs hr' with ⟨r, hr, hadv⟩ | ⟨-, hstart⟩
    · exact hm.owned_after hup hr hadv
    · exact hstart.matched hup.policy
  · intro i j r₁ r₂ h₁ h₂ heq
    rcases hup.runs h₁ with ⟨q₁, hq₁, hadv₁⟩ | ⟨hi, hs₁⟩
    · rcases hup.runs h₂ with ⟨q₂, hq₂, hadv₂⟩ | ⟨-, hs₂⟩
      · exact hm.single hq₁ hq₂ (hadv₁.firing.symm.trans (heq.trans hadv₂.firing))
      · exact absurd heq (hm.firing_ne hq₁ hadv₁ hs₂)
    · rcases hup.runs h₂ with ⟨q₂, hq₂, hadv₂⟩ | ⟨hj, -⟩
      · exact absurd heq.symm (hm.firing_ne hq₂ hadv₂ hs₁)
      · exact hi.trans hj.symm

end

variable {σ : Type} [Store σ] [LawfulStore σ] {setup : Setup} {s s' : σ} {relay relay' : Relay}
  {d : Deed}

theorem Happens.upkeep (hap : Happens setup s relay d s' relay') : Upkeep relay relay' where
  queue := by
    obtain ⟨e, hq, -, -, hfin⟩ := hap.keeps
    exact ⟨e, hq, fun g o he _ => hfin g o he⟩
  runs {i r'} hr' := by
    rcases hap.run_after hr' with hr | ⟨r, hr, hp⟩ | ⟨-, hi, hstart⟩
    · exact .inl ⟨r', hr, .refl r'⟩
    · exact .inl ⟨r, hr, hp.continues⟩
    · exact .inr ⟨hi, hstart⟩

theorem Matched.step (hm : relay.Matched) (hap : Happens setup s relay d s' relay') :
    relay'.Matched := hm.of_upkeep hap.upkeep

theorem Comes.matched {s₀ : σ} {policy : RetryPolicy} {h : History}
    (hc : Comes setup s₀ policy h s relay) : relay.Matched := by
  refine hc.invariant (P := fun _ _ relay => relay.Matched) ⟨?_, ?_⟩ ?_
  · simp [Relay.fresh]
  · simp [Relay.fresh]
  · intro h s relay d s' relay' t _ hm _ _ _ hap
    exact hm.step hap

end Relay
end ChatRelay
