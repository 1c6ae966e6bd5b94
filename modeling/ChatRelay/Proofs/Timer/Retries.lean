import ChatRelay.Proofs.Timer.Chains

/-!
# How chains end

A chain of retries comes to its end when a run succeeds, when its error cannot heal, at the last
attempt that the policy allows, or because something newer of the same dedup id takes its place. A
chain that nothing interferes with, and all of whose runs fail with errors that may heal, goes on to
the last attempt, and only that one is told that it is the last.
-/

namespace ChatRelay.Timer

/-- A report that an event does not bring was there before. -/
theorem Phase.Leads.outcome?_from {g : Nat} {e : Queue.Event} {p p' : Phase} (h : Leads g e p p')
    {o : Except RelayError Unit} (ho : p'.outcome? = some o) :
    p.outcome? = some o ∨ e = .finish g o := by
  cases h <;> simp_all [Phase.outcome?]

theorem Phase.Leads.settled_from {g : Nat} {e : Queue.Event} {p : Phase}
    {o : Except RelayError Unit} {retry : Option Nat} (h : Leads g e p (.over (.ran o retry))) :
    p = .settling o ∧ ∃ jitter, e = .settle g jitter := by
  cases h with
  | settled jitter => exact ⟨rfl, jitter, rfl⟩

theorem Phase.Leads.unhandled_from {g : Nat} {e : Queue.Event} {p : Phase}
    (h : Leads g e p (.over .unhandled)) : p = .awake ∧ e = .claim g := by
  cases h
  exact ⟨rfl, rfl⟩

/-- A firing that has not claimed its timer had not claimed it before. -/
theorem Phase.not_hasClaimed_before {g : Nat} {e : Queue.Event} {p p' : Phase}
    (h : p' = p ∨ p.Leads g e p') (hp : p'.hasClaimed = false) : p.hasClaimed = false := by
  rcases h with rfl | h
  · exact hp
  · exact Bool.eq_false_iff.mpr fun hc => Bool.eq_false_iff.mp hp (h.hasClaimed hc)

namespace Queue

variable {q q' : Queue} {e : Event} {c g : Nat} {f : Firing} {task : Task}

/-! ## A newer schedule -/

/-- A firing that has not claimed its timer is the last of its chain, and the others have run. -/
theorem Linked.last_of_unclaimed (h : q.Linked c task) (hg : g ∈ q.chain c) (hn : ¬ q.Claimed g) :
    ∃ before, q.chain c = before ++ [g] ∧ q.runs c = before := by
  obtain ⟨before, last, hchain⟩ := h.exists_last
  rw [hchain] at hg
  rcases List.mem_append.mp hg with hg | hg
  · obtain ⟨f, cause, next, hf, hover, -⟩ := h.over_of_before hchain hg
    exact absurd ⟨f, hf, by rw [hover]; rfl⟩ hn
  · obtain rfl := List.mem_singleton.mp hg
    refine ⟨before, hchain, ?_⟩
    rw [h.runs_eq hchain, if_neg, List.append_nil]
    intro hs
    obtain ⟨p, hp, hs⟩ := (Option.any_eq_true _ _).mp hs
    obtain ⟨f, hf, rfl⟩ := Option.map_eq_some_iff.mp hp
    exact hn (Started.claimed ⟨f, hf, hs⟩)

theorem chain_step_of_unclaimed (h : q.Linked c task) (hg : g ∈ q.chain c) (hn : ¬ q.Claimed g) :
    (q.step e).chain c = q.chain c := by
  obtain ⟨f₀, hf₀, -⟩ := h.first
  refine ((changes_step q e).chain (firing?_lt hf₀)).resolve_right ?_
  rintro ⟨k, fk, outcome, jitter, rfl, ho, hr, -⟩
  -- the firing that would be tried again is the last one, and has claimed its timer
  obtain ⟨hk, hp⟩ := hr.settles
  obtain ⟨before, hlast⟩ := h.eq_append hk ho (by simp [hp])
  obtain ⟨before', hlast', -⟩ := h.last_of_unclaimed hg hn
  obtain rfl : k = g := by
    have := (List.append_inj' (hlast.symm.trans hlast') rfl).2
    exact List.singleton_inj.mp this
  exact hn ⟨fk, hk, by rw [hp]; rfl⟩

/-- A chain of which some firing does not come to claim its timer has come to its end. -/
theorem chain_run_of_unclaimed (h : q.Linked c task) (hg : g ∈ q.chain c) (es : List Event)
    (hn : ¬ (q.run es).Claimed g) :
    (q.run es).chain c = q.chain c ∧ (q.run es).runs c = q.runs c := by
  have hn₀ : ¬ q.Claimed g := fun hc => hn (hc.run es)
  have hchain : (q.run es).chain c = q.chain c ∧ (q.run es).Linked c task := by
    clear hn₀
    induction es generalizing q with
    | nil => exact ⟨rfl, h⟩
    | cons e es ih =>
      have hsame := chain_step_of_unclaimed h (e := e) hg fun hc => hn (hc.run (e :: es))
      obtain ⟨hchain, hlinked⟩ := ih (h.step e) (hsame ▸ hg) hn
      exact ⟨hchain.trans hsame, hlinked⟩
  obtain ⟨before, hlast, hruns⟩ := h.last_of_unclaimed hg hn₀
  obtain ⟨before', hlast', hruns'⟩ := hchain.2.last_of_unclaimed (hchain.1 ▸ hg) hn
  refine ⟨hchain.1, ?_⟩
  rw [hruns, hruns']
  exact (List.append_inj' ((hlast'.symm.trans hchain.1).trans hlast) rfl).1

/-- A schedule that finds a timer pending ends the chain to which the timer belongs, and opens one
of its own. -/
theorem chain_of_schedule (hs : q.Sound) (hr : q.Regular) (hok : (q.schedule task).2 = .ok ())
    (ht : Table.get? q.timers task.dedupId = some g) (hf : q.firing? g = some f)
    (hl : q.Linked f.origin f.task) (later : List Event) :
    ((q.schedule task).1.run later).chain f.origin = q.chain f.origin ∧
      ((q.schedule task).1.run later).runs f.origin = q.runs f.origin := by
  refine chain_run_of_unclaimed hl (mem_chain.mpr ⟨f, hf, rfl⟩) (.schedule task :: later) ?_
  obtain ⟨hk, harm⟩ := schedule_of_ok hok
  obtain ⟨f', hf', hid, hu⟩ := hs.pending ht
  obtain rfl := Option.some.inj (hf.symm.trans hf')
  have hn : ¬ q.Claimed g := by
    rintro ⟨f', hf', hc⟩
    obtain rfl := Option.some.inj (hf.symm.trans hf')
    rw [Phase.not_hasClaimed_of_isUnclaimed hu] at hc
    cases hc
  obtain ⟨p, hp, -⟩ := (changes_step q (.schedule task)).follows hf
  refine not_claimed_of_later (hr.step (.schedule task)) (g := q.firings.length)
    (f := q.armed task task.delayMillis 1 none) ?_ hp hid (firing?_lt hf) (fun hc => ?_) later
  · rw [step, harm, firing?_arm, if_pos rfl]
  · refine (claimed_step hc).elim hn fun hc => ?_
    obtain ⟨heq, -⟩ := claimed?_eq_some.mp hc
    cases heq

/-! ## What takes the place of a firing -/

/-- Something newer has been armed for the id, or the queue is shut down. -/
def Superseded (q : Queue) (g : Nat) (id : String) : Prop :=
  q.closed ∨ ∃ g' f', g < g' ∧ q.firing? g' = some f' ∧ f'.task.dedupId = id

theorem Superseded.after {id : String} (h : q.Superseded g id) (hc : Changes q e q') :
    q'.Superseded g id := by
  rcases h with h | ⟨g', f', hlt, hf', hid⟩
  · exact .inl (hc.closed h)
  · obtain ⟨p, hp, -⟩ := hc.follows hf'
    exact .inr ⟨g', _, hlt, hp, hid⟩

/-- Every firing that has not claimed its timer is pending or superseded. -/
def AwaitsClaim (q : Queue) : Prop :=
  ∀ g f, q.firing? g = some f → f.phase.hasClaimed = false →
    Table.get? q.timers f.task.dedupId = some g ∨ q.Superseded g f.task.dedupId

/-- Where the firings of a queue have got to: one that has not claimed its timer is pending, and one
that failed with an error that may heal was at its last attempt, unless there is something newer. -/
structure Accounted (q : Queue) : Prop where
  keys : ∀ {g f}, q.firing? g = some f → f.task.key ∈ q.handlers
  handled : ∀ {g f}, q.firing? g = some f → f.phase ≠ .over .unhandled
  unclaimed : q.AwaitsClaim
  failed : ∀ {g f cause retry}, q.firing? g = some f →
    f.phase = .over (.ran (.error cause) retry) → cause.isRetryable →
    (q.attempt f).isFinal ∨ q.Superseded g f.task.dedupId

theorem keys_step (hk : ∀ {g f}, q.firing? g = some f → f.task.key ∈ q.handlers)
    (hf : (q.step e).firing? g = some f) : f.task.key ∈ (q.step e).handlers := by
  have hch := changes_step q e
  rw [hch.frame.2]
  rcases hch.comes_from hf with hnew | ⟨f₀, p, hold, rfl, -⟩
  · obtain ⟨-, ⟨rfl, -⟩ | ⟨k, fk, -, -, hfk, -, htask⟩⟩ := hch.new_firing hnew hf
    · by_contra hno
      have hsame : q.step (.schedule f.task) = q := by
        simp only [step, schedule, hno, not_false_eq_true, if_true]
        split <;> rfl
      rw [hsame, hnew] at hf
      cases hf
    · exact htask ▸ hk hfk
  · exact hk (f := f₀) hold

theorem handled_step (hk : ∀ {g f}, q.firing? g = some f → f.task.key ∈ q.handlers)
    (hh : ∀ {g f}, q.firing? g = some f → f.phase ≠ .over .unhandled)
    (hf : (q.step e).firing? g = some f) : f.phase ≠ .over .unhandled := by
  intro hp
  rcases (changes_step q e).comes_from hf with hnew | ⟨f₀, p, hold, rfl, rfl | hl⟩
  · rw [((changes_step q e).arises hnew hf).sleeping] at hp
    cases hp
  · exact hh hold hp
  · obtain rfl : p = .over .unhandled := hp
    obtain ⟨hawake, rfl⟩ := hl.unhandled_from
    have hkey := hk hold
    simp only [step, claim, hold, hawake, hkey, ne_eq, not_true_eq_false, if_false,
      if_true] at hf
    split at hf
    · rw [firing?_setPhase_self hold] at hf
      cases hf
    · have hold' : ({ q with timers := Table.remove q.timers f₀.task.dedupId } : Queue).firing? g =
          some f₀ := hold
      rw [firing?_setPhase_self hold'] at hf
      cases hf

theorem AwaitsClaim.arm (h : q.AwaitsClaim) (task : Task) (delayMillis attempt : Nat)
    (origin : Option Nat) : (q.arm task delayMillis attempt origin).AwaitsClaim := by
  intro g f hf hp
  have hnew := (firing?_arm q task delayMillis attempt origin q.firings.length).trans (if_pos rfl)
  have hold : ∀ {k fk}, q.firing? k = some fk → ∃ p,
      (q.arm task delayMillis attempt origin).firing? k = some { fk with phase := p } := by
    intro k fk hk
    obtain ⟨p, hp, -⟩ := follows_arm (e := .shutdown) hk task delayMillis attempt origin
    exact ⟨p, hp⟩
  cases h₀ : q.firing? g with
  | none =>
    rw [firing?_arm, firing?_displace, h₀] at hf
    split at hf
    · next hg =>
      obtain rfl := Option.some.inj hf
      exact .inl (by rw [get?_timers_arm, hg]; exact if_pos rfl)
    · split at hf <;> cases hf
  | some f₀ =>
    obtain ⟨p, hp', hl⟩ := follows_arm (e := .shutdown) h₀ task delayMillis attempt origin
    obtain rfl := Option.some.inj (hp'.symm.trans hf)
    rcases h g f₀ h₀ (Phase.not_hasClaimed_before hl hp) with ht | hc | ⟨g', f', hlt, hf', hid⟩
    · by_cases hid : f₀.task.dedupId = task.dedupId
      · exact .inr (.inr ⟨_, _, firing?_lt h₀, hnew, hid.symm⟩)
      · exact .inl (by rw [get?_timers_arm, if_neg hid, ht])
    · exact .inr (.inl (by rwa [closed_arm]))
    · obtain ⟨p', hk⟩ := hold hf'
      exact .inr (.inr ⟨g', _, hlt, hk, hid⟩)

/-- A firing moves on, and takes no other timer from the table than its own. -/
theorem AwaitsClaim.moved {k : Nat} {fk : Firing} {p : Phase} {timers locks : Table String Nat}
    {nextLock : Nat} (h : q.AwaitsClaim) (hk : q.firing? k = some fk) (hl : fk.phase.Leads k e p)
    (ht : TimersMoved q k fk p timers) (hkey : fk.task.key ∈ q.handlers) :
    ({ q with timers, locks, nextLock }.setPhase k p).AwaitsClaim := by
  intro g f hf hp
  have hch : Changes q e ({ q with timers, locks, nextLock }.setPhase k p) := .moved hk hl ht
  rcases hch.comes_from hf with hnew | ⟨f₀, p', hg, rfl, hl'⟩
  · have hnew' : ({ q with timers, locks, nextLock } : Queue).firing? g = none := hnew
    rw [firing?_setPhase, hnew'] at hf
    split at hf <;> cases hf
  rcases h g f₀ hg (Phase.not_hasClaimed_before hl' hp) with hmine | hsup
  · rcases ht with rfl | ⟨hown, rfl, hclaimed⟩
    · exact .inl hmine
    · by_cases hid : f₀.task.dedupId = fk.task.dedupId
      · -- the timer that is taken is the firing's own, which has claimed it
        rw [hid, hown] at hmine
        obtain rfl := Option.some.inj hmine
        obtain rfl := Option.some.inj (hk.symm.trans hg)
        have hself := firing?_setPhase_self (q := { q with
          timers := Table.remove q.timers fk.task.dedupId, locks, nextLock }) hk p
        obtain rfl : p = p' := congrArg Firing.phase (Option.some.inj (hself.symm.trans hf))
        rw [hclaimed hkey] at hp
        cases hp
      · refine .inl ?_
        rw [timers_setPhase, Table.get?_remove, if_neg hid, hmine]
  · exact .inr (hsup.after hch)

theorem unclaimed_step (ha : q.Accounted) : (q.step e).AwaitsClaim := by
  have hch := changes_step q e
  generalize q.step e = q' at hch
  cases hch with
  | moved hk hl ht => exact AwaitsClaim.moved ha.unclaimed hk hl ht (ha.keys hk)
  | armed task hopen hkey => exact AwaitsClaim.arm ha.unclaimed _ _ _ _
  | retried jitter hf hp hw hn =>
    refine AwaitsClaim.arm ?_ _ _ _ _
    exact AwaitsClaim.moved ha.unclaimed hf (by rw [hp]; exact .settled jitter _ _) (.inl rfl)
      (ha.keys hf)
  | shutdown => exact fun _ _ _ _ => .inr (.inl rfl)
  | _ => exact ha.unclaimed

theorem failed_step (hs : q.Sound) (hr : q.Regular) (ha : q.Accounted) {cause : RelayError}
    {retry : Option Nat} (hf : (q.step e).firing? g = some f)
    (hp : f.phase = .over (.ran (.error cause) retry)) (hc : cause.isRetryable) :
    ((q.step e).attempt f).isFinal ∨ (q.step e).Superseded g f.task.dedupId := by
  have hch := changes_step q e
  rcases hch.comes_from hf with hnew | ⟨f₀, p, hold, rfl, hl⟩
  · rw [(hch.arises hnew hf).sleeping] at hp
    cases hp
  have hfinal : ((q.step e).attempt { f₀ with phase := p }).isFinal = (q.attempt f₀).isFinal := by
    rw [isFinal_attempt, isFinal_attempt, hch.frame.1]
  rw [hfinal]
  rcases hl with rfl | hl
  · exact (ha.failed hold hp hc).imp_right fun h => h.after hch
  · obtain rfl : p = _ := hp
    obtain ⟨hset, jitter, rfl⟩ := hl.settled_from
    by_cases hretry : Retries q g f₀ (.error cause)
    · obtain ⟨due, hnew⟩ := hretry.firing?_retry jitter
      exact .inr (.inr ⟨_, _, firing?_lt hold, hnew, rfl⟩)
    · by_contra hno
      rw [not_or, Bool.not_eq_true] at hno
      refine hretry ⟨⟨hold, hset⟩, ⟨cause, rfl, hc⟩, hno.1, ?_, ?_⟩
      · exact Bool.eq_false_iff.mpr fun hclosed => hno.2 (.inl (hch.closed hclosed))
      · -- a timer that is pending was armed later
        refine Bool.eq_false_iff.mpr fun hpend => hno.2 ?_
        obtain ⟨g', ht⟩ := isPending_iff.mp hpend
        obtain ⟨f', hf', hid, -⟩ := hs.pending ht
        have hle := hr.latest ht g f₀ hold rfl
        have hne : g' ≠ g := by
          rintro rfl
          exact hs.not_pending hold (by rw [hset]; rfl) _ ht
        exact Superseded.after (.inr ⟨g', f', by omega, hf', hid⟩) hch

theorem Accounted.step (h : q.Accounted) (hs : q.Sound) (hr : q.Regular) (e : Event) :
    (q.step e).Accounted where
  keys := keys_step h.keys
  handled := handled_step h.keys h.handled
  unclaimed := unclaimed_step h
  failed := failed_step hs hr h

/-! ## Chains that nothing interferes with -/

/-- Since the schedule nothing has been armed for its id but its retries, and the queue is open. -/
structure Undisturbed (q : Queue) (c : Nat) : Prop where
  isOpen : q.closed = false
  alone : ∀ {g f f₀}, q.firing? c = some f₀ → q.firing? g = some f → c ≤ g →
    f.task.dedupId = f₀.task.dedupId → f.origin = c

/-- The handlers of a chain have reported nothing but errors that may heal. -/
def FailsOnly (q : Queue) (c : Nat) : Prop :=
  ∀ g f outcome, q.firing? g = some f → f.origin = c → f.phase.outcome? = some outcome →
    ∃ cause, outcome = .error cause ∧ cause.isRetryable

def AtRest (q : Queue) (c : Nat) : Prop :=
  ∀ g f, q.firing? g = some f → f.origin = c → ∃ ending, f.phase = .over ending

/-- What holds of any queue whatever has happened to it. -/
structure Proper (q : Queue) : Prop where
  sound : q.Sound
  regular : q.Regular
  accounted : q.Accounted
  linked : ∀ g f, q.firing? g = some f → q.Linked f.origin f.task

theorem Proper.step (h : q.Proper) (e : Event) : (q.step e).Proper where
  sound := h.sound.step e
  regular := h.regular.step e
  accounted := h.accounted.step h.sound h.regular e
  linked _ _ hf := linked_step h.linked e hf

theorem proper_run (h : q.Proper) (es : List Event) : (q.run es).Proper := by
  induction es generalizing q with
  | nil => exact h
  | cons e es ih => exact ih (h.step e)

theorem proper_fresh (policy : RetryPolicy) (handlers : List String) :
    (fresh policy handlers).Proper := by
  have hnone : ∀ {g f}, (fresh policy handlers).firing? g ≠ some f := by simp [firing?, fresh]
  exact {
    sound := sound_of_no_firings rfl rfl
    regular := regular_fresh policy handlers
    accounted := {
      keys := fun hf => absurd hf hnone
      handled := fun hf => absurd hf hnone
      unclaimed := fun _ _ hf => absurd hf hnone
      failed := fun hf => absurd hf hnone }
    linked := fun _ _ hf => absurd hf hnone }

theorem chain_pairwise (q : Queue) (c : Nat) : (q.chain c).Pairwise (· < ·) :=
  List.pairwise_lt_range.filter _

/-- Nothing takes the place of the last firing of a chain that is left alone. -/
theorem Undisturbed.not_superseded (h : q.Undisturbed c) (hq : q.Proper) {before : List Nat}
    (hlast : q.chain c = before ++ [g]) (hf : q.firing? g = some f) (ho : f.origin = c) :
    ¬ q.Superseded g f.task.dedupId := by
  have hlinked := ho ▸ hq.linked g f hf
  obtain ⟨f₀, hf₀, -, htask⟩ := hlinked.first
  obtain ⟨rest, hchain, -⟩ := hlinked.links
  have hsorted := q.chain_pairwise c
  have hle : c ≤ g := by
    have hg : g ∈ c :: rest := by rw [← hchain, hlast]; simp
    rw [hchain] at hsorted
    rcases List.mem_cons.mp hg with rfl | hg
    · exact Nat.le_refl _
    · exact Nat.le_of_lt ((List.pairwise_cons.mp hsorted).1 g hg)
  rintro (hc | ⟨g', f', hlt, hf', hid⟩)
  · rw [h.isOpen] at hc
    cases hc
  · have horigin := h.alone hf₀ hf' (by omega) (hid.trans (congrArg Task.dedupId htask.symm))
    have hmem : g' ∈ q.chain c := mem_chain.mpr ⟨f', hf', horigin⟩
    rw [hlast] at hmem hsorted
    rcases List.mem_append.mp hmem with hmem | hmem
    · have := (List.pairwise_append.mp hsorted).2.2 g' hmem g (by simp)
      omega
    · have := List.mem_singleton.mp hmem
      omega

/-- When a chain that is left alone and keeps failing has come to rest, its last run was the last
attempt of the policy. -/
theorem Undisturbed.last_final (h : q.Undisturbed c) (hq : q.Proper) (hfails : q.FailsOnly c)
    (hrest : q.AtRest c) {before : List Nat} (hlast : q.chain c = before ++ [g])
    (hf : q.firing? g = some f) (ho : f.origin = c) :
    (q.attempt f).isFinal ∧ f.phase.hasStarted := by
  have hnot := h.not_superseded hq hlast hf ho
  have hclaimed : f.phase.hasClaimed ∨ f.phase.isUnclaimed := by
    by_contra hno
    rw [not_or, Bool.not_eq_true] at hno
    rcases hq.accounted.unclaimed g f hf hno.1 with ht | hs
    · obtain ⟨f', hf', -, hu⟩ := hq.sound.pending ht
      obtain rfl := Option.some.inj (hf.symm.trans hf')
      exact hno.2 hu
    · exact hnot hs
  obtain ⟨ending, hover⟩ := hrest g f hf ho
  cases ending with
  | replaced => simp [hover, Phase.hasClaimed, Phase.isUnclaimed] at hclaimed
  | overtaken => simp [hover, Phase.hasClaimed, Phase.isUnclaimed] at hclaimed
  | unhandled => exact absurd hover (hq.accounted.handled hf)
  | ran outcome retry =>
    obtain ⟨cause, rfl, hcause⟩ := hfails g f _ hf ho (by rw [hover]; rfl)
    exact ⟨(hq.accounted.failed hf hover hcause).resolve_right hnot, by rw [hover]; rfl⟩

theorem map_isFinal_range' {n : Nat} (hn : 1 ≤ n) :
    (List.range' 1 n).map (fun i => decide (n ≤ i)) = List.replicate (n - 1) false ++ [true] := by
  obtain ⟨k, rfl⟩ := Nat.exists_eq_add_of_le' hn
  rw [List.range'_1_concat, List.map_append, Nat.add_sub_cancel]
  congr 1
  · rw [List.eq_replicate_iff]
    refine ⟨by simp, fun b hb => ?_⟩
    obtain ⟨i, hi, rfl⟩ := List.mem_map.mp hb
    rw [List.mem_range'_1] at hi
    exact decide_eq_false (by omega)
  · simp [Nat.add_comm]

/-- A chain that is left alone and keeps failing has as many runs as the policy allows, and only the
last of them is told so. -/
theorem Undisturbed.runs_of_atRest (h : q.Undisturbed c) (hq : q.Proper) (hfails : q.FailsOnly c)
    (hrest : q.AtRest c) (hl : q.Linked c task) (hpos : 1 ≤ q.policy.maxAttempts) :
    (q.runs c).length = q.policy.maxAttempts ∧
      (q.runs c).map (fun g => (q.given? g).map (·.2.isFinal)) =
        List.replicate (q.policy.maxAttempts - 1) (some false) ++ [some true] := by
  obtain ⟨before, g, hlast⟩ := hl.exists_last
  have hg : g ∈ q.chain c := by simp [hlast]
  obtain ⟨f, hf, ho⟩ := mem_chain.mp hg
  obtain ⟨hfinal, hstarted⟩ := h.last_final hq hfails hrest hlast hf ho
  have hruns : q.runs c = q.chain c := by
    rw [hl.runs_eq hlast, hlast, if_pos]
    simp [phase?, hf, hstarted]
  have hlen : (q.chain c).length = q.policy.maxAttempts := by
    have hplace := hl.attempt_eq (i := before.length) (by rw [hlast]; simp) hf
    have hle := hl.length_le hpos
    rw [isFinal_attempt, decide_eq_true_eq] at hfinal
    rw [hlast, List.length_append, List.length_singleton] at hle ⊢
    omega
  refine ⟨hruns ▸ hlen, ?_⟩
  have hgiven := congrArg (List.map (Option.map (·.2.isFinal))) hl.given
  rw [List.map_map, List.map_map, hlen] at hgiven
  rw [hruns]
  refine hgiven.trans ?_
  have hflags := congrArg (List.map some) (map_isFinal_range' hpos)
  simpa [Function.comp_def, Attempt.isFinal] using hflags

end Queue
end ChatRelay.Timer
