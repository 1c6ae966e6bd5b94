import ChatRelay.Proofs.Timer.Steps

/-!
# Tables that tell the truth

The table of timers names, for each dedup id, a firing of that id that has not been claimed. The
table of locks names the lock of every firing that waits for one, holds one, or has not tidied up
after it; and nobody shares a lock that is taken. Both hold of every queue that has come about by
events, so that the handlers of one dedup id never run side by side.
-/

namespace ChatRelay.Timer.Queue

structure Sound (q : Queue) : Prop where
  pending : ∀ {id : String} {g : Nat}, Table.get? q.timers id = some g →
    ∃ f, q.firing? g = some f ∧ f.task.dedupId = id ∧ f.phase.isUnclaimed
  engaged : ∀ {g : Nat} {f : Firing} {lock : Nat}, q.firing? g = some f →
    f.phase.engaged? = some lock → Table.get? q.locks f.task.dedupId = some lock
  exclusive : ∀ {g g' : Nat} {f f' : Firing} {lock : Nat}, q.firing? g = some f →
    q.firing? g' = some f' → f.phase.lock? = some lock → f'.phase.lock? = some lock → g = g'

theorem sound_of_no_firings {q : Queue} (hf : q.firings = []) (ht : q.timers = []) : q.Sound where
  pending h := by simp [ht] at h
  engaged h := by simp [firing?, hf] at h
  exclusive h := by simp [firing?, hf] at h

theorem two_le_countP {α : Type} {p : α → Bool} {l : List α} {i j : Nat} {a b : α} (hij : i ≠ j)
    (ha : l[i]? = some a) (hb : l[j]? = some b) (hpa : p a) (hpb : p b) : 2 ≤ l.countP p := by
  induction l generalizing i j with
  | nil => simp at ha
  | cons c l ih =>
    have hone : ∀ {k d}, l[k]? = some d → p d → 1 ≤ l.countP p := fun hk hd =>
      List.countP_pos_iff.mpr ⟨_, List.mem_of_getElem? hk, hd⟩
    rw [List.countP_cons]
    cases i with
    | zero =>
      cases j with
      | zero => exact absurd rfl hij
      | succ j =>
        obtain rfl : c = a := by simpa using ha
        have := hone (by simpa using hb) hpb
        simp only [hpa, if_true]
        omega
    | succ i =>
      cases j with
      | zero =>
        obtain rfl : c = b := by simpa using hb
        have := hone (by simpa using ha) hpa
        simp only [hpb, if_true]
        omega
      | succ j =>
        have := ih (i := i) (j := j) (by omega) (by simpa using ha) (by simpa using hb)
        omega

theorem isLocked_eq_false {q : Queue} {lock : Nat} (h : q.isLocked lock = false) {g : Nat}
    {f : Firing} (hf : q.firing? g = some f) : f.phase.lock? ≠ some lock := by
  intro hl
  have hmem : f ∈ q.firings := List.mem_of_getElem? hf
  simp only [isLocked, List.any_eq_false, decide_eq_true_eq] at h
  exact h f hmem hl

namespace Sound
variable {q : Queue}

theorem not_pending (h : q.Sound) {g : Nat} {f : Firing} (hf : q.firing? g = some f)
    (hu : f.phase.isUnclaimed = false) (id : String) : Table.get? q.timers id ≠ some g := by
  intro ht
  obtain ⟨f', hf', -, hu'⟩ := h.pending ht
  obtain rfl : f = f' := Option.some.inj (hf.symm.trans hf')
  rw [hu] at hu'
  cases hu'

/-- The handlers of one dedup id run one at a time. -/
theorem eq_of_lock? (h : q.Sound) {g g' : Nat} {f f' : Firing} (hf : q.firing? g = some f)
    (hf' : q.firing? g' = some f') (hid : f.task.dedupId = f'.task.dedupId)
    (hl : f.phase.lock?.isSome) (hl' : f'.phase.lock?.isSome) : g = g' := by
  obtain ⟨lock, hlock⟩ := Option.isSome_iff_exists.mp hl
  obtain ⟨lock', hlock'⟩ := Option.isSome_iff_exists.mp hl'
  have h1 := h.engaged hf (Phase.engaged?_of_lock? hlock)
  have h2 := h.engaged hf' (Phase.engaged?_of_lock? hlock')
  rw [hid, h2] at h1
  obtain rfl := Option.some.inj h1
  exact h.exclusive hf hf' hlock hlock'

theorem setPhase (h : q.Sound) {g : Nat} {f : Firing} {p : Phase} (hf : q.firing? g = some f)
    (hu : p.isUnclaimed ∨ ∀ id, Table.get? q.timers id ≠ some g)
    (he : ∀ lock, p.engaged? = some lock → Table.get? q.locks f.task.dedupId = some lock)
    (hl : ∀ lock, p.lock? = some lock → f.phase.lock? = some lock ∨ q.isLocked lock = false) :
    (q.setPhase g p).Sound := by
  have hg : (q.setPhase g p).firing? g = some { f with phase := p } := by
    rw [firing?_setPhase, if_pos rfl, hf]
    rfl
  have hother : ∀ {k}, k ≠ g → (q.setPhase g p).firing? k = q.firing? k := fun hk => by
    rw [firing?_setPhase, if_neg hk]
  -- whoever else has the lock would have had it before
  have hfree : ∀ {k fk lock}, k ≠ g → q.firing? k = some fk → fk.phase.lock? = some lock →
      p.lock? ≠ some lock := by
    intro k fk lock hk hfk hlock hp
    rcases hl lock hp with hmine | hnone
    · exact hk (h.exclusive hfk hf hlock hmine)
    · exact isLocked_eq_false hnone hfk hlock
  constructor
  · intro id k ht
    by_cases hk : k = g
    · subst hk
      obtain ⟨f', hf', hid, -⟩ := h.pending ht
      obtain rfl : f = f' := Option.some.inj (hf.symm.trans hf')
      exact ⟨_, hg, hid, hu.resolve_right fun hno => hno id ht⟩
    · rw [hother hk]
      exact h.pending ht
  · intro k fk lock hfk hlock
    by_cases hk : k = g
    · subst hk
      obtain rfl := Option.some.inj (hg.symm.trans hfk)
      exact he lock hlock
    · rw [hother hk] at hfk
      exact h.engaged hfk hlock
  · intro k k' fk fk' lock hfk hfk' hlock hlock'
    by_cases hk : k = g <;> by_cases hk' : k' = g
    · rw [hk, hk']
    · subst hk
      obtain rfl := Option.some.inj (hg.symm.trans hfk)
      rw [hother hk'] at hfk'
      exact absurd hlock (hfree hk' hfk' hlock')
    · subst hk'
      obtain rfl := Option.some.inj (hg.symm.trans hfk')
      rw [hother hk] at hfk
      exact absurd hlock' (hfree hk hfk hlock)
    · rw [hother hk] at hfk
      rw [hother hk'] at hfk'
      exact h.exclusive hfk hfk' hlock hlock'

theorem removeTimer (h : q.Sound) (id : String) :
    Sound { q with timers := Table.remove q.timers id } where
  pending ht := by
    rw [Table.get?_remove] at ht
    split at ht
    · cases ht
    · exact h.pending ht
  engaged := h.engaged
  exclusive := h.exclusive

/-- Firings are called off, and those that were pending are no longer so. -/
theorem callOff {q' : Queue} (h : q.Sound)
    (hf : ∀ g, q'.firing? g = q.firing? g ∨ q'.firing? g = (q.firing? g).map Queue.callOff)
    (ht : ∀ id g, Table.get? q'.timers id = some g →
      Table.get? q.timers id = some g ∧ q'.firing? g = q.firing? g)
    (hl : q'.locks = q.locks) : q'.Sound := by
  have hback : ∀ {g f'}, q'.firing? g = some f' → ∃ f, q.firing? g = some f ∧ f'.task = f.task ∧
      f'.phase.engaged? = f.phase.engaged? ∧ f'.phase.lock? = f.phase.lock? := by
    intro g f' hf'
    rcases hf g with hg | hg
    · exact ⟨f', hg ▸ hf', rfl, rfl, rfl⟩
    · rw [hg] at hf'
      obtain ⟨f, hfg, rfl⟩ := Option.map_eq_some_iff.mp hf'
      exact ⟨f, hfg, by simp⟩
  constructor
  · intro id g hg
    obtain ⟨hold, heq⟩ := ht id g hg
    rw [heq]
    exact h.pending hold
  · intro g f' lock hf' hlock
    obtain ⟨f, hfg, htask, he, -⟩ := hback hf'
    rw [hl, htask]
    exact h.engaged hfg (he ▸ hlock)
  · intro g k f' fk' lock hf' hfk' hlock hlock'
    obtain ⟨f, hfg, -, -, he⟩ := hback hf'
    obtain ⟨fk, hfk, -, -, hek⟩ := hback hfk'
    exact h.exclusive hfg hfk (he ▸ hlock) (hek ▸ hlock')

theorem arm (h : q.Sound) (task : Task) (delayMillis attempt : Nat) (origin : Option Nat) :
    (q.arm task delayMillis attempt origin).Sound := by
  have hold : ∀ {g f'}, (q.arm task delayMillis attempt origin).firing? g = some f' →
      f'.phase = .sleeping ∨ ∃ f, q.firing? g = some f ∧ f'.task = f.task ∧
        f'.phase.engaged? = f.phase.engaged? ∧ f'.phase.lock? = f.phase.lock? := by
    intro g f' hf'
    rw [firing?_arm] at hf'
    split at hf'
    · obtain rfl := Option.some.inj hf'
      exact .inl rfl
    · rw [firing?_displace] at hf'
      split at hf'
      · obtain ⟨f, hf, rfl⟩ := Option.map_eq_some_iff.mp hf'
        exact .inr ⟨f, hf, by simp⟩
      · exact .inr ⟨f', hf', rfl, rfl, rfl⟩
  constructor
  · intro id g ht
    rw [get?_timers_arm] at ht
    rw [firing?_arm]
    split at ht
    · next hid =>
      obtain rfl := Option.some.inj ht
      exact ⟨_, if_pos rfl, hid.symm, rfl⟩
    · next hid =>
      obtain ⟨f, hf, hfid, hu⟩ := h.pending ht
      have hlt := firing?_lt hf
      refine ⟨f, ?_, hfid, hu⟩
      rw [if_neg (by omega), firing?_displace, if_neg, hf]
      -- the firing that is called off has the id of the task
      intro hdis
      obtain ⟨f', hf', hfid', -⟩ := h.pending hdis
      obtain rfl : f = f' := Option.some.inj (hf.symm.trans hf')
      exact hid (hfid.symm.trans hfid')
  · intro g f' lock hf' hlock
    rcases hold hf' with hs | ⟨f, hf, htask, he, -⟩
    · rw [hs] at hlock
      cases hlock
    · rw [locks_arm, htask]
      exact h.engaged hf (he ▸ hlock)
  · intro g k f' fk' lock hf' hfk' hlock hlock'
    rcases hold hf' with hs | ⟨f, hf, -, -, he⟩
    · rw [hs] at hlock
      cases hlock
    · rcases hold hfk' with hs | ⟨fk, hfk, -, -, hek⟩
      · rw [hs] at hlock'
        cases hlock'
      · exact h.exclusive hf hfk (he ▸ hlock) (hek ▸ hlock')

/-- Two firings that hold handles of a lock besides that of the table make three. -/
theorem handles_ne_two {g k : Nat} {f fk : Firing} {lock : Nat} {id : String} (hgk : g ≠ k)
    (hf : q.firing? g = some f) (hfk : q.firing? k = some fk) (hh : f.phase.handle? = some lock)
    (hhk : fk.phase.handle? = some lock) (ht : Table.get? q.locks id = some lock) :
    q.handles lock ≠ 2 := by
  have hfirings : 2 ≤ q.firings.countP fun f => f.phase.handle? = some lock :=
    two_le_countP hgk hf hfk (by simpa using hh) (by simpa using hhk)
  have htable : 1 ≤ q.locks.countP (·.2 = lock) := by
    obtain ⟨p, hp, rfl⟩ := Option.map_eq_some_iff.mp ht
    exact List.countP_pos_iff.mpr ⟨p, List.mem_of_find?_eq_some hp, by simp⟩
  unfold handles
  omega

/-- A lock goes from the table that nobody else counts for. -/
theorem removeLock (h : q.Sound) {g : Nat} {f : Firing} {lock : Nat} (hf : q.firing? g = some f)
    (hh : f.phase.handle? = some lock) (he : f.phase.engaged? = none)
    (ht : Table.get? q.locks f.task.dedupId = some lock) (hn : q.handles lock = 2) :
    Sound { q with locks := Table.remove q.locks f.task.dedupId } where
  pending := h.pending
  engaged {k fk lock'} hfk hlock := by
    have hk := h.engaged hfk hlock
    rw [Table.get?_remove, if_neg, hk]
    intro hid
    rw [hid, ht] at hk
    obtain rfl := Option.some.inj hk
    by_cases hgk : g = k
    · subst hgk
      obtain rfl : f = fk := Option.some.inj (hf.symm.trans hfk)
      rw [he] at hlock
      cases hlock
    · exact handles_ne_two hgk hf hfk hh (Phase.handle?_of_engaged? hlock) ht hn
  exclusive := h.exclusive

/-- A new lock stands for an id for which nobody counts. -/
theorem putLock (h : q.Sound) {id : String} {lock next : Nat}
    (hn : Table.get? q.locks id = none) :
    Sound { q with locks := Table.put q.locks id lock, nextLock := next } where
  pending := h.pending
  engaged {g f lock'} hf hlock := by
    have hk := h.engaged hf hlock
    rw [Table.get?_put, if_neg, hk]
    intro hid
    rw [hid, hn] at hk
    cases hk
  exclusive := h.exclusive

theorem claim (h : q.Sound) (g : Nat) : (q.claim g).Sound := by
  unfold Queue.claim
  split
  · next f hf =>
    split
    · exact h
    · split
      · next hno =>
        refine h.setPhase hf (.inr fun id hid => hno ?_) (by simp [Phase.engaged?])
          (by simp [Phase.lock?])
        obtain ⟨f', hf', rfl, -⟩ := h.pending hid
        obtain rfl : f = f' := Option.some.inj (hf.symm.trans hf')
        exact hid
      · next hmine =>
        have hgone : ∀ id, Table.get? (Table.remove q.timers f.task.dedupId) id ≠ some g := by
          intro id hid
          rw [Table.get?_remove] at hid
          split at hid
          · cases hid
          · next hne =>
            obtain ⟨f', hf', rfl, -⟩ := h.pending hid
            obtain rfl : f = f' := Option.some.inj (hf.symm.trans hf')
            exact hne rfl
        dsimp only
        split <;>
          exact (h.removeTimer _).setPhase hf (.inr hgone) (by simp [Phase.engaged?])
            (by simp [Phase.lock?])
  · exact h

theorem takeHandle (h : q.Sound) (g : Nat) : (q.takeHandle g).Sound := by
  unfold Queue.takeHandle
  split
  · next f hf =>
    split
    · exact h
    · next hp =>
      have hp : f.phase = .claimed := not_not.mp hp
      have hno := h.not_pending hf (by rw [hp]; rfl)
      split
      · next lock hlock =>
        exact h.setPhase hf (.inr hno) (by simp [Phase.engaged?, hlock]) (by simp [Phase.lock?])
      · next hnone =>
        refine (h.putLock hnone).setPhase hf (.inr hno) ?_ (by simp [Phase.lock?])
        rintro lock hlock
        obtain rfl := Option.some.inj hlock
        exact (Table.get?_put ..).trans (if_pos rfl)
  · exact h

theorem acquire (h : q.Sound) (g : Nat) : (q.acquire g).Sound := by
  unfold Queue.acquire
  split
  · next lock hp =>
    obtain ⟨f, hf, hp⟩ := Option.map_eq_some_iff.mp hp
    split
    · exact h
    · next hfree =>
      refine h.setPhase hf (.inr (h.not_pending hf (by rw [hp]; rfl))) ?_ ?_
      · intro lock' hlock
        exact h.engaged hf (hp ▸ hlock)
      · intro lock' hlock
        obtain rfl := Option.some.inj hlock
        exact .inr (by simpa using hfree)
  · exact h

theorem tidy (h : q.Sound) (g : Nat) : (q.tidy g).Sound := by
  unfold Queue.tidy
  split
  · next f hf =>
    split
    · next lock o hp =>
      have ht : (q.setPhase g (.tidied lock o)).Sound :=
        h.setPhase hf (.inr (h.not_pending hf (by rw [hp]; rfl))) (by simp [Phase.engaged?])
          (by simp [Phase.lock?])
      have hg : (q.setPhase g (.tidied lock o)).firing? g =
          some { f with phase := .tidied lock o } := by
        rw [firing?_setPhase, if_pos rfl, hf]
        rfl
      dsimp only
      split
      · next hlast =>
        have hremoved := ht.removeLock hg rfl rfl hlast.1 hlast.2
        exact hremoved
      · exact ht
    · exact h
  · exact h

theorem settle (h : q.Sound) (g : Nat) (jitter : Rat) : (q.settle g jitter).Sound := by
  unfold Queue.settle
  split
  · next f hf =>
    split
    · next o hp =>
      have hover : ∀ retry, (q.setPhase g (.over (.ran o retry))).Sound := fun retry =>
        h.setPhase hf (.inr (h.not_pending hf (by rw [hp]; rfl))) (by simp [Phase.engaged?])
          (by simp [Phase.lock?])
      split
      · exact (hover _).arm ..
      · exact hover none
    · exact h
  · exact h

theorem shutdown (h : q.Sound) : q.shutdown.Sound := by
  refine h.callOff (fun g => .inr ?_) (fun id g hg => by simp [Queue.shutdown] at hg) rfl
  exact List.getElem?_map ..

theorem step (h : q.Sound) (e : Event) : (q.step e).Sound := by
  cases e with
  | schedule task =>
    simp only [Queue.step, schedule]
    split
    · exact h
    · split
      · exact h
      · exact h.arm ..
  | wait millis => exact ⟨h.pending, h.engaged, h.exclusive⟩
  | wake g =>
    simp only [Queue.step, wake]
    split
    · next f hf =>
      split
      · exact h.setPhase hf (.inl rfl) (by simp [Phase.engaged?]) (by simp [Phase.lock?])
      · exact h
    · exact h
  | claim g => exact h.claim g
  | takeHandle g => exact h.takeHandle g
  | acquire g => exact h.acquire g
  | finish g o =>
    simp only [Queue.step, finish]
    split
    · next lock hp =>
      obtain ⟨f, hf, hp⟩ := Option.map_eq_some_iff.mp hp
      refine h.setPhase hf (.inr (h.not_pending hf (by rw [hp]; rfl))) ?_ ?_
      · intro lock' hlock
        exact h.engaged hf (hp ▸ hlock)
      · intro lock' hlock
        exact .inl (hp ▸ hlock)
    · exact h
  | unlock g =>
    simp only [Queue.step, unlock]
    split
    · next lock o hp =>
      obtain ⟨f, hf, hp⟩ := Option.map_eq_some_iff.mp hp
      refine h.setPhase hf (.inr (h.not_pending hf (by rw [hp]; rfl))) ?_ (by simp [Phase.lock?])
      intro lock' hlock
      exact h.engaged hf (hp ▸ hlock)
    · exact h
  | tidy g => exact h.tidy g
  | dropHandle g =>
    simp only [Queue.step, dropHandle]
    split
    · next lock o hp =>
      obtain ⟨f, hf, hp⟩ := Option.map_eq_some_iff.mp hp
      exact h.setPhase hf (.inr (h.not_pending hf (by rw [hp]; rfl))) (by simp [Phase.engaged?])
        (by simp [Phase.lock?])
    · exact h
  | settle g jitter => exact h.settle g jitter
  | shutdown => exact h.shutdown

end Sound

end ChatRelay.Timer.Queue
