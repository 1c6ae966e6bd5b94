import ChatRelay.Proofs.Timer.Claiming

/-!
# One run at a time

The handlers of one dedup id run one at a time, although their lock comes and goes: a firing takes
the lock from the table only when nobody else has a handle of it, and as long as somebody waits for
it, holds it or has still to tidy up after it, whoever else comes gets a handle of the same lock.
-/

namespace ChatRelay.Timer.Queue

theorem countP_le_one {α : Type} {p : α → Bool} {l : List α}
    (h : ∀ (i j : Nat) (a b : α), l[i]? = some a → l[j]? = some b → p a → p b → i = j) :
    l.countP p ≤ 1 := by
  induction l with
  | nil => exact Nat.zero_le 1
  | cons c l ih =>
    have hrest := ih fun i j a b ha hb hpa hpb =>
      Nat.succ.inj (h (i + 1) (j + 1) a b (by simpa using ha) (by simpa using hb) hpa hpb)
    rw [List.countP_cons]
    cases hc : p c with
    | false => simpa using hrest
    | true =>
      have hnone : l.countP p = 0 := by
        rw [List.countP_eq_zero]
        intro b hb hpb
        obtain ⟨j, hj⟩ := List.mem_iff_getElem?.mp hb
        exact absurd (h 0 (j + 1) c b rfl (by simpa using hj) hc hpb) (by omega)
      simp [hnone]

theorem Sound.running_le_one {q : Queue} (h : q.Sound) (id : String) : q.running id ≤ 1 := by
  refine countP_le_one fun g g' f f' hf hf' hp hp' => ?_
  simp only [Bool.and_eq_true, decide_eq_true_eq] at hp hp'
  have hlock : ∀ {p : Phase}, p.isRunning → p.lock?.isSome := by
    intro p hr
    cases p <;> simp_all [Phase.isRunning, Phase.lock?]
  exact h.eq_of_lock? hf hf' (hp.1.trans hp'.1.symm) (hlock hp.2) (hlock hp'.2)

/-! ## How locks come and go -/

section
variable {q : Queue} {id : String} {lock : Nat}

/-- A firing that looks for its lock changes no entry that is there. -/
theorem get?_locks_takeHandle (h : Table.get? q.locks id = some lock) (g : Nat) :
    Table.get? (q.takeHandle g).locks id = some lock := by
  unfold takeHandle
  split
  · next f hf =>
    split
    · exact h
    · split
      · exact h
      · next hnone =>
        rw [locks_setPhase, Table.get?_put, if_neg, h]
        rintro rfl
        rw [hnone] at h
        cases h
  · exact h

/-- The lock of an id leaves the table by a firing of the id that tidies up, and that is the only
one to have a handle of it. -/
theorem removed_by_tidy (h : Table.get? q.locks id = some lock) {g : Nat}
    (h' : Table.get? (q.tidy g).locks id ≠ some lock) :
    ∃ f outcome, q.firing? g = some f ∧ f.task.dedupId = id ∧ f.phase = .unlocked lock outcome ∧
      ∀ g' f', g' ≠ g → q.firing? g' = some f' → f'.phase.handle? ≠ some lock := by
  unfold tidy at h'
  split at h'
  · next f hf =>
    split at h'
    · next own outcome hp =>
      dsimp only at h'
      split at h'
      · next hlast =>
        rw [Table.get?_remove] at h'
        split at h'
        · next hid =>
          obtain rfl : own = lock := by
            have hown := hlast.1
            rw [locks_setPhase, ← hid, h] at hown
            exact (Option.some.inj hown).symm
          refine ⟨f, outcome, hf, hid.symm, hp, fun g' f' hne hf' hh => ?_⟩
          have hother : (q.setPhase g (.tidied own outcome)).firing? g' = some f' := by
            rw [firing?_setPhase, if_neg hne, hf']
          exact Sound.handles_ne_two (Ne.symm hne) (firing?_setPhase_self hf _) hother rfl hh
            hlast.1 hlast.2
        · exact absurd h h'
      · exact absurd h h'
    · exact absurd h h'
  · exact absurd h h'

/-- Only a firing that looks for its lock, or tidies up, changes the table. -/
theorem locks_step (q : Queue) {e : Event} (hh : ∀ g, e ≠ .takeHandle g) (ht : ∀ g, e ≠ .tidy g) :
    (q.step e).locks = q.locks ∧ (q.step e).nextLock = q.nextLock := by
  cases e with
  | takeHandle g => exact absurd rfl (hh g)
  | tidy g => exact absurd rfl (ht g)
  | schedule task =>
    simp only [step, schedule]
    split
    · exact ⟨rfl, rfl⟩
    · split
      · exact ⟨rfl, rfl⟩
      · exact ⟨locks_arm .., nextLock_arm ..⟩
  | wake g =>
    simp only [step, wake]
    repeat' split
    all_goals exact ⟨rfl, rfl⟩
  | claim g =>
    simp only [step, claim]
    repeat' split
    all_goals exact ⟨rfl, rfl⟩
  | acquire g =>
    rcases acquire_cases q g with heq | ⟨f, own, -, -, -, heq⟩
    · rw [step, heq]
      exact ⟨rfl, rfl⟩
    · rw [step, heq]
      exact ⟨rfl, rfl⟩
  | finish g outcome =>
    simp only [step, finish]
    split <;> exact ⟨rfl, rfl⟩
  | unlock g =>
    simp only [step, unlock]
    split <;> exact ⟨rfl, rfl⟩
  | dropHandle g =>
    simp only [step, dropHandle]
    split <;> exact ⟨rfl, rfl⟩
  | settle g jitter =>
    simp only [step, settle]
    split
    · split
      · split
        · exact ⟨locks_arm .., nextLock_arm ..⟩
        · exact ⟨rfl, rfl⟩
      · exact ⟨rfl, rfl⟩
    · exact ⟨rfl, rfl⟩
  | _ => exact ⟨rfl, rfl⟩

/-- Nothing else takes a lock from the table. -/
theorem removed_by_step (h : Table.get? q.locks id = some lock) {e : Event}
    (h' : Table.get? (q.step e).locks id ≠ some lock) :
    ∃ g, e = .tidy g ∧ Table.get? (q.tidy g).locks id ≠ some lock := by
  by_cases hh : ∃ g, e = .takeHandle g
  · obtain ⟨g, rfl⟩ := hh
    exact absurd (get?_locks_takeHandle h g) h'
  · by_cases ht : ∃ g, e = .tidy g
    · obtain ⟨g, rfl⟩ := ht
      exact ⟨g, rfl, h'⟩
    · have hsame := (locks_step q (fun g he => hh ⟨g, he⟩) fun g he => ht ⟨g, he⟩).1
      rw [hsame] at h'
      exact absurd h h'

/-- Whoever comes while somebody is concerned with the lock of the id gets a handle of that lock. -/
theorem Sound.takeHandle_shares (h : q.Sound) {g g' : Nat} {f f' : Firing}
    (hf : q.firing? g = some f) (hp : f.phase = .claimed) (hf' : q.firing? g' = some f')
    (hid : f'.task.dedupId = f.task.dedupId) (he : f'.phase.engaged? = some lock) :
    q.takeHandle g = q.setPhase g (.waiting lock) := by
  have hlock := h.engaged hf' he
  rw [hid] at hlock
  simp only [Queue.takeHandle, hf, hp, ne_eq, not_true_eq_false, if_false, hlock]

end

/-- Whatever has happened to a queue, of the handlers of one dedup id at most one is at work. The
lock of an id leaves the table only by a firing of the id that has released it, is tidying up and is
the only one to have a handle of it; and a firing that looks for its lock while another one of its
id waits for a lock, holds it or has not tidied up yet gets a handle of the same one. -/
theorem one_run_at_a_time (policy : RetryPolicy) (handlers : List String) (es : List Event) :
    let q := (fresh policy handlers).run es
    (∀ id, q.running id ≤ 1) ∧
    (∀ e id lock, Table.get? q.locks id = some lock →
      Table.get? (q.step e).locks id ≠ some lock →
      ∃ g f outcome, e = .tidy g ∧ q.firing? g = some f ∧ f.task.dedupId = id ∧
        f.phase = .unlocked lock outcome ∧
        ∀ g' f', g' ≠ g → q.firing? g' = some f' → f'.phase.handle? ≠ some lock) ∧
    ∀ g g' f f' lock, q.firing? g = some f → f.phase = .claimed → q.firing? g' = some f' →
      f'.task.dedupId = f.task.dedupId → f'.phase.engaged? = some lock →
      (q.step (.takeHandle g)).phase? g = some (.waiting lock) ∧
        (q.step (.takeHandle g)).locks = q.locks := by
  intro q
  have hs : q.Sound := Sound.run (sound_of_no_firings rfl rfl) es
  refine ⟨hs.running_le_one, fun e id lock h h' => ?_, fun g g' f f' lock hf hp hf' hid he => ?_⟩
  · obtain ⟨g, rfl, hgone⟩ := removed_by_step h h'
    obtain ⟨f, outcome, hf, hid, hp, hothers⟩ := removed_by_tidy h hgone
    exact ⟨g, f, outcome, rfl, hf, hid, hp, hothers⟩
  · rw [step, hs.takeHandle_shares hf hp hf' hid he, phase?, firing?_setPhase_self hf]
    exact ⟨rfl, rfl⟩

/-- A task runs, another one of its id has taken a handle of the lock meanwhile, and the first is
about to tidy up while a third one has claimed its timer. -/
def handingOver : List Event :=
  [.schedule ⟨"k", .null, 0, "id"⟩, .wake 0, .claim 0, .takeHandle 0, .acquire 0,
    .schedule ⟨"k", .null, 0, "id"⟩, .wake 1, .claim 1, .takeHandle 1, .finish 0 (.ok ()),
    .unlock 0, .schedule ⟨"k", .null, 0, "id"⟩, .wake 2, .claim 2, .acquire 1]

theorem handingOver_shares_lock :
    let q := (fresh .none ["k"]).run handingOver
    q.running "id" = 1 ∧ Table.get? (q.step (.tidy 0)).locks "id" = some 0 ∧
      (q.step (.takeHandle 2)).phase? 2 = some (.waiting 0) := by
  obtain ⟨-, -, hshares⟩ := one_run_at_a_time .none ["k"] handingOver
  exact ⟨by decide +kernel, by decide +kernel,
    (hshares 2 1 _ _ 0 rfl rfl rfl rfl rfl).1⟩

end ChatRelay.Timer.Queue
