import ChatRelay.Proofs.Timer.Soundness

/-!
# What pending timers stand for

The task of a pending timer is that of the last schedule or retry of its dedup id. A schedule takes
the place of whatever was pending, and a retry never does.
-/

namespace ChatRelay.Timer.Queue

/-- The task of the timer that is pending for a dedup id. -/
def due? (q : Queue) (id : String) : Option Task :=
  (Table.get? q.timers id).bind fun g => (q.firing? g).map (·.task)

variable {q q' : Queue} {e : Event} {task : Task} {id : String}

theorem due?_of_timers (h : Table.get? q.timers id = none) : q.due? id = none := by
  rw [due?, h]
  rfl

@[simp] theorem due?_setPhase (q : Queue) (g : Nat) (p : Phase) (id : String) :
    (q.setPhase g p).due? id = q.due? id := by
  simp only [due?, timers_setPhase, firing?_setPhase]
  refine congrArg _ (funext fun k => ?_)
  split
  · cases q.firing? k <;> rfl
  · rfl

theorem due?_arm (h : ∀ {g}, Table.get? q.timers id = some g → g < q.firings.length) (task : Task)
    (delayMillis attempt : Nat) (origin : Option Nat) :
    (q.arm task delayMillis attempt origin).due? id =
      if id = task.dedupId then some task else q.due? id := by
  rw [due?, get?_timers_arm]
  by_cases hid : id = task.dedupId
  · rw [if_pos hid, if_pos hid, Option.bind_some, firing?_arm, if_pos rfl]
    rfl
  · rw [if_neg hid, if_neg hid, due?]
    cases hg : Table.get? q.timers id with
    | none => rfl
    | some g =>
      have hlt := h hg
      rw [Option.bind_some, Option.bind_some, firing?_arm, if_neg (by omega), firing?_displace]
      split
      · cases q.firing? g <;> simp
      · rfl

theorem Sound.lt_length (h : q.Sound) {g : Nat} (hg : Table.get? q.timers id = some g) :
    g < q.firings.length := by
  obtain ⟨f, hf, -⟩ := h.pending hg
  exact firing?_lt hf

theorem due?_schedule (h : q.Sound) (hc : q.closed = false) (hk : task.key ∈ q.handlers)
    (id : String) :
    (q.schedule task).1.due? id = if id = task.dedupId then some task else q.due? id := by
  rw [schedule_eq hc hk]
  exact due?_arm h.lt_length ..

/-- So is one that is tried again; but then none was pending before. -/
theorem due?_retry (h : q.Sound) {g : Nat} (hr : q.retried? g = some task) (jitter : Rat)
    (id : String) :
    (q.settle g jitter).due? id = (if id = task.dedupId then some task else q.due? id) ∧
      q.due? task.dedupId = none := by
  obtain ⟨f, outcome, -, -, -, -, hn, hsettle⟩ := retried?_eq_some hr
  constructor
  · rw [hsettle, due?_arm (fun hg => by simpa using h.lt_length hg), due?_setPhase]
  · refine due?_of_timers ?_
    simpa [isPending, Table.has] using hn

/-- A firing that settles leaves what is pending. -/
theorem due?_settle (h : q.Sound) (hd : q.due? id = some task) (g : Nat) (jitter : Rat) :
    (q.settle g jitter).due? id = some task := by
  unfold settle
  split
  · next f hf =>
    split
    · next outcome hp =>
      split
      · next hc =>
        have hr : q.retried? g = some f.task := by simp only [retried?, hf, hp, hc, if_true]
        obtain ⟨hdue, hnone⟩ := due?_retry h hr jitter id
        have hne : id ≠ f.task.dedupId := by
          rintro rfl
          rw [hnone] at hd
          cases hd
        simp only [settle, hf, hp, hc, if_true, if_neg hne] at hdue
        exact hdue.trans hd
      · rw [due?_setPhase]
        exact hd
    · exact hd
  · exact hd

/-- Other events leave what is pending, or leave nothing pending. -/
theorem Changes.due? (h : Changes q e q') (hs : ∀ task, e ≠ .schedule task)
    (hr : ∀ g jitter, e = .settle g jitter → q.retried? g = none) (id : String) :
    q'.due? id = q.due? id ∨ q'.due? id = none := by
  cases h with
  | armed task hc hk => exact absurd rfl (hs task)
  | @retried g f outcome jitter hf hp hw hn =>
    have hretry := hr g jitter rfl
    simp [retried?, hf, hp, hw, hn] at hretry
  | @moved _ g f p timers locks nextLock hf hl ht =>
    rw [due?_setPhase]
    rcases ht with rfl | ⟨hmine, rfl, -⟩
    · exact .inl rfl
    · by_cases hid : id = f.task.dedupId
      · refine .inr (due?_of_timers ?_)
        rw [Table.get?_remove, if_pos hid]
      · refine .inl ?_
        simp only [Queue.due?, Table.get?_remove, if_neg hid]
        rfl
  | shutdown => exact .inr rfl
  | _ => exact .inl rfl

/-- Once the queue is shut down nothing is pending. -/
theorem Changes.timers_of_closed (h : Changes q e q') (hq : q.closed → q.timers = [])
    (hc : q'.closed) : q'.timers = [] := by
  cases h with
  | idle => exact hq hc
  | waited millis => exact hq hc
  | @moved _ g f p timers locks nextLock hf hl ht =>
    have hnone := hq hc
    rcases ht with rfl | ⟨-, rfl, -⟩
    · exact hnone
    · simp [hnone, Table.remove]
  | armed task hopen hk => simp [hopen] at hc
  | retried jitter hf hp hw hn =>
    rw [closed_arm, closed_setPhase] at hc
    unfold wantsRetry at hw
    split at hw <;> simp_all
  | shutdown => rfl

/-- Every firing has the task of one before it, unless its task has just been scheduled. -/
theorem Changes.task_of (h : Changes q e q') {g : Nat} {f : Firing} (hf : q'.firing? g = some f) :
    (∃ g₀ f₀, q.firing? g₀ = some f₀ ∧ f₀.task = f.task) ∨ e = .schedule f.task := by
  cases hold : q.firing? g with
  | none =>
    cases h.arises hold hf with
    | scheduled hs => exact .inr rfl
    | retried jitter hk htask hs => exact .inl ⟨_, _, hk, htask.symm⟩
  | some f₀ =>
    obtain ⟨p, hp, -⟩ := h.follows hold
    obtain rfl := Option.some.inj (hp.symm.trans hf)
    exact .inl ⟨g, f₀, hold, rfl⟩

end ChatRelay.Timer.Queue
