import ChatRelay.Proofs.Timer.Claiming

/-!
# What a dedup id has in the queue

To those who wait for the task of a dedup id it matters when its pending timer is due, and which
firings have claimed their timers and wait for their handlers. Few events change that: a task that
is armed sets the timer, a claim takes it, and a handler that starts ends the wait.
-/

namespace ChatRelay.Timer

/-- Whether the timer is claimed and the handler has not started. -/
def Phase.isStarting : Phase → Bool
  | .claimed | .waiting _ => true
  | _ => false

/-- Whether an event is a step of a firing that neither claims a timer, nor starts a handler, nor
settles. -/
def Queue.Event.isMinor : Queue.Event → Bool
  | .wake _ | .takeHandle _ | .finish _ _ | .unlock _ | .tidy _ | .dropHandle _ => true
  | _ => false

theorem Phase.Leads.isStarting {g : Nat} {e : Queue.Event} {p p' : Phase} (h : Leads g e p p')
    (he : e.isMinor) : p'.isStarting = p.isStarting := by
  cases h <;> simp_all [Queue.Event.isMinor, Phase.isStarting]

namespace Queue

/-- When the pending timer of a dedup id is due. -/
def alarm? (q : Queue) (id : String) : Option Nat :=
  (Table.get? q.timers id).bind fun g => (q.firing? g).map (·.due)

/-- The firings of a dedup id that are to start their handlers next. -/
def Starting (q : Queue) (id : String) (g : Nat) : Prop :=
  ∃ f, q.firing? g = some f ∧ f.task.dedupId = id ∧ f.phase.isStarting

structure Leaves (id : String) (q q' : Queue) : Prop where
  alarm : q'.alarm? id = q.alarm? id
  starting : q'.Starting id = q.Starting id
  now : q'.now = q.now

variable {q q' : Queue} {e : Event} {g : Nat} {f : Firing} {id : String}

theorem Leaves.refl (id : String) (q : Queue) : Leaves id q q := ⟨rfl, rfl, rfl⟩

theorem Leaves.trans {q'' : Queue} (h : Leaves id q q') (h' : Leaves id q' q'') : Leaves id q q'' :=
  ⟨h'.alarm.trans h.alarm, h'.starting.trans h.starting, h'.now.trans h.now⟩

/-- A pending timer is that of a firing that has not claimed it. -/
theorem of_mem_alarm? (h : q.Sound) {t : Nat} (ht : t ∈ q.alarm? id) :
    ∃ f ∈ q.firings, f.task.dedupId = id ∧ f.phase.isUnclaimed ∧ f.due = t := by
  obtain ⟨g, hg, hdue⟩ := Option.bind_eq_some_iff.mp ht
  obtain ⟨f, hf, rfl⟩ := Option.map_eq_some_iff.mp hdue
  obtain ⟨f', hf', hid, hp⟩ := h.pending hg
  obtain rfl := Option.some.inj (hf.symm.trans hf')
  exact ⟨f, List.mem_of_getElem? hf, hid, hp, rfl⟩

@[simp] theorem callOff_due (f : Firing) : (callOff f).due = f.due := by
  unfold callOff
  split <;> rfl

theorem callOff_isStarting (f : Firing) : (callOff f).phase.isStarting = f.phase.isStarting := by
  rcases callOff_phase f with h | ⟨hs, h⟩
  · rw [h]
  · rw [h, hs]
    rfl

theorem alarm?_setPhase (q : Queue) (g : Nat) (p : Phase) (id : String) :
    (q.setPhase g p).alarm? id = q.alarm? id := by
  simp only [alarm?, timers_setPhase, firing?_setPhase]
  refine congrArg _ (funext fun k => ?_)
  split
  · cases q.firing? k <;> rfl
  · rfl

theorem starting_setPhase (hf : q.firing? g = some f) (p : Phase) (k : Nat) :
    (q.setPhase g p).Starting id k ↔
      if k = g then f.task.dedupId = id ∧ p.isStarting else q.Starting id k := by
  by_cases hk : k = g
  · subst hk
    simp [Starting, firing?_setPhase_self hf]
  · simp [Starting, firing?_setPhase, hk]

/-- A firing moves on that is no nearer to its handler, or is none of this id. -/
theorem leaves_setPhase (hf : q.firing? g = some f) {p : Phase}
    (h : f.task.dedupId = id → p.isStarting = f.phase.isStarting) :
    Leaves id q (q.setPhase g p) := by
  refine ⟨alarm?_setPhase .., funext fun k => propext ?_, rfl⟩
  rw [starting_setPhase hf]
  split
  · next hk =>
    subst hk
    simp only [Starting, hf, Option.some.injEq, exists_eq_left']
    exact and_congr_right fun hid => by rw [h hid]
  · rfl

theorem alarm?_arm (h : ∀ {g}, Table.get? q.timers id = some g → g < q.firings.length) (task : Task)
    (delayMillis attempt : Nat) (origin : Option Nat) :
    (q.arm task delayMillis attempt origin).alarm? id =
      if id = task.dedupId then some (q.now + delayMillis) else q.alarm? id := by
  rw [alarm?, get?_timers_arm]
  by_cases hid : id = task.dedupId
  · rw [if_pos hid, if_pos hid, Option.bind_some, firing?_arm, if_pos rfl]
    simp [armed, now_displace]
  · rw [if_neg hid, if_neg hid, alarm?]
    cases hg : Table.get? q.timers id with
    | none => rfl
    | some g =>
      have hlt := h hg
      rw [Option.bind_some, Option.bind_some, firing?_arm, if_neg (by omega), firing?_displace]
      split
      · cases q.firing? g <;> simp
      · rfl

/-- A firing that is armed sleeps, and one that is called off slept. -/
theorem starting_arm (q : Queue) (task : Task) (delayMillis attempt : Nat) (origin : Option Nat)
    (id : String) : (q.arm task delayMillis attempt origin).Starting id = q.Starting id := by
  refine funext fun k => propext ?_
  rw [Starting, firing?_arm]
  by_cases hk : k = q.firings.length
  · have hnone : q.firing? k = none := List.getElem?_eq_none (by omega)
    simp [hk, Starting, armed, Phase.isStarting, hk ▸ hnone]
  · rw [if_neg hk, firing?_displace]
    split
    · cases hf : q.firing? k <;> simp [Starting, hf, callOff_isStarting]
    · rfl

theorem leaves_arm (h : q.Sound) {task : Task} (hid : id ≠ task.dedupId)
    (delayMillis attempt : Nat) (origin : Option Nat) :
    Leaves id q (q.arm task delayMillis attempt origin) :=
  ⟨(alarm?_arm h.lt_length ..).trans (if_neg hid), starting_arm .., now_arm ..⟩

/-- A task that is scheduled is none of other ids. -/
theorem leaves_schedule (h : q.Sound) {task : Task} (hid : id ≠ task.dedupId) :
    Leaves id q (q.schedule task).1 := by
  unfold schedule
  split
  · exact .refl id q
  · split
    · exact .refl id q
    · exact leaves_arm h hid ..

/-! ## The events of a firing -/

/-- Only a claim takes a timer from the table. -/
theorem Changes.leaves (h : Changes q e q') (he : e.isMinor)
    (hk : ∀ {g f}, q.firing? g = some f → f.task.key ∈ q.handlers) (id : String) :
    Leaves id q q' := by
  cases h with
  | idle => exact .refl id q
  | @moved _ g f p timers locks nextLock hf hl ht =>
    obtain rfl : timers = q.timers := by
      refine ht.resolve_right fun hclaimed => ?_
      rw [hclaimed.2.2 (hk hf)] at hl
      generalize f.phase = p₀ at hl
      cases hl
      cases he
    have hf' : Queue.firing? { q with timers := q.timers, locks, nextLock } g = some f := hf
    have hleaves : Leaves id _ (Queue.setPhase _ g p) :=
      leaves_setPhase hf' fun _ => hl.isStarting he
    exact ⟨hleaves.alarm, hleaves.starting, rfl⟩
  | _ => cases he

/-- A firing that is not tried again leaves everything, and so does one of another id. -/
theorem leaves_settle (h : q.Sound) (g : Nat) (jitter : Rat)
    (hok : ∀ {f outcome}, q.firing? g = some f → f.task.dedupId = id →
      f.phase = .settling outcome → outcome = .ok ()) :
    Leaves id q (q.settle g jitter) := by
  unfold settle
  split
  · next f hf =>
    split
    · next outcome hp =>
      have hset : ∀ retry, Leaves id q (q.setPhase g (.over (.ran outcome retry))) := fun retry =>
        leaves_setPhase hf fun _ => by rw [hp]; rfl
      split
      · next hc =>
        have hid : id ≠ f.task.dedupId := by
          rintro rfl
          obtain rfl := hok hf rfl hp
          cases hc
        refine (hset _).trans (leaves_arm ?_ hid ..)
        exact h.setPhase hf (.inr (h.not_pending hf (by rw [hp]; rfl))) (by simp [Phase.engaged?])
          (by simp [Phase.lock?])
      · exact hset none
    · exact .refl id q
  · exact .refl id q

/-- A firing claims the timer of a dedup id, and is to start its handler next. -/
structure Takes (id : String) (g : Nat) (q q' : Queue) : Prop where
  due : ∃ t, q.alarm? id = some t ∧ t ≤ q.now
  alarm : q'.alarm? id = none
  starting : ∀ k, q'.Starting id k ↔ q.Starting id k ∨ k = g
  now : q'.now = q.now

/-- A claim takes the timer of one id at most. -/
theorem claim_cases (hr : q.Regular)
    (hk : ∀ {g f}, q.firing? g = some f → f.task.key ∈ q.handlers) (id : String) (g : Nat) :
    Leaves id q (q.claim g) ∨ Takes id g q (q.claim g) := by
  unfold claim
  split
  · next f hf =>
    split
    · exact .inl (.refl id q)
    · next hp =>
      have hp : f.phase = .awake := not_not.mp hp
      split
      · exact .inl (leaves_setPhase hf fun _ => by rw [hp]; rfl)
      · next hmine =>
        have hmine := not_not.mp hmine
        dsimp only
        rw [if_pos (hk hf)]
        let q₁ : Queue := { q with timers := Table.remove q.timers f.task.dedupId }
        have hf₁ : q₁.firing? g = some f := hf
        by_cases hid : id = f.task.dedupId
        · subst hid
          refine .inr ⟨⟨f.due, ?_, hr.due hf (by rw [hp]; rfl)⟩, ?_, fun k => ?_, rfl⟩
          · simp [alarm?, hmine, hf]
          · refine (alarm?_setPhase q₁ ..).trans ?_
            simp [alarm?, q₁, Table.get?_remove]
          · refine (starting_setPhase hf₁ .claimed k).trans ?_
            by_cases hkg : k = g
            · simp [hkg, Phase.isStarting]
            · rw [if_neg hkg, or_iff_left hkg]
              rfl
        · have hleaves : Leaves id q₁ (q₁.setPhase g .claimed) :=
            leaves_setPhase hf₁ fun hid' => absurd hid'.symm hid
          refine .inl ⟨hleaves.alarm.trans ?_, hleaves.starting, rfl⟩
          simp only [alarm?, q₁, Table.get?_remove, if_neg hid]
          rfl
  · exact .inl (.refl id q)

theorem starting_running (hf : q.firing? g = some f) (lock k : Nat) :
    (q.setPhase g (.running lock)).Starting id k ↔ q.Starting id k ∧ k ≠ g := by
  rw [starting_setPhase hf]
  by_cases hk : k = g <;> simp [hk, Phase.isStarting]

end Queue
end ChatRelay.Timer
