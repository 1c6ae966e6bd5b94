import ChatRelay.Proofs.Users.Seats

/-!
# What others do to a queue

All ids share one list of firings, one table of timers and one of locks. Still an event that
concerns other ids changes none of the firings of an id, nor what either table has for it.
-/

namespace ChatRelay.Timer.Queue

variable {q q' : Queue} {id : String} {g : Nat} {f : Firing}

/-- Nothing that those of an id have is changed. -/
structure Spares (id : String) (q q' : Queue) : Prop where
  policy : q'.policy = q.policy
  handlers : q'.handlers = q.handlers
  closed : q'.closed = q.closed
  now : q'.now = q.now
  firings : Places.Same (isOf id) q.firings q'.firings
  timer : Table.get? q'.timers id = Table.get? q.timers id
  lock : Table.get? q'.locks id = Table.get? q.locks id

namespace Spares

theorem refl (id : String) (q : Queue) : Spares id q q :=
  ⟨rfl, rfl, rfl, rfl, fun _ _ _ => Iff.rfl, rfl, rfl⟩

theorem trans {q'' : Queue} (h : Spares id q q') (h' : Spares id q' q'') : Spares id q q'' where
  policy := h'.policy.trans h.policy
  handlers := h'.handlers.trans h.handlers
  closed := h'.closed.trans h.closed
  now := h'.now.trans h.now
  firings i f hf := (h'.firings i f hf).trans (h.firings i f hf)
  timer := h'.timer.trans h.timer
  lock := h'.lock.trans h.lock

theorem place (h : Spares id q q') (g : Nat) : q'.place id g = q.place id g := h.firings.rank g

theorem part (h : Spares id q q') : q'.part id = q.part id := by
  have hcode : q'.lockCode id = q.lockCode id := by
    funext lock
    rw [lockCode, lockCode, h.lock]
  have hplace : q'.place id = q.place id := funext h.place
  simp only [Queue.part, h.policy, h.handlers, h.closed, h.now, hcode, hplace, h.timer, h.lock,
    h.firings.share]

end Spares

theorem spares_setPhase (hf : q.firing? g = some f) (hid : f.task.dedupId ≠ id) (p : Phase) :
    Spares id q (q.setPhase g p) := by
  refine ⟨rfl, rfl, rfl, rfl, fun k fk hof => ?_, rfl, rfl⟩
  change (q.setPhase g p).firing? k = some fk ↔ q.firing? k = some fk
  by_cases hk : k = g
  · -- neither before nor after is it a firing of the id
    subst hk
    rw [firing?_setPhase_self hf, hf]
    constructor <;> (intro h; obtain rfl := Option.some.inj h; exact absurd (isOf_iff.mp hof) hid)
  · rw [firing?_setPhase, if_neg hk]

theorem spares_removeTimer {other : String} (hid : other ≠ id) :
    Spares id q { q with timers := Table.remove q.timers other } :=
  ⟨rfl, rfl, rfl, rfl, fun _ _ _ => Iff.rfl,
    (Table.get?_remove ..).trans (if_neg (Ne.symm hid)), rfl⟩

theorem spares_removeLock {other : String} (hid : other ≠ id) :
    Spares id q { q with locks := Table.remove q.locks other } :=
  ⟨rfl, rfl, rfl, rfl, fun _ _ _ => Iff.rfl, rfl,
    (Table.get?_remove ..).trans (if_neg (Ne.symm hid))⟩

theorem spares_putLock {other : String} (hid : other ≠ id) (lock next : Nat) :
    Spares id q { q with locks := Table.put q.locks other lock, nextLock := next } :=
  ⟨rfl, rfl, rfl, rfl, fun _ _ _ => Iff.rfl, rfl,
    (Table.get?_put ..).trans (if_neg (Ne.symm hid))⟩

theorem spares_arm {task : Task} (hid : task.dedupId ≠ id) (ho : q.Owned task.dedupId)
    (delayMillis attempt : Nat) (origin : Option Nat) :
    Spares id q (q.arm task delayMillis attempt origin) where
  policy := policy_arm ..
  handlers := handlers_arm ..
  closed := closed_arm ..
  now := now_arm ..
  firings k fk hof := by
    have hne : fk.task.dedupId ≠ task.dedupId := fun h => hid (h.symm.trans (isOf_iff.mp hof))
    change (q.arm task delayMillis attempt origin).firing? k = some fk ↔ q.firing? k = some fk
    rw [firing?_arm]
    split
    · next hk =>
      constructor
      · intro h
        obtain rfl := Option.some.inj h
        exact absurd rfl hne
      · intro h
        exact absurd (firing?_lt h) (by omega)
    · rw [firing?_displace]
      split
      · next hdis =>
        obtain ⟨f, hf, hfid⟩ := ho k hdis
        rw [hf]
        constructor
        · intro h
          obtain rfl := Option.some.inj h
          exact absurd ((congrArg _ (callOff_task f)).trans hfid) hne
        · intro h
          obtain rfl := Option.some.inj h
          exact absurd hfid hne
      · rfl
  timer := (get?_timers_arm ..).trans (if_neg (Ne.symm hid))
  lock := congrArg (Table.get? · id) (locks_arm ..)

theorem spares_tidy (hf : q.firing? g = some f) (hid : f.task.dedupId ≠ id) :
    Spares id q (q.tidy g) := by
  simp only [tidy, hf]
  split
  · split
    · exact (spares_setPhase hf hid _).trans (spares_removeLock hid)
    · exact spares_setPhase hf hid _
  · exact .refl id q

theorem spares_settle (hs : q.Sound) (hf : q.firing? g = some f) (hid : f.task.dedupId ≠ id)
    (jitter : Rat) : Spares id q (q.settle g jitter) := by
  simp only [settle, hf]
  split
  · split
    · exact (spares_setPhase hf hid _).trans (spares_arm hid ((hs.owned _).setPhase g _) ..)
    · exact spares_setPhase hf hid _
  · exact .refl id q

theorem spares_claim (hf : q.firing? g = some f) (hid : f.task.dedupId ≠ id) :
    Spares id q (q.claim g) := by
  have hf' : firing? { q with timers := Table.remove q.timers f.task.dedupId } g = some f := hf
  simp only [claim, hf]
  split
  · exact .refl id q
  · split
    · exact spares_setPhase hf hid _
    · split <;> exact (spares_removeTimer hid).trans (spares_setPhase hf' hid _)

theorem spares_takeHandle (hf : q.firing? g = some f) (hid : f.task.dedupId ≠ id) :
    Spares id q (q.takeHandle g) := by
  simp only [takeHandle, hf]
  split
  · exact .refl id q
  · split
    · exact spares_setPhase hf hid _
    · have hf' : firing? { q with
          locks := Table.put q.locks f.task.dedupId q.nextLock
          nextLock := q.nextLock + 1 } g = some f := hf
      exact (spares_putLock hid ..).trans (spares_setPhase hf' hid _)

/-- Whatever others do leaves what the id has as it is. -/
theorem spares_step (hs : q.Sound) {e : Event} (he : e.concerns q id = false) :
    Spares id q (q.step e) := by
  have hother : ∀ {g f}, q.firing? g = some f → (q.firing? g).any (isOf id) = false →
      f.task.dedupId ≠ id := by
    intro g f hf hnot hid
    rw [hf, Option.any_some, isOf_iff.mpr hid] at hnot
    cases hnot
  -- a firing that is not there has no events
  have hmove : ∀ {g p}, (q.firing? g).any (isOf id) = false → Spares id q (q.setPhase g p) := by
    intro g p hnot
    cases hf : q.firing? g with
    | none =>
      have hsame : q.firings.modify g (fun f => { f with phase := p }) = q.firings := by
        rw [List.modify_eq_set_getElem?, show q.firings[g]? = none from hf]
        rfl
      rw [setPhase, hsame]
      exact .refl id q
    | some f => exact spares_setPhase hf (hother hf hnot) p
  cases e with
  | schedule task =>
    simp only [step, schedule]
    repeat' split
    · exact .refl id q
    · exact .refl id q
    · exact spares_arm (of_decide_eq_false he) (hs.owned _) ..
  | wait millis => cases he
  | shutdown => cases he
  | wake g =>
    simp only [step, wake]
    repeat' split
    all_goals first | exact .refl id q | exact hmove he
  | claim g =>
    cases hf : q.firing? g with
    | none => simpa only [step, claim, hf] using .refl id q
    | some f => exact spares_claim hf (hother hf he)
  | takeHandle g =>
    cases hf : q.firing? g with
    | none => simpa only [step, takeHandle, hf] using .refl id q
    | some f => exact spares_takeHandle hf (hother hf he)
  | acquire g =>
    simp only [step, acquire]
    repeat' split
    all_goals first | exact .refl id q | exact hmove he
  | finish g o =>
    simp only [step, finish]
    split
    · exact hmove he
    · exact .refl id q
  | unlock g =>
    simp only [step, unlock]
    split
    · exact hmove he
    · exact .refl id q
  | tidy g =>
    cases hf : q.firing? g with
    | none => simpa only [step, tidy, hf] using .refl id q
    | some f => exact spares_tidy hf (hother hf he)
  | dropHandle g =>
    simp only [step, dropHandle]
    split
    · exact hmove he
    · exact .refl id q
  | settle g jitter =>
    cases hf : q.firing? g with
    | none => simpa only [step, settle, hf] using .refl id q
    | some f => exact spares_settle hs hf (hother hf he) jitter

end ChatRelay.Timer.Queue
