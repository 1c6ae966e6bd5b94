import ChatRelay.Proofs.Timer.Locking
import Mathlib.Data.List.Nodup

/-!
# Whose lock it is

A lock is made for one dedup id, and nobody of another id ever has a handle of it. So the firings of
an id share their lock with nobody else, although all locks are numbered together.
-/

namespace ChatRelay.Timer

/-- Only a firing that looks for its lock comes to have a handle. -/
theorem Phase.Leads.handle?_of {g : Nat} {e : Queue.Event} {p p' : Phase} (h : Leads g e p p')
    {lock : Nat} (hp' : p'.handle? = some lock) :
    p.handle? = some lock ∨ e = .takeHandle g := by
  cases h <;> simp_all [Phase.handle?]

namespace Queue

/-- Whether a firing of this id has a handle of the lock, or the table has it under the id. -/
def Holds (q : Queue) (lock : Nat) (id : String) : Prop :=
  (∃ g f, q.firing? g = some f ∧ f.task.dedupId = id ∧ f.phase.handle? = some lock) ∨
    Table.get? q.locks id = some lock

structure Apart (q : Queue) : Prop where
  keys : (q.locks.map (·.1)).Nodup
  fresh : ∀ {lock : Nat} {id : String}, q.Holds lock id → lock < q.nextLock
  single : ∀ {lock : Nat} {id id' : String}, q.Holds lock id → q.Holds lock id' → id = id'

variable {q : Queue} {g : Nat} {f : Firing}

theorem holds_setPhase (hf : q.firing? g = some f) {p : Phase} {lock : Nat} {id : String}
    (h : (q.setPhase g p).Holds lock id) :
    q.Holds lock id ∨ p.handle? = some lock ∧ f.task.dedupId = id := by
  rcases h with ⟨k, fk, hk, hid, hh⟩ | h
  · rw [firing?_setPhase] at hk
    split at hk
    · next hkg =>
      rw [hkg, hf] at hk
      obtain rfl := Option.some.inj hk
      exact .inr ⟨hh, hid⟩
    · exact .inl (.inl ⟨k, fk, hk, hid, hh⟩)
  · exact .inl (.inr h)

/-- A step that neither looks for a lock nor tidies up changes nobody's locks. -/
theorem holds_step {e : Event} (hh : ∀ g, e ≠ .takeHandle g) (ht : ∀ g, e ≠ .tidy g) {lock : Nat}
    {id : String} (h : (q.step e).Holds lock id) : q.Holds lock id := by
  rcases h with ⟨k, fk, hk, hid, hhandle⟩ | h
  · cases hold : q.firing? k with
    | none =>
      rw [((changes_step q e).arises hold hk).sleeping] at hhandle
      cases hhandle
    | some f =>
      obtain ⟨p, hp, hl⟩ := (changes_step q e).follows hold
      obtain rfl := Option.some.inj (hp.symm.trans hk)
      refine .inl ⟨k, f, hold, hid, ?_⟩
      rcases hl with rfl | hl
      · exact hhandle
      · exact (hl.handle?_of hhandle).resolve_right (hh k)
  · rw [(locks_step q hh ht).1] at h
    exact .inr h

theorem Apart.of_holds {q' : Queue} (h : q.Apart) (hkeys : (q'.locks.map (·.1)).Nodup)
    (hnext : q.nextLock ≤ q'.nextLock)
    (hh : ∀ {lock id}, q'.Holds lock id → q.Holds lock id) : q'.Apart where
  keys := hkeys
  fresh hl := Nat.lt_of_lt_of_le (h.fresh (hh hl)) hnext
  single hl hl' := h.single (hh hl) (hh hl')

theorem Apart.setPhase (h : q.Apart) (hf : q.firing? g = some f) {p : Phase}
    (hp : ∀ {lock}, p.handle? = some lock → q.Holds lock f.task.dedupId) :
    (q.setPhase g p).Apart := by
  refine h.of_holds h.keys (Nat.le_refl _) fun {lock id} hl => ?_
  rcases holds_setPhase hf hl with hold | ⟨hown, rfl⟩
  · exact hold
  · exact hp hown

theorem Apart.removeLock (h : q.Apart) (id : String) :
    Apart { q with locks := Table.remove q.locks id } := by
  refine h.of_holds (Table.nodup_keys_remove h.keys _) (Nat.le_refl _) fun {lock other} hl => ?_
  rcases hl with hfiring | htable
  · exact .inl hfiring
  · refine .inr ?_
    rw [Table.get?_remove] at htable
    split at htable
    · cases htable
    · exact htable

theorem Apart.takeHandle (h : q.Apart) (g : Nat) : (q.takeHandle g).Apart := by
  unfold Queue.takeHandle
  split
  · next f hf =>
    split
    · exact h
    · split
      · next lock hlock =>
        refine h.setPhase hf fun hown => ?_
        obtain rfl := Option.some.inj hown
        exact .inr hlock
      · next hnone =>
        -- the new lock is the next one, of which nobody has a handle yet
        let q₁ : Queue := { q with
          locks := Table.put q.locks f.task.dedupId q.nextLock, nextLock := q.nextLock + 1 }
        have hf₁ : q₁.firing? g = some f := hf
        have hcases : ∀ {lock id}, (q₁.setPhase g (.waiting q.nextLock)).Holds lock id →
            q.Holds lock id ∨ lock = q.nextLock ∧ id = f.task.dedupId := by
          intro lock id hl
          rcases holds_setPhase hf₁ hl with hold | ⟨hown, hid⟩
          · rcases hold with hfiring | htable
            · exact .inl (.inl hfiring)
            · change Table.get? (Table.put q.locks _ q.nextLock) id = some lock at htable
              rw [Table.get?_put] at htable
              split at htable
              · next hid => exact .inr ⟨(Option.some.inj htable).symm, hid⟩
              · exact .inl (.inr htable)
          · exact .inr ⟨(Option.some.inj hown).symm, hid.symm⟩
        refine ⟨Table.nodup_keys_put h.keys .., fun {lock id} hl => ?_,
          fun {lock id id'} hl hl' => ?_⟩
        · change lock < q.nextLock + 1
          rcases hcases hl with hold | ⟨rfl, -⟩
          · exact Nat.lt_succ_of_lt (h.fresh hold)
          · exact Nat.lt_succ_self _
        · rcases hcases hl with hold | ⟨rfl, rfl⟩
          · rcases hcases hl' with hold' | ⟨rfl, -⟩
            · exact h.single hold hold'
            · exact absurd (h.fresh hold) (Nat.lt_irrefl _)
          · rcases hcases hl' with hold' | ⟨-, rfl⟩
            · exact absurd (h.fresh hold') (Nat.lt_irrefl _)
            · rfl
  · exact h

theorem Apart.tidied (h : q.Apart) (hf : q.firing? g = some f) {lock : Nat}
    {o : Except RelayError Unit} (hp : f.phase = .unlocked lock o) :
    (q.setPhase g (.tidied lock o)).Apart := by
  refine h.setPhase hf fun hown => ?_
  obtain rfl := Option.some.inj hown
  exact .inl ⟨g, f, hf, rfl, by rw [hp]; rfl⟩

theorem Apart.tidy (h : q.Apart) (g : Nat) : (q.tidy g).Apart := by
  unfold Queue.tidy
  split
  · next f hf =>
    split
    · next lock outcome hp =>
      dsimp only
      split
      · exact (h.tidied hf hp).removeLock _
      · exact h.tidied hf hp
    · exact h
  · exact h

theorem Apart.step (h : q.Apart) (e : Event) : (q.step e).Apart := by
  by_cases hh : ∃ g, e = .takeHandle g
  · obtain ⟨g, rfl⟩ := hh
    exact h.takeHandle g
  · by_cases ht : ∃ g, e = .tidy g
    · obtain ⟨g, rfl⟩ := ht
      exact h.tidy g
    · have hh : ∀ g, e ≠ .takeHandle g := fun g he => hh ⟨g, he⟩
      have ht : ∀ g, e ≠ .tidy g := fun g he => ht ⟨g, he⟩
      obtain ⟨hlocks, hnext⟩ := locks_step q hh ht
      exact h.of_holds (hlocks ▸ h.keys) (Nat.le_of_eq hnext.symm) (holds_step hh ht)

/-- A lock stands in the table once. -/
theorem Apart.countP_locks (h : q.Apart) {id : String} {lock : Nat}
    (hlock : Table.get? q.locks id = some lock) : q.locks.countP (·.2 = lock) = 1 := by
  have hmem := (Table.get?_eq_some_iff h.keys).mp hlock
  rw [← List.count_eq_one_of_mem h.keys (List.mem_map_of_mem hmem), List.count, List.countP_map]
  refine List.countP_congr fun ⟨k, own⟩ hown => ?_
  have hget := (Table.get?_eq_some_iff h.keys).mpr hown
  simp only [Function.comp_apply, decide_eq_true_eq, beq_iff_eq]
  constructor
  · rintro rfl
    exact h.single (.inr hget) (.inr hlock)
  · rintro rfl
    exact Option.some.inj (hget.symm.trans hlock)

theorem Apart.run (h : q.Apart) (es : List Event) : (q.run es).Apart := by
  induction es generalizing q with
  | nil => exact h
  | cons e es ih => exact ih (h.step e)

theorem apart_of_no_firings (hf : q.firings = []) (hl : q.locks = []) : q.Apart := by
  have hnobody {lock : Nat} {id : String} : ¬q.Holds lock id := by simp [Holds, firing?, hf, hl]
  exact ⟨by simp [hl], fun h => absurd h hnobody, fun h _ => absurd h hnobody⟩

end Queue
end ChatRelay.Timer
