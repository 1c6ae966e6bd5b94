import ChatRelay.Proofs.Timer.Handles
import Mathlib.Data.List.Induction

/-!
# Locks that are left behind

The lock of a dedup id goes when a firing tidies up and nobody else has a handle of it. So it stays
when two firings have both released it and each tidies up before the other one has dropped its
handle: neither removes it, and it is still in the table when all firings of the id are over. This
is the only way in which a lock is left behind, and the next firing of the id that has the only
handle when it tidies up takes it away.
-/

namespace ChatRelay.Timer

/-- A firing counts for its lock until it tidies up. -/
theorem Phase.Leads.engaged? {g lock : Nat} {e : Queue.Event} {p p' : Phase} (h : Leads g e p p')
    (hp : p.engaged? = some lock) (he : e ≠ .tidy g) : p'.engaged? = some lock := by
  cases h <;> simp_all [Phase.engaged?]

theorem Phase.engaged?_or_tidied {p : Phase} {lock : Nat} (h : p.handle? = some lock) :
    p.engaged? = some lock ∨ ∃ outcome, p = .tidied lock outcome := by
  cases p <;> simp_all [handle?, engaged?]

namespace Queue

variable {q : Queue} {e : Event} {g : Nat} {f : Firing} {id : String} {lock : Nat}

/-! ## Who takes a lock away -/

/-- Where nobody else has a handle of a lock, there are two: one's own and that of the table. -/
theorem Apart.handles_eq_two (h : q.Apart) (hf : q.firing? g = some f)
    (hh : f.phase.handle? = some lock) (hlock : Table.get? q.locks id = some lock)
    (hothers : ∀ k fk, k ≠ g → q.firing? k = some fk → fk.phase.handle? ≠ some lock) :
    q.handles lock = 2 := by
  have hfirings : q.firings.countP (fun f => f.phase.handle? = some lock) = 1 := by
    refine Nat.le_antisymm (countP_le_one fun i j a b ha hb hpa hpb => ?_) ?_
    · have hone {k : Nat} {fk : Firing} (hk : q.firings[k]? = some fk)
          (hhk : decide (fk.phase.handle? = some lock)) : k = g :=
        by_contra fun hne => hothers k fk hne hk (of_decide_eq_true hhk)
      exact (hone ha hpa).trans (hone hb hpb).symm
    · exact List.countP_pos_iff.mpr ⟨f, List.mem_of_getElem? hf, by simpa using hh⟩
  rw [handles, hfirings, h.countP_locks hlock]

/-- A firing that tidies up takes its lock away exactly if nobody else has a handle of it. -/
theorem Apart.removed_iff (h : q.Apart) (hs : q.Sound) {outcome : Except RelayError Unit}
    (hf : q.firing? g = some f) (hp : f.phase = .unlocked lock outcome) :
    Table.get? (q.tidy g).locks f.task.dedupId = none ↔
      ∀ k fk, k ≠ g → q.firing? k = some fk → fk.phase.handle? ≠ some lock := by
  have hlock : Table.get? q.locks f.task.dedupId = some lock :=
    hs.engaged hf (by rw [hp]; rfl)
  constructor
  · intro hnone
    have hgone : Table.get? (q.tidy g).locks f.task.dedupId ≠ some lock := by simp [hnone]
    obtain ⟨-, -, -, -, -, hothers⟩ := removed_by_tidy hlock hgone
    exact hothers
  · intro hothers
    have htwo : (q.setPhase g (.tidied lock outcome)).handles lock = 2 := by
      refine (h.tidied hf hp).handles_eq_two (firing?_setPhase_self hf _) rfl hlock ?_
      intro k fk hk hfk
      rw [firing?_setPhase, if_neg hk] at hfk
      exact hothers k fk hk hfk
    simp only [Queue.tidy, hf, hp, locks_setPhase, hlock, htwo, and_self, if_true,
      Table.get?_remove]

/-! ## How a lock is left behind -/

/-- A firing of the id waits for the lock, has it or has still to tidy up after it. -/
def Attended (q : Queue) (id : String) (lock : Nat) : Prop :=
  ∃ g f, q.firing? g = some f ∧ f.task.dedupId = id ∧ f.phase.engaged? = some lock

/-- A firing of the id is about to tidy up after the lock, and another one has done so already, and
has not dropped its handle yet. -/
def Crossing (q : Queue) (id : String) (lock g : Nat) : Prop :=
  ∃ f k fk outcome outcome', q.firing? g = some f ∧ f.task.dedupId = id ∧
    f.phase = .unlocked lock outcome ∧ q.firing? k = some fk ∧ fk.task.dedupId = id ∧
    fk.phase = .tidied lock outcome'

/-- Who counts for a lock does so until he tidies up. -/
theorem attended_step_of (hf : q.firing? g = some f) (hh : f.phase.engaged? = some lock)
    (he : e ≠ .tidy g) : (q.step e).Attended f.task.dedupId lock := by
  obtain ⟨p, hp, hl⟩ := (changes_step q e).follows hf
  refine ⟨g, _, hp, rfl, ?_⟩
  rcases hl with rfl | hl
  · exact hh
  · exact hl.engaged? hh he

/-- Where a lock is new in the table, the firing that has made it waits for it. -/
theorem attended_takeHandle (hnew : Table.get? q.locks id ≠ some lock)
    (hlock : Table.get? (q.takeHandle g).locks id = some lock) :
    (q.takeHandle g).Attended id lock := by
  unfold takeHandle at hlock ⊢
  split at hlock
  · next f hf =>
    split at hlock
    · exact absurd hlock hnew
    · next hp =>
      split at hlock
      · exact absurd hlock hnew
      · next hnone =>
        rw [locks_setPhase, Table.get?_put] at hlock
        split at hlock
        · next hid =>
          obtain rfl := Option.some.inj hlock
          simp only [if_neg hp]
          exact ⟨g, _, firing?_setPhase_self hf _, hid.symm, rfl⟩
        · exact absurd hlock hnew
  · exact absurd hlock hnew

/-- Only a firing that looks for its lock puts one into the table. -/
theorem get?_locks_of_step (he : ∀ g, e ≠ .takeHandle g)
    (h : Table.get? (q.step e).locks id = some lock) : Table.get? q.locks id = some lock := by
  by_cases ht : ∃ g, e = .tidy g
  · obtain ⟨g, rfl⟩ := ht
    simp only [step, tidy] at h
    split at h
    · split at h
      · split at h
        · rw [Table.get?_remove] at h
          split at h
          · cases h
          · exact h
        · exact h
      · exact h
    · exact h
  · rwa [(locks_step q he fun g hg => ht ⟨g, hg⟩).1] at h

/-- If a firing of the id tidies up and the lock stays, somebody attends to it or has still to drop
his handle. -/
theorem Apart.stays_tidy (h : q.Apart) (hs : q.Sound) (hf : q.firing? g = some f)
    (hh : f.phase.engaged? = some lock)
    (hlock : Table.get? (q.tidy g).locks f.task.dedupId = some lock) :
    (q.tidy g).Attended f.task.dedupId lock ∨ q.Crossing f.task.dedupId lock g := by
  by_cases hp : ∃ outcome, f.phase = .unlocked lock outcome
  · obtain ⟨outcome, hp⟩ := hp
    have hstays : ¬Table.get? (q.tidy g).locks f.task.dedupId = none := by simp [hlock]
    rw [h.removed_iff hs hf hp] at hstays
    push Not at hstays
    obtain ⟨k, fk, hkg, hfk, hhk⟩ := hstays
    have hid : fk.task.dedupId = f.task.dedupId :=
      h.single (.inl ⟨k, fk, hfk, rfl, hhk⟩) (.inl ⟨g, f, hf, rfl, Phase.handle?_of_engaged? hh⟩)
    rcases Phase.engaged?_or_tidied hhk with he | ⟨outcome', hp'⟩
    · exact .inl (hid ▸ attended_step_of (e := .tidy g) hfk he (by simpa using hkg.symm))
    · exact .inr ⟨f, k, fk, outcome, outcome', hf, rfl, hp, hfk, hid, hp'⟩
  · -- it is not yet at this step
    have hidle : q.tidy g = q := by
      unfold Queue.tidy
      rw [hf]
      dsimp only
      split
      · next own outcome hown =>
        rw [hown] at hh hp
        obtain rfl := Option.some.inj hh
        exact absurd ⟨outcome, rfl⟩ hp
      · rfl
    rw [hidle]
    exact .inl ⟨g, f, hf, rfl, hh⟩

/-- A lock stays in the table after an event without anybody attending to it only if this event
leaves it behind. -/
theorem Apart.attended_step (h : q.Apart) (hs : q.Sound)
    (hlock : Table.get? (q.step e).locks id = some lock)
    (hold : Table.get? q.locks id = some lock → q.Attended id lock) :
    (q.step e).Attended id lock ∨ ∃ g, e = .tidy g ∧ q.Crossing id lock g := by
  by_cases hq : Table.get? q.locks id = some lock
  · obtain ⟨g, f, hf, rfl, hh⟩ := hold hq
    by_cases he : e = .tidy g
    · subst he
      exact (h.stays_tidy hs hf hh hlock).imp_right fun hcross => ⟨g, rfl, hcross⟩
    · exact .inl (attended_step_of hf hh he)
  · by_cases he : ∃ g, e = .takeHandle g
    · obtain ⟨g, rfl⟩ := he
      exact .inl (attended_takeHandle hq hlock)
    · exact absurd (get?_locks_of_step (fun g hg => he ⟨g, hg⟩) hlock) hq

/-- Whatever has happened to a queue, a firing that tidies up takes its lock from the table exactly
if nobody else has a handle of it; and a lock in the table to which nobody attends any more was left
behind by two firings that met: one of them tidied up when the other one had done so too, and had
still to drop its handle. -/
theorem locks_left_by_meeting (policy : RetryPolicy) (handlers : List String) (es : List Event) :
    let q := (fresh policy handlers).run es
    (∀ g f lock outcome, q.firing? g = some f → f.phase = .unlocked lock outcome →
      (Table.get? (q.step (.tidy g)).locks f.task.dedupId = none ↔
        ∀ k fk, k ≠ g → q.firing? k = some fk → fk.phase.handle? ≠ some lock)) ∧
    ∀ id lock, Table.get? q.locks id = some lock → ¬q.Attended id lock →
      ∃ before g after, es = before ++ .tidy g :: after ∧
        ((fresh policy handlers).run before).Crossing id lock g := by
  have ha (es : List Event) : ((fresh policy handlers).run es).Apart :=
    (apart_of_no_firings rfl rfl).run es
  have hs (es : List Event) : ((fresh policy handlers).run es).Sound :=
    Sound.run (sound_of_no_firings rfl rfl) es
  intro q
  refine ⟨fun g f lock outcome hf hp => ?_, fun id lock hlock hno => ?_⟩
  · exact (ha es).removed_iff (hs es) hf hp
  · induction es using List.reverseRecOn with
    | nil => cases hlock
    | append_singleton es e ih =>
      by_cases hbefore : ∃ before g after, es = before ++ .tidy g :: after ∧
          ((fresh policy handlers).run before).Crossing id lock g
      · obtain ⟨before, g, after, rfl, hcross⟩ := hbefore
        exact ⟨before, g, after ++ [e], by simp, hcross⟩
      · -- as long as nobody has met, somebody attends to the lock
        have hold : Table.get? ((fresh policy handlers).run es).locks id = some lock →
            ((fresh policy handlers).run es).Attended id lock :=
          fun hlock => by_contra fun hno => hbefore (ih hlock hno)
        have hstep : q = ((fresh policy handlers).run es).step e := run_append ..
        rw [hstep] at hlock hno
        obtain ⟨g, rfl, hcross⟩ := ((ha es).attended_step (hs es) hlock hold).resolve_left hno
        exact ⟨es, g, [], rfl, hcross⟩

/-- Two firings of an id run one after the other; the first one is slow to drop its handle. -/
def parting : List Event :=
  [.schedule ⟨"k", .null, 0, "id"⟩, .wake 0, .claim 0, .takeHandle 0, .acquire 0,
    .schedule ⟨"k", .null, 0, "id"⟩, .wake 1, .claim 1, .takeHandle 1, .finish 0 (.ok ()),
    .unlock 0, .tidy 0, .acquire 1, .finish 1 (.ok ()), .unlock 1, .tidy 1, .dropHandle 0,
    .dropHandle 1, .settle 0 1, .settle 1 1]

/-- Both are over, and their lock is still there; a third one, which is alone, takes it away. -/
theorem parting_leaves_lock :
    let q := (fresh .none ["k"]).run parting
    q.firings.map (·.phase) = [.over (.ran (.ok ()) none), .over (.ran (.ok ()) none)] ∧
      Table.get? q.locks "id" = some 0 ∧
      Table.get? (q.run [.schedule ⟨"k", .null, 0, "id"⟩, .wake 2, .claim 2, .takeHandle 2,
        .acquire 2, .finish 2 (.ok ()), .unlock 2, .tidy 2]).locks "id" = none := by
  decide +kernel

end Queue
end ChatRelay.Timer
