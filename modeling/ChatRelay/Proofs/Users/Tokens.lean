import ChatRelay.Proofs.Relay.Leasing

/-!
# What a user has of the leases

Leases of all users are numbered together. What matters to a user of a lease is whether it has been
cancelled and whether it is their live one, and `Leases.part` keeps no more than that.
-/

namespace ChatRelay.Leases

/-- What stands for a lease: whether it has been cancelled, and whether it is the live one. -/
def code (l : Leases) (user : String) (lease : Nat) : Nat :=
  (if l.isCancelled lease then 2 else 0) + if Table.get? l.live user = some lease then 1 else 0

def part (l : Leases) (user : String) : Leases where
  issued := 4
  live := (Table.get? l.live user).toList.map fun lease => (user, l.code user lease)
  cancelled := [2, 3]

variable {l : Leases} {user : String} {lease : Nat}

theorem code_lt (l : Leases) (user : String) (lease : Nat) : l.code user lease < 4 := by
  unfold code
  split <;> split <;> decide

theorem isCancelled_part : (l.part user).isCancelled (l.code user lease) = l.isCancelled lease := by
  unfold code
  cases hc : l.isCancelled lease <;> by_cases hl : Table.get? l.live user = some lease <;>
    simp [hl, isCancelled, part]

theorem get?_live_part :
    Table.get? (l.part user).live user = (Table.get? l.live user).map (l.code user) := by
  unfold part
  cases Table.get? l.live user <;> simp [Table.get?_cons]

/-- There is nobody else in the part. -/
theorem eq_of_live_part {other : String} {c : Nat}
    (h : Table.get? (l.part user).live other = some c) : other = user := by
  unfold part at h
  cases hl : Table.get? l.live user with
  | none => simp [hl] at h
  | some own =>
    by_cases hu : user = other
    · exact hu.symm
    · simp [hl, Table.get?_cons, hu] at h

/-- A lease of which as much is known as of the live one is the live one. -/
theorem eq_of_code {own : Nat} (hown : Table.get? l.live user = some own)
    (h : l.code user lease = l.code user own) : lease = own := by
  unfold code at h
  by_cases hl : Table.get? l.live user = some lease
  · exact Option.some.inj (hl.symm.trans hown)
  · rw [if_pos hown, if_neg hl] at h
    exfalso
    split at h <;> split at h <;> omega

theorem live_part : Table.get? (l.part user).live user = some (l.code user lease) ↔
    Table.get? l.live user = some lease := by
  rw [get?_live_part, Option.map_eq_some_iff]
  constructor
  · rintro ⟨own, hown, h⟩
    rwa [eq_of_code hown h.symm]
  · intro h
    exact ⟨lease, h, rfl⟩

theorem nodup_part (l : Leases) (user : String) : ((l.part user).live.map (·.1)).Nodup := by
  unfold part
  cases Table.get? l.live user <;> simp

theorem code_eq_of {l l' : Leases} {user : String} {lease lease' : Nat}
    (hc : l.isCancelled lease ↔ l'.isCancelled lease')
    (hl : Table.get? l.live user = some lease ↔ Table.get? l'.live user = some lease') :
    l.code user lease = l'.code user lease' := by
  simp only [code, hc, hl]

theorem code_part : (l.part user).code user (l.code user lease) = l.code user lease :=
  code_eq_of (by rw [isCancelled_part]) live_part

theorem part_eq_of {l l' : Leases} (h : (Table.get? l.live user).map (l.code user) =
    (Table.get? l'.live user).map (l'.code user)) : l.part user = l'.part user := by
  have hlive : ∀ k : Leases,
      ((Table.get? k.live user).toList.map fun lease => (user, k.code user lease)) =
        ((Table.get? k.live user).map (k.code user)).toList.map fun c => (user, c) := by
    intro k
    cases Table.get? k.live user <;> rfl
  rw [part, part, hlive, hlive, h]

theorem part_part : (l.part user).part user = l.part user := by
  apply part_eq_of
  rw [get?_live_part]
  cases Table.get? l.live user with
  | none => rfl
  | some own => exact congrArg some code_part

/-- A lease that has been given out, and that is live for the user if it is live. -/
structure IsOf (l : Leases) (user : String) (lease : Nat) : Prop where
  issued : lease < l.issued
  own : ∀ {other}, Table.get? l.live other = some lease → other = user

/-! ## Events -/

def Event.renamed (code : Nat → Nat) : Event → Event
  | .release user lease => .release user (code lease)
  | e => e

theorem Event.ends_renamed (hlive : Table.get? l.live user = some lease) (e : Event) :
    (e.renamed (l.code user)).ends user (l.code user lease) = e.ends user lease := by
  cases e with
  | release u own =>
    have hown : l.code user own = l.code user lease ↔ own = lease :=
      ⟨eq_of_code hlive, fun h => h ▸ rfl⟩
    simp [renamed, ends, cancels, hown]
  | _ => simp [renamed, ends, cancels]

def Event.concerns (user : String) : Event → Bool
  | .register u | .cancel u | .release u _ => u = user
  | .hear text => (Notice.decode text).toOption.any (·.user = user)
  | .cancelAll => true

section
variable (hl : (l.live.map (·.1)).Nodup) (h : l.IsOf user lease)
include hl h

/-- Whatever happens, what is known of a lease depends on what was known of it. -/
theorem code_step (e : Event) : (l.step e).code user lease =
    ((l.part user).step (e.renamed (l.code user))).code user (l.code user lease) := by
  have hcancels : ∀ u, (e.renamed (l.code user)).cancels u = e.cancels u := fun u => by
    cases e <;> rfl
  apply code_eq_of
  · rw [isCancelled_step hl, isCancelled_step (nodup_part l user), isCancelled_part]
    refine or_congr_right ⟨?_, ?_⟩
    · rintro ⟨u, hu, hc⟩
      obtain rfl := h.own hu
      exact ⟨u, live_part.mpr hu, (hcancels u).trans hc⟩
    · rintro ⟨u, hu, hc⟩
      obtain rfl := eq_of_live_part hu
      exact ⟨u, live_part.mp hu, (hcancels u).symm.trans hc⟩
  · have hnew : ¬ (e = .register user ∧ l.issued = lease) := fun hreg =>
      Nat.lt_irrefl _ (hreg.2 ▸ h.issued)
    have hnew' : ¬ (e.renamed (l.code user) = .register user ∧ 4 = l.code user lease) := fun hreg =>
      absurd (code_lt l user lease) (by omega)
    rw [get?_live_step, get?_live_step, live_part, or_iff_right hnew]
    refine Iff.trans ?_ (or_iff_right hnew').symm
    refine and_congr_right fun hlive => ?_
    rw [Event.ends_renamed hlive]

theorem code_step_other {e : Event} (he : e.concerns user = false) :
    (l.step e).code user lease = l.code user lease := by
  have hcancels : e.cancels user = false := by cases e <;> first | exact he | rfl
  have hends : e.ends user lease = false := by
    rw [Event.ends, hcancels]
    cases e <;> simp_all [Event.concerns]
  apply code_eq_of
  · rw [isCancelled_step hl]
    refine or_iff_left ?_
    rintro ⟨u, hu, hc⟩
    obtain rfl := h.own hu
    rw [hcancels] at hc
    cases hc
  · have hnew : ¬ (e = .register user ∧ l.issued = lease) := fun hreg =>
      Nat.lt_irrefl _ (hreg.2 ▸ h.issued)
    rw [get?_live_step, or_iff_right hnew, hends]
    exact and_iff_left rfl

end

theorem live_step_of_ne {e : Event} (he : e ≠ .register user) :
    Table.get? (l.step e).live user =
      (Table.get? l.live user).filter fun lease => !e.ends user lease := by
  refine Option.ext fun lease => ?_
  rw [get?_live_step, Option.filter_eq_some_iff, Bool.not_eq_true']
  simp [he]

/-- Others neither take a live lease nor give one. -/
theorem live_step_other {e : Event} (he : e.concerns user = false) :
    Table.get? (l.step e).live user = Table.get? l.live user := by
  have hends : ∀ lease, e.ends user lease = false := by
    intro lease
    cases e <;> simp_all [Event.ends, Event.cancels, Event.concerns]
  have hnew : e ≠ .register user := by
    rintro rfl
    simp [Event.concerns] at he
  rw [live_step_of_ne hnew]
  simp only [hends]
  cases Table.get? l.live user <;> rfl

/-- A lease that has just been given out is live and has not been cancelled. -/
theorem code_register (hfresh : (l.register user).1.isCancelled l.issued = false) :
    (l.register user).1.code user l.issued = 1 := by
  rw [code, hfresh, get?_live_register, if_pos rfl, if_pos rfl]
  rfl

theorem code_register_part :
    ((l.part user).register user).1.code user (l.part user).issued = 1 := by
  refine code_register (Bool.eq_false_of_not_eq_true fun hc => ?_)
  rcases (isCancelled_register ..).mp hc with hc | hlive
  · simp [isCancelled, part] at hc
  · rw [get?_live_part] at hlive
    obtain ⟨own, -, hcode⟩ := Option.map_eq_some_iff.mp hlive
    exact absurd (code_lt l user own) (hcode ▸ Nat.lt_irrefl 4)

/-- What an event makes of a part depends on the part. -/
theorem part_step (hl : (l.live.map (·.1)).Nodup)
    (hof : ∀ {lease}, Table.get? l.live user = some lease → l.IsOf user lease)
    (hfresh : (l.register user).1.isCancelled l.issued = false) (e : Event) :
    (l.step e).part user = ((l.part user).step (e.renamed (l.code user))).part user := by
  apply part_eq_of
  by_cases he : e = .register user
  · subst he
    change (Table.get? (l.register user).1.live user).map _ =
      (Table.get? ((l.part user).register user).1.live user).map _
    rw [get?_live_register, get?_live_register, if_pos rfl, if_pos rfl]
    exact congrArg some ((code_register hfresh).trans code_register_part.symm)
  · have he' : e.renamed (l.code user) ≠ .register user := fun h =>
      he (by cases e <;> first | exact h | cases h)
    rw [live_step_of_ne he, live_step_of_ne he', get?_live_part]
    cases hold : Table.get? l.live user with
    | none => rfl
    | some lease =>
      rw [Option.map_some, Option.filter_some, Option.filter_some, Event.ends_renamed hold]
      split
      · exact congrArg some (code_step hl (hof hold) e)
      · rfl

end ChatRelay.Leases
