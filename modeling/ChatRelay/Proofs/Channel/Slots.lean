import ChatRelay.Channel.Execution
import Mathlib.Data.List.Nodup

/-!
# Slots

Those who work side by side have a slot each, and they are through when no slot is empty.
-/

namespace ChatRelay
variable {α : Type}

theorem eq_map_of_filled? {slots : List (Option α)} {l : List α} (h : filled? slots = some l) :
    slots = l.map some := by
  induction slots generalizing l with
  | nil =>
    obtain rfl : [] = l := by simpa [filled?] using h
    rfl
  | cons slot slots ih =>
    simp only [filled?, List.mapM_cons, id_eq, Option.bind_eq_bind, Option.bind_eq_some_iff] at h
    obtain ⟨a, rfl, rest, hrest, heq⟩ := h
    obtain rfl : a :: rest = l := by simpa using heq
    rw [List.map_cons, ih hrest]

@[simp] theorem filled?_map_some (l : List α) : filled? (l.map some) = some l := by
  induction l with
  | nil => rfl
  | cons a l ih =>
    rw [filled?] at ih
    simp [filled?, ih]

theorem length_fillSlot (slots : List (Option α)) (i : Nat) (a : α) :
    (fillSlot slots i a).length = slots.length := List.length_modify ..

theorem filled_fillSlot {slots : List (Option α)} {i k : Nat} (a : α) (hk : k < slots.length)
    (h : k = i ∨ ∃ b, slots[k]? = some (some b)) :
    ∃ b, (fillSlot slots i a)[k]? = some (some b) := by
  simp only [fillSlot, List.getElem?_modify, List.getElem?_eq_getElem hk] at h ⊢
  cases hslot : slots[k] with
  | some b => exact ⟨b, by simp⟩
  | none =>
    obtain rfl : k = i := by simpa [hslot] using h
    exact ⟨a, by simp⟩

theorem filled?_of_filled {slots : List (Option α)}
    (h : ∀ k < slots.length, ∃ a, slots[k]? = some (some a)) : ∃ l, filled? slots = some l := by
  induction slots with
  | nil => exact ⟨[], rfl⟩
  | cons slot slots ih =>
    obtain ⟨a, ha⟩ := h 0 (Nat.zero_lt_succ _)
    obtain rfl : slot = some a := by simpa using ha
    obtain ⟨l, hl⟩ := ih fun k hk => by simpa using h (k + 1) (Nat.succ_lt_succ hk)
    refine ⟨a :: l, ?_⟩
    rw [filled?] at hl
    simp [filled?, hl]

/-! ## Reports -/

/-- The end of one output: its slot, and whether it took what it was sent. -/
structure Report where
  slot : Nat
  success : Bool
deriving DecidableEq, Repr

/-- The reports are those of the filled slots, one for each. -/
structure Tells (rs : List Report) (slots : List (Option Bool)) : Prop where
  once : (rs.map (·.slot)).Nodup
  filled : ∀ r : Report, r ∈ rs ↔ slots[r.slot]? = some (some r.success)

theorem tells_emptySlots {β : Type} (items : List β) :
    Tells [] (Execution.emptySlots items) := by
  refine ⟨List.nodup_nil, fun r => ?_⟩
  simp [Execution.emptySlots, List.getElem?_replicate]

theorem Tells.fillSlot {rs : List Report} {slots : List (Option Bool)} (h : Tells rs slots)
    {slot : Nat} (hslot : slots[slot]? = some none) (success : Bool) :
    Tells (rs ++ [⟨slot, success⟩]) (fillSlot slots slot success) := by
  have hnew : ∀ r ∈ rs, r.slot ≠ slot := by
    rintro r hr rfl
    simpa [hslot] using (h.filled r).mp hr
  constructor
  · rw [List.map_append, List.nodup_append]
    refine ⟨h.once, List.nodup_singleton _, fun k hk k' hk' => ?_⟩
    obtain ⟨r, hr, rfl⟩ := List.mem_map.mp hk
    simpa [show k' = slot by simpa using hk'] using hnew r hr
  · rintro ⟨k, b⟩
    rw [List.mem_append, h.filled, ChatRelay.fillSlot, List.getElem?_modify]
    by_cases hk : slot = k
    · subst hk
      simp [hslot, eq_comm]
    · simp [hk, Ne.symm hk]

/-- A slot that is taken, or is none, stays as it is. -/
theorem fillSlot_of_not {slots : List (Option Bool)} {slot : Nat} (h : slots[slot]? ≠ some none)
    (success : Bool) : fillSlot slots slot success = slots := by
  refine List.ext_getElem? fun k => ?_
  rw [fillSlot, List.getElem?_modify]
  by_cases hk : slot = k
  · subst hk
    rcases hs : slots[slot]? with _ | _ | b
    · simp
    · exact absurd hs h
    · simp
  · simp [hk]

/-- When all slots are filled, each has its report. -/
theorem Tells.perm {rs : List Report} {successes : List Bool}
    (h : Tells rs (successes.map some)) :
    (rs.map (·.slot)).Perm (List.range successes.length) := by
  rw [List.perm_ext_iff_of_nodup h.once List.nodup_range]
  intro k
  rw [List.mem_map, List.mem_range]
  constructor
  · rintro ⟨r, hr, rfl⟩
    have hslot := (h.filled r).mp hr
    rw [List.getElem?_map] at hslot
    by_contra hlong
    simp [List.getElem?_eq_none (Nat.le_of_not_lt hlong)] at hslot
  · intro hk
    refine ⟨⟨k, successes[k]⟩, (h.filled _).mpr ?_, rfl⟩
    simp [List.getElem?_eq_getElem hk]

theorem Tells.all {rs : List Report} {successes : List Bool} (h : Tells rs (successes.map some)) :
    successes.all id ↔ ∀ r ∈ rs, r.success := by
  simp only [List.all_eq_true, id_eq]
  constructor
  · intro hall r hr
    have hslot := (h.filled r).mp hr
    rw [List.getElem?_map, Option.map_eq_some_iff] at hslot
    obtain ⟨b, hb, heq⟩ := hslot
    cases heq
    exact hall _ (List.mem_of_getElem? hb)
  · intro hall b hb
    obtain ⟨k, hk⟩ := List.mem_iff_getElem?.mp hb
    exact hall ⟨k, b⟩ ((h.filled _).mpr (by simp [hk]))

end ChatRelay
