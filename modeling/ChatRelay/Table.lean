/-!
# Tables

Values under keys, kept as a list of pairs in the order in which the keys were put last.
-/

namespace ChatRelay

abbrev Table (κ α : Type) := List (κ × α)

namespace Table
variable {κ α : Type} [DecidableEq κ]

def get? (t : Table κ α) (k : κ) : Option α := (t.find? (·.1 = k)).map (·.2)

def has (t : Table κ α) (k : κ) : Bool := (get? t k).isSome

def remove (t : Table κ α) (k : κ) : Table κ α := t.filter (·.1 ≠ k)

/-- Put a value under a key, in the place of the one that was there. -/
def put (t : Table κ α) (k : κ) (v : α) : Table κ α := remove t k ++ [(k, v)]

@[simp] theorem get?_nil (k : κ) : get? ([] : Table κ α) k = none := rfl

theorem get?_cons (p : κ × α) (t : Table κ α) (k : κ) :
    get? (p :: t) k = if p.1 = k then some p.2 else get? t k := by
  by_cases h : p.1 = k <;> simp [get?, h]

theorem get?_remove (t : Table κ α) (k l : κ) :
    get? (remove t k) l = if l = k then none else get? t l := by
  induction t with
  | nil => simp [remove]
  | cons p t ih =>
    by_cases h : p.1 = k
    · by_cases hl : l = k
      · simpa [remove, h, hl] using ih
      · have : p.1 ≠ l := fun e => hl (e ▸ h)
        simpa [remove, h, hl, get?_cons, Ne.symm hl] using ih
    · by_cases hl : p.1 = l
      · have : l ≠ k := fun e => h (hl ▸ e)
        simp [remove, get?_cons, hl, this]
      · simpa [remove, h, get?_cons, hl] using ih

theorem get?_append_single (t : Table κ α) (k l : κ) (v : α) :
    get? (t ++ [(k, v)]) l = (get? t l).or (if k = l then some v else none) := by
  induction t with
  | nil => simp [get?_cons]
  | cons p t ih =>
    rw [List.cons_append, get?_cons, get?_cons, ih]
    split <;> simp

theorem get?_put (t : Table κ α) (k l : κ) (v : α) :
    get? (put t k v) l = if l = k then some v else get? t l := by
  rw [put, get?_append_single, get?_remove]
  by_cases h : l = k
  · simp [h]
  · simp [h, Ne.symm h]

theorem nodup_keys_remove {t : Table κ α} (h : (t.map (·.1)).Nodup) (k : κ) :
    ((remove t k).map (·.1)).Nodup :=
  h.sublist (List.Sublist.map _ List.filter_sublist)

theorem nodup_keys_put {t : Table κ α} (h : (t.map (·.1)).Nodup) (k : κ) (v : α) :
    ((put t k v).map (·.1)).Nodup := by
  rw [put, List.map_append, List.nodup_append]
  refine ⟨nodup_keys_remove h k, by simp, ?_⟩
  simp only [List.mem_map, remove, List.mem_filter, decide_eq_true_eq]
  rintro _ ⟨p, ⟨-, hp⟩, rfl⟩ _ ⟨_, hmem, rfl⟩
  obtain rfl := List.mem_singleton.mp hmem
  exact hp

/-- Where no key is repeated, what is found under a key is what stands in the table. -/
theorem get?_eq_some_iff {t : Table κ α} (h : (t.map (·.1)).Nodup) {k : κ} {v : α} :
    get? t k = some v ↔ (k, v) ∈ t := by
  induction t with
  | nil => simp
  | cons p t ih =>
    rw [List.map_cons, List.nodup_cons] at h
    rw [get?_cons, List.mem_cons]
    by_cases hp : p.1 = k
    · have hnone : (k, v) ∉ t := fun hm => h.1 (hp ▸ List.mem_map_of_mem hm)
      obtain ⟨l, w⟩ := p
      obtain rfl : l = k := hp
      simp [hnone, eq_comm]
    · have hne : (k, v) ≠ p := fun heq => hp (heq ▸ rfl)
      simp [hp, hne, ih h.2]

end Table
end ChatRelay
