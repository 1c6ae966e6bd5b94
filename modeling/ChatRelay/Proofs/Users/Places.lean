import Mathlib.Data.List.Basic

/-!
# Items of one user among all

Lists of a relay hold the items of all users side by side, and name each by its place. What a user
has of such a list is a list of its own, in which each item has a place that does not depend on how
many others stand between.
-/

namespace ChatRelay.Places
variable {α β : Type}

/-- How many of the items before this place have the property. -/
def rank (p : α → Bool) (l : List α) (i : Nat) : Nat := (l.take i).countP p

/-- The items that have the property, as they are seen. -/
def share (p : α → Bool) (v : α → β) (l : List α) : List β := (l.filter p).map v

variable {p : α → Bool} {v : α → β} {l : List α} {i k : Nat} {a b : α}

theorem eq_take_cons_drop (h : l[i]? = some a) : l = l.take i ++ a :: l.drop (i + 1) := by
  obtain ⟨hi, rfl⟩ := List.getElem?_eq_some_iff.mp h
  rw [List.getElem_cons_drop, List.take_append_drop]

theorem length_filter_take (p : α → Bool) (l : List α) (i : Nat) :
    ((l.take i).filter p).length = rank p l i := List.countP_eq_length_filter.symm

theorem filter_eq (h : l[i]? = some a) (hp : p a) :
    l.filter p = (l.take i).filter p ++ a :: (l.drop (i + 1)).filter p := by
  rw [← List.filter_cons_of_pos hp, ← List.filter_append, ← eq_take_cons_drop h]

theorem getElem?_share (h : l[i]? = some a) (hp : p a) :
    (share p v l)[rank p l i]? = some (v a) := by
  rw [share, List.getElem?_map, filter_eq h hp, List.getElem?_append_right
    (Nat.le_of_eq (length_filter_take p l i)), length_filter_take, Nat.sub_self]
  rfl

theorem set_eq (h : l[i]? = some a) (b : α) :
    l.set i b = l.take i ++ b :: l.drop (i + 1) := by
  obtain ⟨hi, -⟩ := List.getElem?_eq_some_iff.mp h
  rw [List.set_eq_take_append_cons_drop, if_pos hi]

/-- An item changes that has the property before and after. -/
theorem share_set (h : l[i]? = some a) (ha : p a) (hb : p b) :
    share p v (l.set i b) = (share p v l).set (rank p l i) (v b) := by
  have hlen := length_filter_take p l i
  rw [share, share, set_eq h, List.filter_append, List.filter_cons_of_pos hb, filter_eq h ha,
    List.map_append, List.map_append, List.set_append_right _ _
    (by rw [List.length_map]; exact Nat.le_of_eq hlen), List.length_map, hlen, Nat.sub_self]
  rfl

theorem share_modify {f : α → α} {g : β → β} (h : l[i]? = some a) (ha : p a) (hf : p (f a))
    (hg : v (f a) = g (v a)) :
    share p v (l.modify i f) = (share p v l).modify (rank p l i) g := by
  rw [List.modify_eq_set_getElem?, List.modify_eq_set_getElem?, h, getElem?_share h ha]
  exact (share_set h ha hf).trans (by rw [hg]; rfl)

theorem share_append (p : α → Bool) (v : α → β) (l m : List α) :
    share p v (l ++ m) = share p v l ++ share p v m := by
  rw [share, List.filter_append, List.map_append]
  rfl

theorem share_concat (hb : p b) : share p v (l ++ [b]) = share p v l ++ [v b] := by
  rw [share_append]
  exact congrArg (fun m => share p v l ++ List.map v m) (List.filter_cons_of_pos hb)

/-- An item has the place that it had if what is set has the property as the one before had it. -/
theorem rank_set (h : l[i]? = some a) (hb : p b = p a) (k : Nat) :
    rank p (l.set i b) k = rank p l k := by
  have hlt : i < l.length := (List.getElem?_eq_some_iff.mp h).1
  unfold rank
  rw [List.take_set]
  by_cases hk : i < k
  · have hi : (l.take k)[i]? = some a := by rw [List.getElem?_take_of_lt hk, h]
    rw [set_eq hi]
    conv_rhs => rw [eq_take_cons_drop hi]
    simp [List.countP_append, List.countP_cons, hb]
  · rw [List.set_eq_of_length_le]
    exact Nat.le_trans (List.length_take_le ..) (Nat.le_of_not_lt hk)

theorem rank_modify {f : α → α} (h : l[i]? = some a) (hf : p (f a) = p a) (k : Nat) :
    rank p (l.modify i f) k = rank p l k := by
  rw [List.modify_eq_set_getElem?, h]
  exact rank_set h hf k

theorem rank_congr {l' : List α} (h : ∀ k < i, (l'[k]?).map p = (l[k]?).map p) :
    rank p l' i = rank p l i := by
  have hmap : (l'.take i).map p = (l.take i).map p := by
    refine List.ext_getElem? fun k => ?_
    rw [List.getElem?_map, List.getElem?_map, List.getElem?_take, List.getElem?_take]
    split
    · next hk => exact h k hk
    · rfl
  have hcount : ∀ m : List α, m.countP p = (m.map p).countP id := fun m => by
    rw [List.countP_map]
    rfl
  rw [rank, rank, hcount, hmap, ← hcount]

theorem rank_length (p : α → Bool) (v : α → β) (l m : List α) :
    rank p (l ++ m) l.length = (share p v l).length := by
  rw [rank, List.take_left, share, List.length_map, List.countP_eq_length_filter]

theorem share_map {f : α → α} {g : β → β} (hf : ∀ a, p (f a) = p a) (hg : ∀ a, v (f a) = g (v a)) :
    share p v (l.map f) = (share p v l).map g := by
  rw [share, share, List.filter_map, List.map_map, List.map_map]
  have hp : p ∘ f = p := funext hf
  have hv : v ∘ f = g ∘ v := funext hg
  rw [hp, hv]

/-- Those that have the property have different places. -/
theorem rank_lt (h : l[i]? = some a) (hp : p a) (hk : i < k) : rank p l i < rank p l k := by
  have hi : (l.take k)[i]? = some a := by rw [List.getElem?_take_of_lt hk, h]
  have htake : (l.take k).take i = l.take i := by
    rw [List.take_take, Nat.min_eq_left (Nat.le_of_lt hk)]
  unfold rank
  rw [eq_take_cons_drop hi, htake, List.countP_append, List.countP_cons_of_pos hp]
  omega

theorem rank_inj (h : l[i]? = some a) (hk : l[k]? = some b) (ha : p a) (hb : p b)
    (heq : rank p l i = rank p l k) : i = k := by
  rcases Nat.lt_trichotomy i k with hlt | rfl | hlt
  · exact absurd (rank_lt h ha hlt) (by omega)
  · rfl
  · exact absurd (rank_lt hk hb hlt) (by omega)

/-! ## Places in the list of one's own -/

theorem rank_le (p : α → Bool) (v : α → β) (l : List α) (i : Nat) :
    rank p l i ≤ (share p v l).length := by
  rw [share, List.length_map, ← List.countP_eq_length_filter]
  exact (List.take_sublist i l).countP_le

/-- What is seen has the places that it has among those that are seen. -/
theorem rank_share {p' : β → Bool} (h : ∀ a ∈ l, p a → p' (v a)) (hk : k ≤ (share p v l).length) :
    rank p' (share p v l) k = k := by
  have hall : ∀ b ∈ (share p v l).take k, p' b := by
    intro b hb
    obtain ⟨a, ha, rfl⟩ := List.mem_map.mp (List.mem_of_mem_take hb)
    exact h a (List.mem_filter.mp ha).1 (List.mem_filter.mp ha).2
  rw [rank, List.countP_eq_length.mpr hall, List.length_take, Nat.min_eq_left hk]

theorem share_share {γ : Type} {p' : β → Bool} {w : β → γ} (h : ∀ a ∈ l, p a → p' (v a)) :
    share p' w (share p v l) = share p (w ∘ v) l := by
  have hall : ∀ b ∈ (l.filter p).map v, p' b := by
    intro b hb
    obtain ⟨a, ha, rfl⟩ := List.mem_map.mp hb
    exact h a (List.mem_filter.mp ha).1 (List.mem_filter.mp ha).2
  rw [share, share, List.filter_eq_self.mpr hall, List.map_map]
  rfl

theorem share_congr {w : α → β} (h : ∀ a ∈ l, p a → v a = w a) : share p v l = share p w l :=
  List.map_congr_left fun a ha => h a (List.mem_filter.mp ha).1 (List.mem_filter.mp ha).2

/-! ## Lists in which one has the same items -/

section
variable {l' : List α}

/-- The items that have the property are the same, and stand in the same places. -/
def Same (p : α → Bool) (l l' : List α) : Prop :=
  ∀ (i : Nat) (a : α), p a → (l'[i]? = some a ↔ l[i]? = some a)

theorem Same.take (h : Same p l l') (k : Nat) : Same p (l.take k) (l'.take k) := by
  intro i a ha
  rw [List.getElem?_take, List.getElem?_take]
  split
  · exact h i a ha
  · rfl

theorem Same.filter (h : Same p l l') : l'.filter p = l.filter p := by
  have hempty : ∀ {m m' : List α}, Same p m m' → m = [] → m'.filter p = [] := by
    rintro m m' hm rfl
    refine List.filter_eq_nil_iff.mpr fun a ha hp => ?_
    obtain ⟨i, hi⟩ := List.mem_iff_getElem?.mp ha
    cases (hm i a hp).mp hi
  induction l generalizing l' with
  | nil => exact hempty h rfl
  | cons a l ih =>
    cases l' with
    | nil => exact (hempty (fun i c hc => (h i c hc).symm) rfl).symm
    | cons b l' =>
      have htail : Same p l l' := fun i c hc => h (i + 1) c hc
      rw [List.filter_cons, List.filter_cons, ih htail]
      by_cases ha : p a
      · obtain rfl : b = a := by simpa using (h 0 a ha).mpr rfl
        rfl
      · have hb : ¬ p b := fun hb => ha (by
          obtain rfl : a = b := by simpa using (h 0 b hb).mp rfl
          exact hb)
        rw [if_neg ha, if_neg hb]

theorem Same.share (h : Same p l l') (v : α → β) : share p v l' = share p v l :=
  congrArg (List.map v) h.filter

theorem Same.refl (p : α → Bool) (l : List α) : Same p l l := fun _ _ _ => Iff.rfl

/-- An item changes that does not have the property, neither before nor after. -/
theorem same_set (h : l[i]? = some a) (ha : ¬ p a) (hb : ¬ p b) : Same p l (l.set i b) := by
  intro k c hc
  by_cases hk : i = k
  · subst hk
    rw [List.getElem?_set_self (List.getElem?_eq_some_iff.mp h).1, h]
    constructor <;> (intro heq; obtain rfl := Option.some.inj heq; contradiction)
  · rw [List.getElem?_set_ne hk]

theorem same_append {m : List α} (hm : ∀ b ∈ m, ¬ p b) : Same p l (l ++ m) := by
  intro k c hc
  by_cases hk : k < l.length
  · rw [List.getElem?_append_left hk]
  · constructor
    · intro h
      rw [List.getElem?_append_right (Nat.le_of_not_lt hk)] at h
      exact absurd hc (hm c (List.mem_of_getElem? h))
    · intro h
      exact absurd (List.getElem?_eq_some_iff.mp h).1 hk

theorem Same.rank (h : Same p l l') (i : Nat) : rank p l' i = rank p l i := by
  rw [Places.rank, Places.rank, List.countP_eq_length_filter, List.countP_eq_length_filter,
    (h.take i).filter]

end
end ChatRelay.Places
