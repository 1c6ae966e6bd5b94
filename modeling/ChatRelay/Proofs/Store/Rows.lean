import ChatRelay.Store.Database
import Mathlib.Data.List.Nodup

/-!
# Numbered rows

A database keeps its rows in no particular order, but their numbers tell in which order they were
added. Whatever is read from it is sorted by the numbers: the deleted entries of a list afterwards,
the last turns of a conversation by the query, greatest numbers first and then turned round.
-/

namespace ChatRelay

section
variable {α : Type}

/-- Rows are determined by the order of their numbers. -/
theorem eq_of_perm_of_pairwise {number : α → Nat} {l rows : List α} (hperm : l.Perm rows)
    (hl : l.Pairwise (number · ≤ number ·)) (hrows : rows.Pairwise (number · < number ·)) :
    l = rows := by
  have hnodup : (rows.map number).Nodup := List.pairwise_map.mpr (hrows.imp Nat.ne_of_lt)
  refine List.Perm.eq_of_pairwise (fun a b ha hb hab hba => ?_) hl (hrows.imp Nat.le_of_lt) hperm
  exact List.inj_on_of_nodup_map hnodup (hperm.subset ha) hb (Nat.le_antisymm hab hba)

/-- The rows that are stored, in whatever order, are these in the order of their numbers; the next
number is free. -/
structure Numbered (number : α → Nat) (next : Nat) (stored rows : List α) : Prop where
  perm : stored.Perm rows
  increasing : rows.Pairwise (number · < number ·)
  below : ∀ row ∈ rows, number row < next

namespace Numbered
variable {number : α → Nat} {next : Nat} {stored rows : List α}

theorem nil : Numbered number next [] [] where
  perm := .nil
  increasing := .nil
  below := by simp

/-- Rows may move, and numbers may be passed over. -/
theorem moved (h : Numbered number next stored rows) {stored' : List α} {next' : Nat}
    (hperm : stored'.Perm stored) (hnext : next ≤ next') : Numbered number next' stored' rows where
  perm := hperm.trans h.perm
  increasing := h.increasing
  below row hrow := Nat.lt_of_lt_of_le (h.below row hrow) hnext

theorem append (h : Numbered number next stored rows) (row : α) (hrow : number row = next) :
    Numbered number (next + 1) (stored ++ [row]) (rows ++ [row]) where
  perm := h.perm.append_right [row]
  increasing := by
    refine List.pairwise_append.mpr ⟨h.increasing, List.pairwise_singleton .., ?_⟩
    intro other hother last hlast
    obtain rfl := List.mem_singleton.mp hlast
    exact hrow ▸ h.below other hother
  below := by
    intro other hother
    rcases List.mem_append.mp hother with hother | hlast
    · exact Nat.lt_succ_of_lt (h.below other hother)
    · obtain rfl := List.mem_singleton.mp hlast
      exact hrow ▸ Nat.lt_succ_self _

theorem filter (h : Numbered number next stored rows) (p : α → Bool) :
    Numbered number next (stored.filter p) (rows.filter p) where
  perm := h.perm.filter p
  increasing := h.increasing.filter p
  below row hrow := h.below row (List.mem_filter.mp hrow).1

/-- Sorted by their numbers, the stored rows are in order again. -/
theorem eq_of_sorted (h : Numbered number next stored rows) {sorted : List α}
    (hperm : sorted.Perm stored) (hsorted : sorted.Pairwise (number · ≤ number ·)) :
    sorted = rows :=
  eq_of_perm_of_pairwise (hperm.trans h.perm) hsorted h.increasing

end Numbered
end

namespace Database

/-! ## Sorting -/

theorem insertRow_perm (row : ListRow) (rows : List ListRow) :
    (insertRow row rows).Perm (row :: rows) := by
  induction rows with
  | nil => exact .refl _
  | cons other rows ih =>
    rw [insertRow]
    split
    · exact (ih.cons other).trans (.swap ..)
    · exact .refl _

theorem insertRow_sorted (row : ListRow) {rows : List ListRow}
    (h : rows.Pairwise (·.id ≤ ·.id)) : (insertRow row rows).Pairwise (·.id ≤ ·.id) := by
  induction rows with
  | nil => exact List.pairwise_singleton ..
  | cons other rows ih =>
    obtain ⟨hother, hrows⟩ := List.pairwise_cons.mp h
    rw [insertRow]
    split
    · next hle =>
      refine List.pairwise_cons.mpr ⟨fun r hr => ?_, ih hrows⟩
      rcases List.mem_cons.mp ((insertRow_perm row rows).subset hr) with rfl | hr
      · exact hle
      · exact hother r hr
    · next hgt =>
      refine List.pairwise_cons.mpr ⟨fun r hr => ?_, h⟩
      rcases List.mem_cons.mp hr with rfl | hr
      · omega
      · have := hother r hr
        omega

theorem foldl_insertRow_perm (rows sorted : List ListRow) :
    (rows.foldl (fun sorted row => insertRow row sorted) sorted).Perm (rows ++ sorted) := by
  induction rows generalizing sorted with
  | nil => exact .refl _
  | cons row rows ih =>
    exact (ih _).trans (((insertRow_perm row sorted).append_left rows).trans List.perm_middle)

theorem foldl_insertRow_sorted (rows : List ListRow) {sorted : List ListRow}
    (h : sorted.Pairwise (·.id ≤ ·.id)) :
    (rows.foldl (fun sorted row => insertRow row sorted) sorted).Pairwise (·.id ≤ ·.id) := by
  induction rows generalizing sorted with
  | nil => exact h
  | cons row rows ih => exact ih (insertRow_sorted row h)

theorem byNumber_perm (rows : List ListRow) : (byNumber rows).Perm rows := by
  simpa [byNumber] using foldl_insertRow_perm rows []

theorem byNumber_sorted (rows : List ListRow) : (byNumber rows).Pairwise (·.id ≤ ·.id) :=
  foldl_insertRow_sorted rows .nil

example : byNumber [⟨7, "a", "second"⟩, ⟨2, "a", "first"⟩] =
    [⟨2, "a", "first"⟩, ⟨7, "a", "second"⟩] := by decide

/-- The last rows of a user: the greatest numbers first, so many of them, and then turned round.
No limit goes beyond the word that holds it. -/
def lastRows (d : Database) (user : String) (limit : Nat) : List TurnRow :=
  (((d.turnRows.filter (·.user = user)).mergeSort fun a b => b.id ≤ a.id).take
    (min limit maxLimit)).mergeSort fun a b => a.id ≤ b.id

/-- The last turns of a user, by the numbers of their rows. -/
def queryRecent (d : Database) (user : String) (limit : Nat) : Except StoreError (List Turn) :=
  decodeAll ((d.lastRows user limit).map (·.payload))

theorem lastOf_map {α β : Type} (f : α → β) (limit : Nat) (l : List α) :
    lastOf limit (l.map f) = (lastOf limit l).map f := by
  rw [lastOf, lastOf, List.map_drop, List.length_map]

/-- A limit beyond the length changes nothing. -/
theorem lastOf_min {α : Type} {l : List α} {bound : Nat} (h : l.length ≤ bound) (limit : Nat) :
    lastOf (min limit bound) l = lastOf limit l := by
  rw [lastOf, lastOf]
  congr 1
  omega

theorem sorted_mergeSort (r : TurnRow → TurnRow → Prop) [DecidableRel r]
    (trans : ∀ a b c, r a b → r b c → r a c) (total : ∀ a b, r a b ∨ r b a)
    (rows : List TurnRow) : (rows.mergeSort fun a b => r a b).Pairwise r := by
  have h : (rows.mergeSort fun a b => r a b).Pairwise fun a b => decide (r a b) :=
    List.pairwise_mergeSort (by simpa using trans) (by simpa using total) rows
  simpa using h

theorem sorted_mergeSort_le (rows : List TurnRow) :
    (rows.mergeSort fun a b => a.id ≤ b.id).Pairwise (·.id ≤ ·.id) :=
  sorted_mergeSort (fun a b => a.id ≤ b.id) (fun _ _ _ => Nat.le_trans)
    (fun a b => Nat.le_total a.id b.id) rows

theorem sorted_mergeSort_ge (rows : List TurnRow) :
    (rows.mergeSort fun a b => b.id ≤ a.id).Pairwise (·.id ≥ ·.id) :=
  sorted_mergeSort (fun a b => b.id ≤ a.id) (fun _ _ _ hba hcb => Nat.le_trans hcb hba)
    (fun a b => Nat.le_total b.id a.id) rows

/-- However the rows are stored, the query returns the last ones in order. -/
theorem lastRows_eq {d : Database} {next : Nat} {rows : List TurnRow}
    (h : Numbered TurnRow.id next d.turnRows rows) (user : String) (limit : Nat) :
    d.lastRows user limit = lastOf (min limit maxLimit) (rows.filter (·.user = user)) := by
  have huser := h.filter (·.user = user)
  have hgreatest : (d.turnRows.filter (·.user = user)).mergeSort (fun a b => b.id ≤ a.id) =
      (rows.filter (·.user = user)).reverse := by
    rw [← List.reverse_eq_iff]
    apply huser.eq_of_sorted ((List.reverse_perm _).trans (List.mergeSort_perm ..))
    exact List.pairwise_reverse.mpr (sorted_mergeSort_ge _)
  have hlast : (lastOf (min limit maxLimit) (rows.filter (·.user = user))).Pairwise
      (·.id < ·.id) := huser.increasing.drop
  rw [lastRows, hgreatest, List.take_reverse]
  exact eq_of_perm_of_pairwise ((List.mergeSort_perm ..).trans (List.reverse_perm _))
    (sorted_mergeSort_le _) hlast

end Database
end ChatRelay
