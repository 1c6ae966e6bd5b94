import ChatRelay.Store.Either
import Mathlib.Tactic.Tauto

/-!
# What every store does

A list holds what was appended under its key since it was last drained, in order; an id is marked
for a user once it has been marked for that user; and no operation touches what another is about.
The store in memory and the one in a database both keep to this, the latter as long as its rows are
numbered in the order in which they stand.
-/

namespace ChatRelay

namespace KeyedLists
variable {σ : Type} [KeyedLists σ]

def texts (s : σ) (key : String) : List String := (drain s key).1

end KeyedLists

namespace AnsweredIds
variable {σ : Type} [AnsweredIds σ]

def Marked (s : σ) (user id : String) : Prop := id ∈ seen s user [id]

end AnsweredIds

open KeyedLists Conversations AnsweredIds

class LawfulStore (σ : Type) [Store σ] where
  /-- The states in which the medium is in order. -/
  Sound : σ → Prop
  sound_append {s : σ} (key value : String) : Sound s → Sound (append s key value)
  sound_drain {s : σ} (key : String) : Sound s → Sound (drain s key).2
  sound_addTurns {s : σ} (user : String) (turns : List Turn) :
    Sound s → Sound (addTurns s user turns)
  sound_mark {s : σ} (user : String) (ids : List String) : Sound s → Sound (mark s user ids)
  texts_append {s : σ} (key other value : String) : Sound s →
    texts (append s key value) other = if other = key then texts s key ++ [value] else texts s other
  texts_drain {s : σ} (key other : String) : Sound s →
    texts (drain s key).2 other = if other = key then [] else texts s other
  texts_addTurns (s : σ) (user : String) (turns : List Turn) (key : String) :
    texts (addTurns s user turns) key = texts s key
  texts_mark (s : σ) (user : String) (ids : List String) (key : String) :
    texts (mark s user ids) key = texts s key
  mem_seen {s : σ} {user id : String} {ids : List String} :
    id ∈ seen s user ids ↔ id ∈ ids ∧ Marked s user id
  marked_mark {s : σ} {user other id : String} {ids : List String} :
    Marked (mark s user ids) other id ↔ other = user ∧ id ∈ ids ∨ Marked s other id
  marked_append {s : σ} {key value user id : String} :
    Marked (append s key value) user id ↔ Marked s user id
  marked_drain {s : σ} {key user id : String} :
    Marked (drain s key).2 user id ↔ Marked s user id
  marked_addTurns {s : σ} {other : String} {turns : List Turn} {user id : String} :
    Marked (addTurns s other turns) user id ↔ Marked s user id

/-! ## The store in memory -/

namespace Memory

theorem ids_mark (m : Memory) (user other id : String) (ids : List String) :
    id ∈ (m.mark user ids).ids other ↔ other = user ∧ id ∈ ids ∨ id ∈ m.ids other := by
  simp only [Memory.ids, mark, Table.get?_put]
  by_cases h : other = user
  · subst h
    by_cases hm : id ∈ (Table.get? m.answered other).getD [] <;> simp [hm]
  · simp [h]

theorem marked_iff (m : Memory) (user id : String) : Marked m user id ↔ id ∈ m.ids user := by
  change id ∈ [id].filter (· ∈ m.ids user) ↔ _
  simp

instance : LawfulStore Memory where
  Sound _ := True
  sound_append _ _ _ := trivial
  sound_drain _ _ := trivial
  sound_addTurns _ _ _ := trivial
  sound_mark _ _ _ := trivial
  texts_append {m} key other value _ := list_append m key other value
  texts_drain {m} key other _ := list_drain m key other
  texts_addTurns _ _ _ _ := rfl
  texts_mark _ _ _ _ := rfl
  mem_seen {m user id ids} := by
    rw [marked_iff]
    change id ∈ ids.filter (· ∈ m.ids user) ↔ _
    simp
  marked_mark {m user other id ids} := by
    rw [marked_iff, marked_iff]
    exact ids_mark m user other id ids
  marked_append := Iff.rfl
  marked_drain := Iff.rfl
  marked_addTurns := Iff.rfl

end Memory

/-! ## The store in a database -/

namespace Database

theorem insertRow_of_lt {row : ListRow} {rows : List ListRow} (h : ∀ r ∈ rows, r.id < row.id) :
    insertRow row rows = rows ++ [row] := by
  induction rows with
  | nil => rfl
  | cons r rows ih =>
    have hr : r.id ≤ row.id := Nat.le_of_lt (h r List.mem_cons_self)
    rw [insertRow, if_pos hr, ih fun q hq => h q (List.mem_cons_of_mem r hq), List.cons_append]

theorem foldl_insertRow (sorted : List ListRow) {rows : List ListRow}
    (h : (sorted ++ rows).Pairwise (·.id < ·.id)) :
    rows.foldl (fun sorted row => insertRow row sorted) sorted = sorted ++ rows := by
  induction rows generalizing sorted with
  | nil => simp
  | cons r rows ih =>
    have hr : ∀ q ∈ sorted, q.id < r.id := fun q hq =>
      (List.pairwise_append.mp h).2.2 q hq r List.mem_cons_self
    have hs : sorted ++ r :: rows = (sorted ++ [r]) ++ rows := by simp
    rw [List.foldl_cons, insertRow_of_lt hr, ih _ (hs ▸ h), hs]

/-- Rows that are numbered in order stay as they are. -/
theorem byNumber_of_pairwise {rows : List ListRow} (h : rows.Pairwise (·.id < ·.id)) :
    byNumber rows = rows := foldl_insertRow [] h

/-- The rows of lists are numbered in order, and the next number is free. -/
structure IsNumbered (d : Database) : Prop where
  increasing : d.listRows.Pairwise (·.id < ·.id)
  below : ∀ row ∈ d.listRows, row.id < d.nextListRow

def list (d : Database) (key : String) : List String :=
  (d.listRows.filter (·.key = key)).map (·.value)

theorem IsNumbered.texts_eq {d : Database} (h : d.IsNumbered) (key : String) :
    texts d key = d.list key := by
  change (byNumber (d.listRows.filter (·.key = key))).map (·.value) = _
  rw [byNumber_of_pairwise (h.increasing.filter _)]
  rfl

theorem IsNumbered.append {d : Database} (h : d.IsNumbered) (key value : String) :
    (d.append key value).IsNumbered where
  increasing := by
    refine List.pairwise_append.mpr ⟨h.increasing, List.pairwise_singleton .., ?_⟩
    intro row hrow last hlast
    rw [List.mem_singleton] at hlast
    subst hlast
    exact h.below row hrow
  below := by
    intro row hrow
    rcases List.mem_append.mp hrow with hrow | hrow
    · exact Nat.lt_succ_of_lt (h.below row hrow)
    · rw [List.mem_singleton] at hrow
      subst hrow
      exact Nat.lt_succ_self _

theorem IsNumbered.drain {d : Database} (h : d.IsNumbered) (key : String) :
    (d.drain key).2.IsNumbered where
  increasing := h.increasing.filter _
  below row hrow := h.below row (List.mem_filter.mp hrow).1

theorem addRows_eq (user : String) (turns : List Turn) (failing : Option Nat) (d : Database) :
    (addRows user turns failing d).1.listRows = d.listRows ∧
      (addRows user turns failing d).1.nextListRow = d.nextListRow ∧
      (addRows user turns failing d).1.answered = d.answered := by
  induction turns generalizing failing d with
  | nil => simp [addRows]
  | cons t turns ih =>
    match failing with
    | some 0 => simp [addRows]
    | none => exact ih none (d.addPayload user t.encode)
    | some (k + 1) => exact ih (some k) (d.addPayload user t.encode)

/-- The turns that are stored when the statement with the given number fails. -/
def storedBefore (failing : Option Nat) (turns : List Turn) : List Turn :=
  match failing with
  | none => turns
  | some k => turns.take k

theorem payloads_addPayload (d : Database) (user other payload : String) :
    (d.addPayload user payload).payloads other =
      if other = user then d.payloads user ++ [payload] else d.payloads other := by
  by_cases h : other = user
  · simp [payloads, addPayload, h]
  · simp [payloads, addPayload, h, Ne.symm h]

theorem payloads_addRows (d : Database) (user other : String) (failing : Option Nat)
    (turns : List Turn) : (addRows user turns failing d).1.payloads other =
      if other = user then d.payloads user ++ (storedBefore failing turns).map Turn.encode
      else d.payloads other := by
  induction turns generalizing failing d with
  | nil => cases failing <;> by_cases h : other = user <;> simp [addRows, storedBefore, h]
  | cons t turns ih =>
    rcases failing with _ | _ | k
    · refine (ih (d.addPayload user t.encode) none).trans ?_
      by_cases h : other = user <;> simp [payloads_addPayload, storedBefore, h]
    · by_cases h : other = user <;> simp [addRows, storedBefore, h]
    · refine (ih (d.addPayload user t.encode) (some k)).trans ?_
      by_cases h : other = user <;> simp [payloads_addPayload, storedBefore, h]

theorem IsNumbered.of_rows {d d' : Database} (h : d.IsNumbered) (hrows : d'.listRows = d.listRows)
    (hnext : d'.nextListRow = d.nextListRow) : d'.IsNumbered where
  increasing := hrows ▸ h.increasing
  below := by
    rw [hrows, hnext]
    exact h.below

theorem mem_foldl_markOne (user other id : String) (ids : List String)
    (answered : List (String × String)) :
    (other, id) ∈ ids.foldl (markOne user) answered ↔
      other = user ∧ id ∈ ids ∨ (other, id) ∈ answered := by
  induction ids generalizing answered with
  | nil => simp
  | cons a ids ih =>
    have hone : (other, id) ∈ markOne user answered a ↔
        other = user ∧ id = a ∨ (other, id) ∈ answered := by
      unfold markOne
      split
      · next h =>
        constructor
        · exact .inr
        · rintro (⟨rfl, rfl⟩ | hm)
          · exact h
          · exact hm
      · simp [or_comm]
    rw [List.foldl_cons, ih, hone, List.mem_cons]
    tauto

theorem marked_iff (d : Database) (user id : String) :
    Marked d user id ↔ (user, id) ∈ d.answered := by
  change id ∈ [id].filter (fun id => (user, id) ∈ d.answered) ↔ _
  simp

instance : LawfulStore Database where
  Sound := IsNumbered
  sound_append key value h := h.append key value
  sound_drain key h := h.drain key
  sound_addTurns {d} user turns h := by
    obtain ⟨hrows, hnext, -⟩ := addRows_eq user turns none d
    exact h.of_rows hrows hnext
  sound_mark _ _ h := ⟨h.increasing, h.below⟩
  texts_append {d} key other value h := by
    rw [h.texts_eq, h.texts_eq]
    apply (IsNumbered.texts_eq (h.append key value) other).trans
    by_cases ho : other = key
    · subst ho
      simp [list, append]
    · simp [list, append, ho, Ne.symm ho]
  texts_drain {d} key other h := by
    rw [h.texts_eq]
    apply (IsNumbered.texts_eq (h.drain key) other).trans
    by_cases ho : other = key
    · subst ho
      simp [list, drain]
    · have hf : ∀ row ∈ d.listRows, (decide (row.key = other) && decide (row.key ≠ key)) =
          decide (row.key = other) := by
        intro row _
        by_cases hk : row.key = other <;> simp [hk, ho]
      simp only [list, drain, ho, if_false, List.filter_filter]
      rw [List.filter_congr hf]
  texts_addTurns d user turns key := by
    change (byNumber (((addRows user turns none d).1).listRows.filter _)).map _ = _
    rw [(addRows_eq user turns none d).1]
    rfl
  texts_mark _ _ _ _ := rfl
  mem_seen {d user id ids} := by
    rw [marked_iff]
    change id ∈ ids.filter (fun id => (user, id) ∈ d.answered) ↔ _
    simp
  marked_mark {d user other id ids} := by
    rw [marked_iff, marked_iff]
    exact mem_foldl_markOne user other id ids d.answered
  marked_append := Iff.rfl
  marked_drain := Iff.rfl
  marked_addTurns {d other turns user id} := by
    rw [marked_iff, marked_iff]
    change _ ∈ (addRows other turns none d).1.answered ↔ _
    rw [(addRows_eq other turns none d).2.2]

end Database

/-! ## A store of either kind -/

instance : LawfulStore AnyStore where
  Sound
    | .memory m => LawfulStore.Sound m
    | .database d => LawfulStore.Sound d
  sound_append {s} key value h := by cases s <;> exact LawfulStore.sound_append key value h
  sound_drain {s} key h := by cases s <;> exact LawfulStore.sound_drain key h
  sound_addTurns {s} user turns h := by cases s <;> exact LawfulStore.sound_addTurns user turns h
  sound_mark {s} user ids h := by cases s <;> exact LawfulStore.sound_mark user ids h
  texts_append {s} key other value h :=
    match s with
    | .memory m => LawfulStore.texts_append (s := m) key other value h
    | .database d => LawfulStore.texts_append (s := d) key other value h
  texts_drain {s} key other h :=
    match s with
    | .memory m => LawfulStore.texts_drain (s := m) key other h
    | .database d => LawfulStore.texts_drain (s := d) key other h
  texts_addTurns s user turns key :=
    match s with
    | .memory m => LawfulStore.texts_addTurns m user turns key
    | .database d => LawfulStore.texts_addTurns d user turns key
  texts_mark s user ids key :=
    match s with
    | .memory m => LawfulStore.texts_mark m user ids key
    | .database d => LawfulStore.texts_mark d user ids key
  mem_seen {s} :=
    match s with
    | .memory m => LawfulStore.mem_seen (s := m)
    | .database d => LawfulStore.mem_seen (s := d)
  marked_mark {s} :=
    match s with
    | .memory m => LawfulStore.marked_mark (s := m)
    | .database d => LawfulStore.marked_mark (s := d)
  marked_append {s} :=
    match s with
    | .memory m => LawfulStore.marked_append (s := m)
    | .database d => LawfulStore.marked_append (s := d)
  marked_drain {s} :=
    match s with
    | .memory m => LawfulStore.marked_drain (s := m)
    | .database d => LawfulStore.marked_drain (s := d)
  marked_addTurns {s} :=
    match s with
    | .memory m => LawfulStore.marked_addTurns (s := m)
    | .database d => LawfulStore.marked_addTurns (s := d)

end ChatRelay
