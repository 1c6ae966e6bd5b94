import ChatRelay.Proofs.Batch.Normalize
import Mathlib.Data.List.SplitBy

/-!
# Groups of arrivals

The messages of a user fall into groups, of which each message comes in within a window of time
after the one before it. A group is due when the window has passed after its last message. It then
makes one request, of those of its messages that have not been answered with an earlier group.
-/

namespace ChatRelay

/-- A message, and when it came in. -/
abbrev Arrival := Nat × Pending

namespace Batch

/-- The longest groups of arrivals that follow each other within a window. -/
def groups (window : Nat) (as : List Arrival) : List (List Arrival) :=
  as.splitBy fun a b => b.1 < a.1 + window

def due (window : Nat) (g : List Arrival) : Nat := (g.getLast?.elim 0 (·.1)) + window

/-- The batch of a group, where some ids have been answered before. -/
def ofGroup (answered : List String) (g : List Arrival) : List Pending :=
  normalize (dropAnswered answered (g.map (·.2)))

/-- The request of a group: when it is made, and its text. A group that has nothing new makes
none. -/
def request? (window : Nat) (answered : List String) (g : List Arrival) : Option (Nat × String) :=
  if ofGroup answered g = [] then none else some (due window g, merge (ofGroup answered g))

/-- The ids that have been answered when all of the groups have been. -/
def answeredWith (answered : List String) (gs : List (List Arrival)) : List String :=
  gs.foldl (fun ids g => ids ++ sourceIds (ofGroup ids g)) answered

def plan (window : Nat) : List String → List (List Arrival) → List (Nat × String)
  | _, [] => []
  | answered, g :: gs =>
    (request? window answered g).toList ++
      plan window (answered ++ sourceIds (ofGroup answered g)) gs

variable {window : Nat}

@[simp] theorem answeredWith_concat (answered : List String) (gs : List (List Arrival))
    (g : List Arrival) : answeredWith answered (gs ++ [g]) =
      answeredWith answered gs ++ sourceIds (ofGroup (answeredWith answered gs) g) := by
  simp [answeredWith]

theorem plan_concat (answered : List String) (gs : List (List Arrival)) (g : List Arrival) :
    plan window answered (gs ++ [g]) =
      plan window answered gs ++ (request? window (answeredWith answered gs) g).toList := by
  induction gs generalizing answered with
  | nil => simp [plan, answeredWith]
  | cons g₀ gs ih => simp [plan, answeredWith, ih]

@[simp] theorem due_concat (g : List Arrival) (a : Arrival) :
    due window (g ++ [a]) = a.1 + window := by
  simp [due]

theorem due_of_getLast? {g : List Arrival} {a : Arrival} (h : g.getLast? = some a) :
    due window g = a.1 + window := by
  simp [due, h]

theorem time_of_mem_request? {answered : List String} {g : List Arrival} {e : Nat × String}
    (h : e ∈ request? window answered g) : e.1 = due window g := by
  rw [request?] at h
  split at h
  · cases h
  · obtain rfl := Option.mem_some.mp h
    rfl

/-- A batch depends only on what has been answered among the ids of its messages. -/
theorem dropAnswered_congr {ids ids' : List String} {ms : List Pending}
    (h : ∀ id ∈ sourceIds ms, (id ∈ ids ↔ id ∈ ids')) :
    dropAnswered ids ms = dropAnswered ids' ms := by
  refine List.filter_congr fun m hm => ?_
  by_cases hid : m.sourceId = ""
  · simp [hid]
  · have := h m.sourceId (mem_sourceIds.mpr ⟨hid, m, hm, rfl⟩)
    simp [hid, this]

/-! ## The last group -/

/-- The last group ends with the last arrival. -/
theorem getLast?_of_groups {as : List Arrival} {gs : List (List Arrival)} {g : List Arrival}
    (h : groups window as = gs ++ [g]) : g ≠ [] ∧ as.getLast? = g.getLast? := by
  have hmem : g ∈ groups window as := h ▸ List.mem_append_right gs (List.mem_singleton_self g)
  have hne := List.ne_nil_of_mem_splitBy hmem
  have has : as = gs.flatten ++ g := by
    rw [← List.flatten_splitBy (fun a b : Arrival => b.1 < a.1 + window) as]
    exact (congrArg List.flatten h).trans (by simp)
  exact ⟨hne, by rw [has, List.getLast?_append_of_ne_nil _ hne]⟩

/-- An arrival after the window has passed begins a group. -/
theorem groups_concat_of_le {as : List Arrival} {a : Arrival}
    (h : ∀ b ∈ as.getLast?, b.1 + window ≤ a.1) :
    groups window (as ++ [a]) = groups window as ++ [[a]] := by
  refine List.splitBy_append_cons [] fun b hb => ?_
  exact decide_eq_false (Nat.not_lt.mpr (h b hb))

/-- An arrival within the window joins the last group. -/
theorem groups_concat_of_lt {as : List Arrival} {gs : List (List Arrival)} {g : List Arrival}
    {a : Arrival} (hg : groups window as = gs ++ [g]) (h : a.1 < due window g) :
    groups window (as ++ [a]) = gs ++ [g ++ [a]] := by
  obtain ⟨hne, hlast⟩ := getLast?_of_groups hg
  obtain ⟨b, hb⟩ : ∃ b, g.getLast? = some b := ⟨_, List.getLast?_eq_some_getLast hne⟩
  rw [due_of_getLast? hb] at h
  obtain ⟨has, hnil, hchain, hapart⟩ := List.splitBy_eq_iff.mp hg
  refine List.splitBy_eq_iff.mpr
    ⟨by simp [has], by simpa using fun h => hnil (by simp [h]), fun m hm => ?_, ?_⟩
  · rcases List.mem_append.mp hm with hm | hm
    · exact hchain m (List.mem_append_left _ hm)
    · obtain rfl := List.mem_singleton.mp hm
      refine List.isChain_append.mpr ⟨hchain g (by simp), List.isChain_singleton _, ?_⟩
      intro b' hb' a' ha'
      obtain rfl : b = b' := Option.some.inj (hb.symm.trans hb')
      obtain rfl : a = a' := by simpa using ha'
      exact decide_eq_true h
  · rw [List.isChain_append] at hapart ⊢
    refine ⟨hapart.1, List.isChain_singleton _, fun x hx y hy => ?_⟩
    obtain ⟨hx', hg', hxy⟩ := hapart.2.2 x hx g rfl
    obtain rfl : g ++ [a] = y := by simpa using hy
    exact ⟨hx', by simp, by rwa [List.head_append_of_ne_nil hg']⟩

end Batch
end ChatRelay
