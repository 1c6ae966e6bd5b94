import ChatRelay.Conversation.Enrichment

/-!
# Merging enrichments

Enrichments can be merged in groups, and the groups then merged: the outcome is the same as merging
all at once. What a merge keeps is told by its additions, the texts that are not blank, and by the
first conversation that is not empty. A merge of enrichments has all their additions in one text,
which is not blank either, so it counts as one addition in the next merge.
-/

namespace ChatRelay.Enrichment

/-- The enrichment has nothing to add: no text but blank ones, and no turns. -/
def IsIdle (e : Enrichment) : Prop :=
  (∀ text ∈ e.context, Text.isBlankText text) ∧ ∀ turns ∈ e.history, turns = []

instance (e : Enrichment) : Decidable e.IsIdle := inferInstanceAs (Decidable (_ ∧ _))

/-! ## What a merge keeps -/

theorem additions_eq (es : List Enrichment) : es.filterMap (·.addition?) =
    (es.filterMap (·.context)).filter fun text => !Text.isBlankText text := by
  rw [List.filter_filterMap]
  rfl

theorem not_blank_of_mem_additions (es : List Enrichment) :
    ∀ text ∈ es.filterMap (·.addition?), Text.isBlankText text = false := by
  rw [additions_eq]
  simp

theorem isIdle_iff (e : Enrichment) : e.IsIdle ↔ e.addition? = none ∧ e.turns? = none := by
  obtain ⟨context, history⟩ := e
  cases context <;> cases history <;> simp [IsIdle, addition?, turns?]

theorem merge_filter_not_idle (es : List Enrichment) :
    merge (es.filter fun e => ¬e.IsIdle) = merge es := by
  have hkeep {α : Type} (f : Enrichment → Option α) (hf : ∀ e, e.IsIdle → f e = none) :
      (es.filter fun e => ¬e.IsIdle).filterMap f = es.filterMap f := by
    rw [List.filterMap_filter]
    congr 1
    funext e
    by_cases h : e.IsIdle <;> simp [h, hf]
  simp only [merge, ← List.head?_filterMap]
  rw [hkeep _ fun e h => ((isIdle_iff e).mp h).1, hkeep _ fun e h => ((isIdle_iff e).mp h).2]

/-! ## Joined texts -/

/-- Texts that are not blank make no blank text. -/
theorem isBlankText_intercalate {additions : List String} (hne : additions ≠ [])
    (h : ∀ text ∈ additions, Text.isBlankText text = false) :
    Text.isBlankText ("\n\n".intercalate additions) = false := by
  obtain ⟨text, rest, rfl⟩ := List.exists_cons_of_ne_nil hne
  have htext := (List.forall_mem_cons.mp h).1
  rw [Text.isBlankText, List.all_eq_false] at htext ⊢
  obtain ⟨c, hc, hblank⟩ := htext
  refine ⟨c, ?_, hblank⟩
  cases rest <;> simp [hc]

theorem isBlankText_of_join {additions : List String}
    (h : ∀ text ∈ additions, Text.isBlankText text = false) :
    ∀ text ∈ join additions, Text.isBlankText text = false := by
  cases additions with
  | nil => simp [join]
  | cons text rest => simpa [join] using isBlankText_intercalate (List.cons_ne_nil text rest) h

theorem join_append {additions : List String} (hne : additions ≠ []) (more : List String) :
    join (additions ++ more) = some ((join more).elim ("\n\n".intercalate additions)
      ("\n\n".intercalate additions ++ "\n\n" ++ ·)) := by
  obtain ⟨text, rest, rfl⟩ := List.exists_cons_of_ne_nil hne
  cases more with
  | nil => simp [join]
  | cons next more =>
    exact congrArg some (String.intercalate_append_of_ne_nil hne (List.cons_ne_nil next more))

/-- Texts are joined in groups as they are joined at once. -/
theorem join_flatten (parts : List (List String)) :
    join parts.flatten = join (parts.filterMap join) := by
  induction parts with
  | nil => rfl
  | cons part parts ih =>
    cases part with
    | nil => exact ih
    | cons text rest =>
      have hpart : join (text :: rest) = some ("\n\n".intercalate (text :: rest)) := rfl
      have hsingle := List.cons_ne_nil ("\n\n".intercalate (text :: rest)) []
      rw [List.flatten_cons, join_append (List.cons_ne_nil text rest), ih,
        List.filterMap_cons_some hpart]
      refine Eq.trans ?_ (join_append hsingle (parts.filterMap join)).symm
      rw [String.intercalate_singleton]

theorem assemble_join (message : String) {additions : List String}
    (h : ∀ text ∈ additions, Text.isBlankText text = false) :
    assemble message (join additions) =
      if additions.isEmpty then message
      else message ++ "\n\n" ++ "\n\n".intercalate additions := by
  cases additions with
  | nil => rfl
  | cons text rest =>
    have hblank := isBlankText_intercalate (List.cons_ne_nil text rest) h
    simp only [assemble, join, Option.filter_some, hblank, Bool.not_false, if_true]
    rfl

/-- One text after the other, each after a blank line, is what joining them first gives. -/
theorem append_intercalate (message text : String) (rest : List String) :
    message ++ "\n\n" ++ "\n\n".intercalate (text :: rest) =
      (text :: rest).foldl (fun written addition => written ++ "\n\n" ++ addition) message := by
  induction rest generalizing message text with
  | nil => simp
  | cons next rest ih =>
    rw [List.foldl_cons, ← ih, String.intercalate_cons_cons]
    simp only [String.append_assoc]

/-! ## Merges of merges -/

/-- A merge counts as one addition, with the texts of all. -/
theorem addition?_merge (es : List Enrichment) :
    (merge es).addition? = join (es.filterMap (·.addition?)) := by
  have hblank := isBlankText_of_join (not_blank_of_mem_additions es)
  change (join _).filter _ = join _
  cases hjoin : join (es.filterMap (·.addition?)) with
  | none => rfl
  | some text => simp [hblank text hjoin]

theorem turns?_merge (es : List Enrichment) : (merge es).turns? = es.findSome? (·.turns?) := by
  change (es.findSome? _).filter _ = es.findSome? _
  cases hturns : es.findSome? (·.turns?) with
  | none => rfl
  | some turns =>
    obtain ⟨e, -, he⟩ := List.exists_of_findSome?_eq_some hturns
    exact Option.filter_eq_some_iff.mpr ⟨rfl, (Option.filter_eq_some_iff.mp he).2⟩

theorem merge_flatten (groups : List (List Enrichment)) :
    merge groups.flatten = merge (groups.map merge) := by
  rw [merge, merge, Enrichment.mk.injEq]
  constructor
  · calc join (groups.flatten.filterMap (·.addition?))
        = join ((groups.map fun es => es.filterMap (·.addition?)).filterMap join) := by
          rw [List.filterMap_flatten, join_flatten]
      _ = join ((groups.map merge).filterMap (·.addition?)) := by
          simp only [List.filterMap_map, Function.comp_def, addition?_merge]
  · calc groups.flatten.findSome? (·.turns?)
        = groups.findSome? fun es => es.findSome? (·.turns?) := by
          simp only [← List.head?_filterMap, List.filterMap_flatten, List.head?_flatten]
          rw [List.filterMap_map, Function.comp_def]
      _ = (groups.map merge).findSome? (·.turns?) := by
          simp only [List.findSome?_map, Function.comp_def, turns?_merge]

theorem assemble_merge (message : String) (es : List Enrichment) :
    assemble message (merge es).context =
      (es.filterMap (·.addition?)).foldl (fun text addition => text ++ "\n\n" ++ addition)
        message := by
  refine (assemble_join message (not_blank_of_mem_additions es)).trans ?_
  cases es.filterMap (·.addition?) with
  | nil => rfl
  | cons text rest => exact append_intercalate message text rest

/-- Merging in groups is merging at once; enrichments that have nothing to add change nothing, and
neither does merging what is merged. The message comes first in what is assembled, and every text
that is not blank follows it in order, after a blank line. -/
theorem merge_respects_grouping (groups : List (List Enrichment)) (es : List Enrichment)
    (message : String) :
    merge groups.flatten = merge (groups.map merge) ∧
      merge (es.filter fun e => ¬e.IsIdle) = merge es ∧
      merge [merge es] = merge es ∧
      assemble message (merge es).context =
        ((es.filterMap (·.context)).filter fun text => !Text.isBlankText text).foldl
          (fun text addition => text ++ "\n\n" ++ addition) message := by
  refine ⟨merge_flatten groups, merge_filter_not_idle es, ?_, ?_⟩
  · simpa using (merge_flatten [es]).symm
  · rw [assemble_merge, additions_eq]

end ChatRelay.Enrichment
