import ChatRelay.Proofs.Text.WordCase
import ChatRelay.Text.Mention
import Mathlib.Data.List.Chain
import Mathlib.Data.List.TakeWhile

/-!
# Gaps and edges

Shrinking gaps leaves every character but blanks and tabs, and no two of these side by side;
trimming takes white space off both ends and nothing else. A text that is tidy in this sense is left
as it is.
-/

namespace ChatRelay.Text

/-! ## Runs of blanks and tabs -/

theorem head?_dropWhile_false {p : Char → Bool} (cs : List Char) :
    ∀ c ∈ (cs.dropWhile p).head?, p c = false := by
  intro c hc
  have := List.head?_dropWhile_not p cs
  simpa [Option.mem_def.mp hc] using this

/-- The second text is the first one with every run of two or more blanks or tabs made one blank. -/
inductive Condenses : List Char → List Char → Prop
  | nil : Condenses [] []
  | other {c : Char} {cs ds : List Char} (hc : isGap c = false) (h : Condenses cs ds) :
      Condenses (c :: cs) (c :: ds)
  | lone {c : Char} {cs ds : List Char} (hc : isGap c = true)
      (hcs : ∀ d ∈ cs.head?, isGap d = false) (h : Condenses cs ds) : Condenses (c :: cs) (c :: ds)
  | wide {gaps cs ds : List Char} (hlen : 2 ≤ gaps.length) (hgaps : ∀ c ∈ gaps, isGap c = true)
      (hcs : ∀ d ∈ cs.head?, isGap d = false) (h : Condenses cs ds) :
      Condenses (gaps ++ cs) (' ' :: ds)

theorem shrinkGaps_of_head {gap : Gap} {cs : List Char} (h : ∀ d ∈ cs.head?, isGap d = false) :
    shrinkGaps gap cs = gap.chars ++ shrinkGaps .none cs := by
  cases cs with
  | nil => simp [shrinkGaps, Gap.chars]
  | cons c cs =>
    have hc : isGap c = false := h c rfl
    simp [shrinkGaps, hc, Gap.chars]

theorem shrinkGaps_wide {gaps : List Char} (hgaps : ∀ c ∈ gaps, isGap c = true) (cs : List Char) :
    shrinkGaps .wide (gaps ++ cs) = shrinkGaps .wide cs := by
  induction gaps with
  | nil => rfl
  | cons c gaps ih =>
    obtain ⟨hc, hgaps⟩ := List.forall_mem_cons.mp hgaps
    rw [List.cons_append, shrinkGaps, if_pos hc]
    exact ih hgaps

theorem condenses_shrinkGaps (cs : List Char) : Condenses cs (shrinkGaps .none cs) := by
  induction hlen : cs.length using Nat.strongRecOn generalizing cs with
  | ind n ih =>
    cases cs with
    | nil => exact .nil
    | cons c rest =>
      cases hc : isGap c with
      | false =>
        have hrest := ih rest.length (by simp [← hlen]) rest rfl
        simpa [shrinkGaps, hc, Gap.chars] using Condenses.other hc hrest
      | true =>
        -- the run goes on for as long as there are blanks and tabs
        have hsplit : rest.takeWhile isGap ++ rest.dropWhile isGap = rest :=
          List.takeWhile_append_dropWhile
        have hgaps : ∀ d ∈ rest.takeWhile isGap, isGap d = true := fun d => List.mem_takeWhile_imp
        have hhead : ∀ d ∈ (rest.dropWhile isGap).head?, isGap d = false :=
          head?_dropWhile_false rest
        have hafter := ih (rest.dropWhile isGap).length
          (by have := List.length_dropWhile_le isGap rest; simp [← hlen]; omega) _ rfl
        rw [shrinkGaps, if_pos hc, ← hsplit]
        generalize rest.takeWhile isGap = gaps at hgaps
        generalize rest.dropWhile isGap = after at hhead hafter
        cases gaps with
        | nil =>
          rw [List.nil_append, shrinkGaps_of_head hhead]
          exact .lone hc hhead hafter
        | cons d gaps =>
          obtain ⟨hd, hgaps'⟩ := List.forall_mem_cons.mp hgaps
          have hrun : shrinkGaps (Gap.add .none c) (d :: gaps ++ after) =
              ' ' :: shrinkGaps .none after := by
            rw [List.cons_append, shrinkGaps, if_pos hd]
            exact (shrinkGaps_wide hgaps' after).trans (shrinkGaps_of_head hhead)
          rw [hrun]
          exact .wide (by simp) (List.forall_mem_cons.mpr ⟨hc, hgaps⟩) hhead hafter

/-- No two blanks or tabs stand side by side. -/
def IsThin (cs : List Char) : Prop := cs.IsChain fun a b => isGap a = false ∨ isGap b = false

theorem Condenses.head_notGap {cs ds : List Char} (h : Condenses cs ds)
    (hcs : ∀ c ∈ cs.head?, isGap c = false) : ∀ d ∈ ds.head?, isGap d = false := by
  cases h with
  | nil => exact hcs
  | other _ _ => exact hcs
  | lone _ _ _ => exact hcs
  | @wide gaps cs ds hlen hgaps _ _ =>
    obtain ⟨c, gaps, rfl⟩ := List.exists_cons_of_length_pos (Nat.lt_of_lt_of_le Nat.two_pos hlen)
    have := hcs c rfl
    simp [hgaps c List.mem_cons_self] at this

theorem Condenses.isThin {cs ds : List Char} (h : Condenses cs ds) : IsThin ds := by
  induction h with
  | nil => exact .nil
  | other hc _ ih => exact ih.cons fun _ _ => .inl hc
  | lone _ hcs h ih => exact ih.cons fun d hd => .inr (h.head_notGap hcs d hd)
  | wide _ _ hcs h ih => exact ih.cons fun d hd => .inr (h.head_notGap hcs d hd)

theorem Condenses.length_le {cs ds : List Char} (h : Condenses cs ds) : ds.length ≤ cs.length := by
  induction h with
  | nil => exact Nat.le_refl _
  | other _ _ ih => simpa using ih
  | lone _ _ _ ih => simpa using ih
  | wide hlen _ _ _ ih =>
    simp only [List.length_cons, List.length_append]
    omega

theorem IsThin.shrinkGaps_eq {cs : List Char} (h : IsThin cs) : shrinkGaps .none cs = cs := by
  induction cs with
  | nil => rfl
  | cons c rest ih =>
    obtain ⟨hhead, hrest⟩ := List.isChain_cons.mp h
    cases hc : isGap c with
    | false => simp [shrinkGaps, hc, Gap.chars, ih hrest]
    | true =>
      have hnot : ∀ d ∈ rest.head?, isGap d = false := fun d hd => by simpa [hc] using hhead d hd
      rw [shrinkGaps, if_pos hc, shrinkGaps_of_head hnot, ih hrest]
      rfl

/-! ## Edges -/

theorem exists_trimBy (p : Char → Bool) (cs : List Char) : ∃ lead trail,
    cs = lead ++ trimBy p cs ++ trail ∧ (∀ c ∈ lead, p c = true) ∧ ∀ c ∈ trail, p c = true := by
  refine ⟨cs.takeWhile p, ((cs.dropWhile p).reverse.takeWhile p).reverse, ?_, ?_, ?_⟩
  · rw [trimBy, List.append_assoc, ← List.reverse_append, List.takeWhile_append_dropWhile,
      List.reverse_reverse, List.takeWhile_append_dropWhile]
  · exact fun c => List.mem_takeWhile_imp
  · exact fun c hc => List.mem_takeWhile_imp (List.mem_reverse.mp hc)

theorem getLast?_trimBy_false {p : Char → Bool} (cs : List Char) :
    ∀ c ∈ (trimBy p cs).getLast?, p c = false := by
  rw [trimBy, List.getLast?_reverse]
  exact head?_dropWhile_false _

theorem head?_trimBy_false {p : Char → Bool} (cs : List Char) :
    ∀ c ∈ (trimBy p cs).head?, p c = false := by
  intro c hc
  have hprefix : trimBy p cs <+: cs.dropWhile p := by
    rw [trimBy, ← List.reverse_suffix, List.reverse_reverse]
    exact List.dropWhile_suffix p
  obtain ⟨rest, hrest⟩ := hprefix
  apply head?_dropWhile_false cs
  rw [← hrest, List.head?_append, Option.mem_def.mp hc]
  rfl

theorem dropWhile_eq_self {p : Char → Bool} {cs : List Char} (h : ∀ c ∈ cs.head?, p c = false) :
    cs.dropWhile p = cs := by
  cases cs with
  | nil => rfl
  | cons c cs => rw [List.dropWhile_cons_of_neg (by simp [h c rfl])]

/-- What is trimmed off is all that satisfies `p` at the ends. -/
theorem trimBy_append {p : Char → Bool} {lead cs trail : List Char} (hlead : ∀ c ∈ lead, p c = true)
    (htrail : ∀ c ∈ trail, p c = true) (hhead : ∀ c ∈ cs.head?, p c = false)
    (hlast : ∀ c ∈ cs.getLast?, p c = false) : trimBy p (lead ++ cs ++ trail) = cs := by
  have hafter : ∀ c ∈ trail.reverse, p c = true := fun c hc => htrail c (List.mem_reverse.mp hc)
  rw [trimBy, List.append_assoc, List.dropWhile_append_of_pos hlead]
  cases cs with
  | nil =>
    have hnone : trail.dropWhile p = [] := List.dropWhile_eq_nil_iff.mpr htrail
    rw [List.nil_append, hnone]
    rfl
  | cons c cs =>
    have hstart : (c :: cs ++ trail).dropWhile p = c :: cs ++ trail :=
      dropWhile_eq_self fun d hd => hhead d hd
    have hend : (c :: cs).reverse.dropWhile p = (c :: cs).reverse :=
      dropWhile_eq_self (by rwa [List.head?_reverse])
    rw [hstart, List.reverse_append, List.dropWhile_append_of_pos hafter, hend,
      List.reverse_reverse]

theorem trimBy_eq_self {p : Char → Bool} {cs : List Char} (hhead : ∀ c ∈ cs.head?, p c = false)
    (hlast : ∀ c ∈ cs.getLast?, p c = false) : trimBy p cs = cs := by
  simpa using @trimBy_append p [] cs [] (by simp) (by simp) hhead hlast

/-! ## Tidy texts -/

/-- Shrink the gaps of a text and trim what is left. -/
def tidy (cs : List Char) : List Char := trimBy isBlank (shrinkGaps .none cs)

/-- No two blanks or tabs stand side by side, and no white space at either end. -/
structure IsTidy (cs : List Char) : Prop where
  thin : IsThin cs
  head : ∀ c ∈ cs.head?, isBlank c = false
  last : ∀ c ∈ cs.getLast?, isBlank c = false

theorem isTidy_tidy (cs : List Char) : IsTidy (tidy cs) := by
  refine ⟨?_, head?_trimBy_false _, getLast?_trimBy_false _⟩
  obtain ⟨lead, trail, hsplit, -, -⟩ := exists_trimBy isBlank (shrinkGaps .none cs)
  exact List.IsChain.infix (condenses_shrinkGaps cs).isThin ⟨lead, trail, hsplit.symm⟩

theorem IsTidy.tidy_eq {cs : List Char} (h : IsTidy cs) : tidy cs = cs := by
  rw [tidy, h.thin.shrinkGaps_eq, trimBy_eq_self h.head h.last]

theorem length_tidy_le (cs : List Char) : (tidy cs).length ≤ cs.length := by
  obtain ⟨lead, trail, hsplit, -, -⟩ := exists_trimBy isBlank (shrinkGaps .none cs)
  have hlen := congrArg List.length hsplit
  simp only [List.length_append] at hlen
  have := (condenses_shrinkGaps cs).length_le
  rw [tidy]
  omega

end ChatRelay.Text
