import ChatRelay.Text.Blank
import ChatRelay.Text.Fold
import ChatRelay.Text.Word

/-!
# Word characters and case

Case does not tell word characters from others: folding maps word characters to word characters and
leaves the rest alone. The tables are gone through run by run, and one by one only where a run has
gaps. White space is no word character.
-/

namespace ChatRelay.Text

/-! ## Word characters by code point -/

/-- The word characters of ASCII, as first and last code point of each run. -/
def asciiSpans : List (Nat × Nat) := [(0x30, 0x39), (0x41, 0x5A), (0x5F, 0x5F), (0x61, 0x7A)]

/-- Whether one run of word characters holds all code points from the first to the last. It
compares by `Nat.ble`, which the kernel computes at once: the tables are gone through there. -/
def inSpan (first last : Nat) : Bool :=
  (asciiSpans ++ wordRanges).any fun (a, b) => a.ble first && last.ble b

theorem inSpan_eq (first last : Nat) :
    inSpan first last = (asciiSpans ++ wordRanges).any fun (a, b) => a ≤ first && last ≤ b := by
  have hble : ∀ m n : Nat, m.ble n = decide (m ≤ n) := fun m n => by
    rw [Bool.eq_iff_iff, Nat.ble_eq, decide_eq_true_eq]
  simp only [inSpan, hble]

theorem isAsciiWord_eq (c : Char) :
    isAsciiWord c = asciiSpans.any fun (a, b) => a ≤ c.toNat && c.toNat ≤ b := by
  have hunderscore : c = '_' ↔ c.toNat = 95 :=
    ⟨fun h => h ▸ rfl, fun h => Char.toNat_inj.mp h⟩
  rw [Bool.eq_iff_iff]
  change (((decide (c.val ≥ 65 ∧ c.val ≤ 90) || (c.val ≥ 97 && c.val ≤ 122)) ||
    (c.val ≥ 48 && c.val ≤ 57)) || c == '_') = true ↔ _
  simp only [Bool.or_eq_true, Bool.and_eq_true, decide_eq_true_eq, beq_iff_eq, hunderscore,
    ge_iff_le, UInt32.le_iff_toNat_le, asciiSpans, List.any_cons, List.any_nil, Bool.or_false]
  change (((65 ≤ c.toNat ∧ c.toNat ≤ 90) ∨ (97 ≤ c.toNat ∧ c.toNat ≤ 122)) ∨
    (48 ≤ c.toNat ∧ c.toNat ≤ 57)) ∨ c.toNat = 95 ↔ _
  omega

theorem asciiSpans_lt : ∀ s ∈ asciiSpans, s.2 < 128 := by decide

theorem le_wordRanges : ∀ s ∈ wordRanges, 128 ≤ s.1 := by decide +kernel

theorem isWord_eq (c : Char) : isWord c = inSpan c.toNat c.toNat := by
  rw [inSpan_eq, List.any_append, isWord]
  split
  · next hlow =>
    have hnone : (wordRanges.any fun (a, b) => a ≤ c.toNat && c.toNat ≤ b) = false := by
      rw [List.any_eq_false]
      intro s hs
      have := le_wordRanges s hs
      simp only [Bool.and_eq_true, decide_eq_true_eq, not_and]
      omega
    rw [hnone, Bool.or_false, isAsciiWord_eq]
  · next hhigh =>
    have hnone : (asciiSpans.any fun (a, b) => a ≤ c.toNat && c.toNat ≤ b) = false := by
      rw [List.any_eq_false]
      intro s hs
      have := asciiSpans_lt s hs
      simp only [Bool.and_eq_true, decide_eq_true_eq, not_and]
      omega
    rw [hnone, Bool.false_or]

theorem inSpan_mono {first last a b : Nat} (h : inSpan first last = true) (ha : first ≤ a)
    (hb : b ≤ last) : inSpan a b = true := by
  rw [inSpan_eq, List.any_eq_true] at h ⊢
  obtain ⟨s, hs, hspan⟩ := h
  refine ⟨s, hs, ?_⟩
  simp only [Bool.and_eq_true, decide_eq_true_eq] at hspan ⊢
  omega

/-! ## Folding -/

/-- Whether every `step`-th code point from the first to the last is a word character. -/
def stepsInSpan (first last step : Nat) : Bool :=
  inSpan first last ||
    (List.range ((last - first) / step + 1)).all fun k =>
      inSpan (first + k * step) (first + k * step)

/-- Whether a run folds word characters to word characters, all of them code points. -/
def FoldRun.keepsWords (r : FoldRun) : Bool :=
  stepsInSpan r.first r.last r.step &&
    stepsInSpan r.target (r.target + (r.last - r.first)) r.step &&
    (r.target + (r.last - r.first) < 0xD800 ||
      0xDFFF < r.target && r.target + (r.last - r.first) < 0x110000)

theorem foldRuns_keepWords : ∀ r ∈ foldRuns, r.keepsWords = true := by decide +kernel

theorem inSpan_of_stepsInSpan {first last step n : Nat} (h : stepsInSpan first last step = true)
    (hfirst : first ≤ n) (hlast : n ≤ last) (hstep : (n - first) % step = 0) :
    inSpan n n = true := by
  rw [stepsInSpan, Bool.or_eq_true] at h
  rcases h with h | h
  · exact inSpan_mono h hfirst hlast
  · have hn : first + (n - first) / step * step = n := by
      have := Nat.div_add_mod' (n - first) step
      omega
    have hmem : (n - first) / step ∈ List.range ((last - first) / step + 1) := by
      have := Nat.div_le_div_right (c := step) (Nat.sub_le_sub_right hlast first)
      exact List.mem_range.mpr (by omega)
    have := List.all_eq_true.mp h _ hmem
    rwa [hn] at this

theorem FoldRun.isWord_of_covers {r : FoldRun} (hr : r.keepsWords = true) {c : Char}
    (hc : r.covers c.toNat = true) :
    isWord c = true ∧ isWord (Char.ofNat (r.image c.toNat)) = true := by
  simp only [FoldRun.keepsWords, Bool.and_eq_true, Bool.or_eq_true, decide_eq_true_eq] at hr
  simp only [FoldRun.covers, Bool.and_eq_true, decide_eq_true_eq, beq_iff_eq] at hc
  obtain ⟨⟨hfrom, hto⟩, hvalid⟩ := hr
  obtain ⟨⟨hfirst, hlast⟩, hstep⟩ := hc
  have hcode : (Char.ofNat (r.image c.toNat)).toNat = r.image c.toNat := by
    have hchar : (r.image c.toNat).isValidChar := by
      simp only [Nat.isValidChar, FoldRun.image]
      omega
    rw [Char.ofNat, dif_pos hchar]
    rfl
  rw [isWord_eq, isWord_eq, hcode]
  refine ⟨inSpan_of_stepsInSpan hfrom hfirst hlast hstep, ?_⟩
  have himage : r.target + (c.toNat - r.first) = r.image c.toNat := Nat.add_comm ..
  rw [← himage]
  refine inSpan_of_stepsInSpan hto (Nat.le_add_right ..) (by omega) ?_
  rwa [Nat.add_sub_cancel_left]

/-- What stands for a character up to case is a word character if and only if the character is. -/
theorem isWord_fold (c : Char) : isWord (fold c) = isWord c := by
  rw [fold]
  split
  · next r hr =>
    have hkeeps := foldRuns_keepWords r (List.mem_of_find?_eq_some hr)
    have hcovers : r.covers c.toNat = true := by simpa using List.find?_some hr
    obtain ⟨hc, himage⟩ := r.isWord_of_covers hkeeps hcovers
    rw [hc, himage]
  · rfl

theorem isWord_of_equalFold {c d : Char} (h : equalFold c d = true) : isWord c = isWord d := by
  rw [← isWord_fold c, ← isWord_fold d, eq_of_beq h]

/-! ## White space -/

theorem not_isWord_of_isBlank {c : Char} (h : isBlank c = true) : isWord c = false := by
  simp only [isBlank, Bool.or_eq_true, Bool.and_eq_true, decide_eq_true_eq, beq_iff_eq] at h
  have hnone : ∀ n ∈ List.range' 0x9 5 ++ [0x20, 0x85, 0xA0, 0x1680] ++ List.range' 0x2000 11 ++
      [0x2028, 0x2029, 0x202F, 0x205F, 0x3000], inSpan n n = false := by decide +kernel
  rw [isWord_eq]
  apply hnone
  simp only [List.mem_append, List.mem_range'_1, List.mem_cons, List.not_mem_nil, or_false]
  omega

theorem not_isWord_at : isWord '@' = false := by decide +kernel

end ChatRelay.Text
