import ChatRelay.Batch.Merge
import Mathlib.Data.List.Induction
import Mathlib.Tactic.Tauto

/-!
# Batches and the lists they are made of

Nothing is lost when a batch is made: what is left out repeats a message that is kept. A batch is
told by its messages of each time, in their order. So two lists make the same batch exactly if they
keep the same messages of every time in the same order, and making a batch of the end of a list
beforehand changes nothing.
-/

namespace ChatRelay.Batch

/-! ## Source ids -/

theorem mem_sourceIds {ms : List Pending} {id : String} :
    id ∈ sourceIds ms ↔ id ≠ "" ∧ ∃ m ∈ ms, m.sourceId = id := by
  simp only [sourceIds, List.mem_filter, List.mem_map, decide_eq_true_eq]
  tauto

theorem sourceIds_append (ms ns : List Pending) :
    sourceIds (ms ++ ns) = sourceIds ms ++ sourceIds ns := by simp [sourceIds]

/-- A message with no source id, or with one that has not been met. -/
def IsFresh (met : List String) (m : Pending) : Prop := m.sourceId = "" ∨ m.sourceId ∉ met

instance (met : List String) (m : Pending) : Decidable (IsFresh met m) :=
  inferInstanceAs (Decidable (_ ∨ _))

theorem IsFresh.cons {met : List String} {id : String} {m : Pending} :
    IsFresh (id :: met) m ↔ IsFresh met m ∧ (m.sourceId = "" ∨ m.sourceId ≠ id) := by
  simp only [IsFresh, List.mem_cons, not_or]
  tauto

theorem IsFresh.append {met met' : List String} {m : Pending} :
    IsFresh (met ++ met') m ↔ IsFresh met m ∧ IsFresh met' m := by
  simp only [IsFresh, List.mem_append, not_or]
  tauto

/-! ## Dropping repeats -/

/-- Only the ids that were met matter, and the empty one never does. -/
theorem dedupe_congr {met met' : List String} (h : ∀ id, id ≠ "" → (id ∈ met ↔ id ∈ met'))
    (ms : List Pending) : dedupe met ms = dedupe met' ms := by
  induction ms generalizing met met' with
  | nil => rfl
  | cons m ms ih =>
    by_cases he : m.sourceId = ""
    · simp [dedupe, he, ih h]
    · have hm := h _ he
      by_cases hmem : m.sourceId ∈ met
      · simp [dedupe, he, hmem, hm.mp hmem, ih h]
      · have hrest : dedupe (m.sourceId :: met) ms = dedupe (m.sourceId :: met') ms := by
          apply ih
          intro id hid
          rw [List.mem_cons, List.mem_cons, h id hid]
        simp [dedupe, he, hmem, mt hm.mpr hmem, hrest]

theorem dedupe_cons (met : List String) (m : Pending) (ms : List Pending) :
    dedupe met (m :: ms) =
      if IsFresh met m then m :: dedupe (m.sourceId :: met) ms else dedupe met ms := by
  by_cases he : m.sourceId = ""
  · have hskip : dedupe ("" :: met) ms = dedupe met ms :=
      dedupe_congr (fun id hid => by simp [hid]) ms
    simp [dedupe, IsFresh, he, hskip]
  · by_cases hm : m.sourceId ∈ met <;> simp [dedupe, IsFresh, he, hm]

theorem dedupe_append (met : List String) (ms ns : List Pending) :
    dedupe met (ms ++ ns) = dedupe met ms ++ dedupe (sourceIds ms ++ met) ns := by
  induction ms generalizing met with
  | nil => rfl
  | cons m ms ih =>
    rw [List.cons_append, dedupe_cons, dedupe_cons]
    have hids : ∀ id, id ≠ "" →
        (id ∈ sourceIds (m :: ms) ↔ id = m.sourceId ∨ id ∈ sourceIds ms) := by
      intro id hid
      simp only [mem_sourceIds, List.mem_cons, exists_eq_or_imp]
      tauto
    split
    · rw [ih, List.cons_append]
      congr 2
      refine dedupe_congr (fun id hid => ?_) ns
      rw [List.mem_append, List.mem_append, hids id hid, List.mem_cons]
      tauto
    · next hmet =>
      rw [ih]
      congr 1
      refine dedupe_congr (fun id hid => ?_) ns
      have hmem : m.sourceId ∈ met := by
        unfold IsFresh at hmet
        tauto
      rw [List.mem_append, List.mem_append, hids id hid]
      constructor
      · tauto
      · rintro ((rfl | h) | h)
        · exact .inr hmem
        · exact .inl h
        · exact .inr h

theorem dedupe_sublist (met : List String) (ms : List Pending) : (dedupe met ms).Sublist ms := by
  induction ms generalizing met with
  | nil => exact List.Sublist.refl _
  | cons m ms ih =>
    rw [dedupe_cons]
    split
    · exact (ih _).cons_cons m
    · exact (ih _).cons m

theorem isFresh_of_mem_dedupe {met : List String} {ms : List Pending} {m : Pending}
    (h : m ∈ dedupe met ms) : IsFresh met m := by
  induction ms generalizing met with
  | nil => simp [dedupe] at h
  | cons n ms ih =>
    rw [dedupe_cons] at h
    split at h
    · next hn =>
      rcases List.mem_cons.mp h with rfl | h
      · exact hn
      · exact (IsFresh.cons.mp (ih h)).1
    · exact ih h

theorem dedupe_append_met (met met' : List String) (ms : List Pending) :
    dedupe (met ++ met') ms = (dedupe met' ms).filter (IsFresh met) := by
  induction ms generalizing met' with
  | nil => rfl
  | cons m ms ih =>
    rw [dedupe_cons, dedupe_cons]
    by_cases h' : IsFresh met' m
    · have hmid : dedupe (met ++ m.sourceId :: met') ms =
          (dedupe (m.sourceId :: met') ms).filter (IsFresh met) := ih _
      by_cases h : IsFresh met m
      · rw [if_pos (IsFresh.append.mpr ⟨h, h'⟩), if_pos h',
          List.filter_cons_of_pos (by simpa using h), ← hmid]
        congr 1
        refine dedupe_congr (fun id _ => ?_) ms
        simp only [List.mem_cons, List.mem_append]
        tauto
      · rw [if_neg (fun hh => h (IsFresh.append.mp hh).1), if_pos h',
          List.filter_cons_of_neg (by simpa using h), ← hmid]
        refine dedupe_congr (fun id _ => ?_) ms
        have hmem : m.sourceId ∈ met := by
          unfold IsFresh at h
          tauto
        simp only [List.mem_cons, List.mem_append]
        constructor
        · tauto
        · rintro (h | rfl | h)
          · exact .inl h
          · exact .inl hmem
          · exact .inr h
    · rw [if_neg (fun hh => h' (IsFresh.append.mp hh).2), if_neg h']
      exact ih met'

/-- Dropping the repeats of ids met before is the same as dropping those within the list first. -/
theorem dedupe_eq_filter (met : List String) (ms : List Pending) :
    dedupe met ms = (dedupe [] ms).filter (IsFresh met) := by
  simpa using dedupe_append_met met [] ms

theorem mem_sourceIds_dedupe {ms : List Pending} {id : String} :
    id ∈ sourceIds (dedupe [] ms) ↔ id ∈ sourceIds ms := by
  induction ms with
  | nil => rfl
  | cons m ms ih =>
    rw [dedupe_cons, if_pos (by simp [IsFresh]), dedupe_eq_filter]
    rw [mem_sourceIds] at ih ⊢
    rw [mem_sourceIds] at ih ⊢
    simp only [List.mem_cons, List.mem_filter, exists_eq_or_imp]
    constructor
    · rintro ⟨hne, hm | ⟨n, ⟨hn, -⟩, hid⟩⟩
      · exact ⟨hne, .inl hm⟩
      · exact ⟨hne, .inr (ih.mp ⟨hne, n, hn, hid⟩).2⟩
    · rintro ⟨hne, hm | hmem⟩
      · exact ⟨hne, .inl hm⟩
      · obtain ⟨n, hn, hid⟩ := (ih.mpr ⟨hne, hmem⟩).2
        by_cases hm : m.sourceId = id
        · exact ⟨hne, .inl hm⟩
        · refine ⟨hne, .inr ⟨n, ⟨hn, ?_⟩, hid⟩⟩
          simp [IsFresh, hid, Ne.symm hm]

def DistinctIds (ms : List Pending) : Prop :=
  ms.Pairwise fun a b => b.sourceId = "" ∨ b.sourceId ≠ a.sourceId

theorem distinctIds_dedupe (met : List String) (ms : List Pending) :
    DistinctIds (dedupe met ms) := by
  induction ms generalizing met with
  | nil => exact List.Pairwise.nil
  | cons m ms ih =>
    rw [dedupe_cons]
    split
    · exact List.pairwise_cons.mpr
        ⟨fun n hn => (IsFresh.cons.mp (isFresh_of_mem_dedupe hn)).2, ih _⟩
    · exact ih met

theorem DistinctIds.dedupe_eq {ms : List Pending} (h : DistinctIds ms) : dedupe [] ms = ms := by
  induction ms with
  | nil => rfl
  | cons m ms ih =>
    obtain ⟨hm, hms⟩ := List.pairwise_cons.mp h
    rw [dedupe_cons, if_pos (by simp [IsFresh]), dedupe_eq_filter, ih hms]
    congr 1
    apply List.filter_eq_self.mpr
    intro n hn
    simpa [IsFresh] using hm n hn

theorem DistinctIds.of_append {ms ns : List Pending} (h : DistinctIds (ms ++ ns)) :
    DistinctIds ns := (List.pairwise_append.mp h).2.1

theorem DistinctIds.perm {ms ns : List Pending} (h : DistinctIds ms) (hp : ms.Perm ns) :
    DistinctIds ns := by
  refine List.Perm.pairwise hp h fun {a b} hab => ?_
  rcases hab with hb | hne
  · by_cases ha : a.sourceId = ""
    · exact .inl ha
    · exact .inr fun heq => ha (heq.trans hb)
  · exact .inr (Ne.symm hne)

/-- The repeats that are dropped are the messages that are not kept. -/
theorem dedupe_repeats_perm (met : List String) (ms : List Pending) :
    (dedupe met ms ++ repeats met ms).Perm ms := by
  induction ms generalizing met with
  | nil => exact List.Perm.refl _
  | cons m ms ih =>
    by_cases he : m.sourceId = ""
    · simpa [dedupe, repeats, he] using ih met
    · by_cases hm : m.sourceId ∈ met
      · simp only [dedupe, repeats, he, hm, if_true, if_false]
        exact List.perm_middle.trans ((ih met).cons m)
      · simpa [dedupe, repeats, he, hm] using ih (m.sourceId :: met)

theorem mem_repeats {met : List String} {ms : List Pending} {m : Pending}
    (h : m ∈ repeats met ms) :
    m.sourceId ≠ "" ∧ (m.sourceId ∈ met ∨ ∃ kept ∈ dedupe met ms, kept.sourceId = m.sourceId) := by
  induction ms generalizing met with
  | nil => simp [repeats] at h
  | cons n ms ih =>
    by_cases he : n.sourceId = ""
    · simp only [repeats, he, if_true] at h
      simpa [dedupe, he, Ne.symm (ih h).1] using ih h
    · by_cases hn : n.sourceId ∈ met
      · simp only [repeats, he, hn, if_true, if_false, List.mem_cons] at h
        rcases h with rfl | h
        · exact ⟨he, .inl hn⟩
        · simpa [dedupe, he, hn] using ih h
      · simp only [repeats, he, hn, if_false] at h
        obtain ⟨hne, hmet | ⟨kept, hkept, hid⟩⟩ := ih h
        · rcases List.mem_cons.mp hmet with heq | hmet
          · exact ⟨hne, .inr ⟨n, by simp [dedupe, he, hn], heq.symm⟩⟩
          · exact ⟨hne, .inl hmet⟩
        · exact ⟨hne, .inr ⟨kept, by simp [dedupe, he, hn, hkept], hid⟩⟩

/-! ## Order by time -/

def atTime (t : Int) (ms : List Pending) : List Pending := ms.filter (·.enqueuedAt = t)

theorem mem_atTime {t : Int} {ms : List Pending} {m : Pending} :
    m ∈ atTime t ms ↔ m ∈ ms ∧ m.enqueuedAt = t := by simp [atTime]

theorem atTime_append (t : Int) (ms ns : List Pending) :
    atTime t (ms ++ ns) = atTime t ms ++ atTime t ns := List.filter_append ..

theorem atTime_singleton (t : Int) (m : Pending) :
    atTime t [m] = if m.enqueuedAt = t then [m] else [] := by
  by_cases h : m.enqueuedAt = t <;> simp [atTime, h]

theorem atTime_filter (t : Int) (p : Pending → Bool) (ms : List Pending) :
    atTime t (ms.filter p) = (atTime t ms).filter p := by
  simp [atTime, List.filter_filter, Bool.and_comm]

def InOrder (ms : List Pending) : Prop := ms.Pairwise (·.enqueuedAt ≤ ·.enqueuedAt)

theorem insert_perm (m : Pending) (ms : List Pending) : (insert m ms).Perm (ms ++ [m]) := by
  induction ms with
  | nil => exact List.Perm.refl _
  | cons n ms ih =>
    rw [insert]
    split
    · exact ih.cons n
    · exact (List.perm_append_singleton m (n :: ms)).symm

theorem InOrder.insert {ms : List Pending} (h : InOrder ms) (m : Pending) :
    InOrder (insert m ms) := by
  induction ms with
  | nil => exact List.pairwise_singleton ..
  | cons n ms ih =>
    obtain ⟨hn, hms⟩ := List.pairwise_cons.mp h
    rw [Batch.insert]
    split
    · next hle =>
      refine List.pairwise_cons.mpr ⟨fun a ha => ?_, ih hms⟩
      rcases List.mem_append.mp ((insert_perm m ms).mem_iff.mp ha) with ha | ha
      · exact hn a ha
      · rw [List.mem_singleton] at ha
        exact ha ▸ hle
    · next hlt =>
      refine List.pairwise_cons.mpr ⟨fun a ha => ?_, h⟩
      rcases List.mem_cons.mp ha with rfl | ha
      · omega
      · have := hn a ha
        omega

theorem atTime_insert {ms : List Pending} (h : InOrder ms) (t : Int) (m : Pending) :
    atTime t (insert m ms) = atTime t (ms ++ [m]) := by
  induction ms with
  | nil => rfl
  | cons n ms ih =>
    obtain ⟨hn, hms⟩ := List.pairwise_cons.mp h
    rw [insert]
    split
    · have hcons : ∀ ns : List Pending, atTime t (n :: ns) = atTime t [n] ++ atTime t ns :=
        fun ns => atTime_append t [n] ns
      rw [hcons (insert m ms), ih hms, List.cons_append, hcons (ms ++ [m])]
    · next hlt =>
      -- whatever is behind the new message is later than it
      have hlater : m.enqueuedAt = t → atTime t (n :: ms) = [] := by
        intro ht
        apply List.filter_eq_nil_iff.mpr
        intro a ha
        have : n.enqueuedAt ≤ a.enqueuedAt := by
          rcases List.mem_cons.mp ha with rfl | ha
          · exact Int.le_refl _
          · exact hn a ha
        simp only [decide_eq_true_eq]
        omega
      have hm : atTime t (m :: n :: ms) = atTime t [m] ++ atTime t (n :: ms) :=
        atTime_append t [m] (n :: ms)
      rw [hm, atTime_append, atTime_singleton]
      by_cases ht : m.enqueuedAt = t
      · simp [ht, hlater ht]
      · simp [ht]

theorem sortByTime_append_single (ms : List Pending) (m : Pending) :
    sortByTime (ms ++ [m]) = insert m (sortByTime ms) := by simp [sortByTime]

theorem sortByTime_perm (ms : List Pending) : (sortByTime ms).Perm ms := by
  induction ms using List.reverseRecOn with
  | nil => exact List.Perm.refl _
  | append_singleton ms m ih =>
    rw [sortByTime_append_single]
    exact (insert_perm m _).trans (ih.append_right [m])

theorem inOrder_sortByTime (ms : List Pending) : InOrder (sortByTime ms) := by
  induction ms using List.reverseRecOn with
  | nil => exact List.Pairwise.nil
  | append_singleton ms m ih =>
    rw [sortByTime_append_single]
    exact ih.insert m

/-- Sorting is stable. -/
theorem atTime_sortByTime (t : Int) (ms : List Pending) :
    atTime t (sortByTime ms) = atTime t ms := by
  induction ms using List.reverseRecOn with
  | nil => rfl
  | append_singleton ms m ih =>
    rw [sortByTime_append_single, atTime_insert (inOrder_sortByTime ms), atTime_append, ih,
      atTime_append]

theorem InOrder.head_le {m n : Pending} {ms ns : List Pending} (h : InOrder (m :: ms))
    (ht : ∀ t, atTime t (m :: ms) = atTime t (n :: ns)) : m.enqueuedAt ≤ n.enqueuedAt := by
  have hn : n ∈ atTime n.enqueuedAt (m :: ms) := by
    rw [ht]
    exact mem_atTime.mpr ⟨List.mem_cons_self, rfl⟩
  rcases List.mem_cons.mp (mem_atTime.mp hn).1 with rfl | hmem
  · exact Int.le_refl _
  · exact (List.pairwise_cons.mp h).1 n hmem

/-- A list in order is told by its messages of each time. -/
theorem InOrder.eq_of_atTime {ms ns : List Pending} (hms : InOrder ms) (hns : InOrder ns)
    (ht : ∀ t, atTime t ms = atTime t ns) : ms = ns := by
  induction ms generalizing ns with
  | nil =>
    cases ns with
    | nil => rfl
    | cons n ns =>
      have h := ht n.enqueuedAt
      simp [atTime] at h
  | cons m ms ih =>
    cases ns with
    | nil =>
      have h := ht m.enqueuedAt
      simp [atTime] at h
    | cons n ns =>
      have hmn : m.enqueuedAt = n.enqueuedAt :=
        Int.le_antisymm (hms.head_le ht) (hns.head_le fun t => (ht t).symm)
      have hcons : m = n ∧ atTime m.enqueuedAt ms = atTime m.enqueuedAt ns := by
        have h := ht m.enqueuedAt
        simpa [atTime, hmn] using h
      have htail : ∀ t, atTime t ms = atTime t ns := by
        intro t
        by_cases h : m.enqueuedAt = t
        · exact h ▸ hcons.2
        · have hn : ¬ n.enqueuedAt = t := hmn ▸ h
          simpa [atTime, h, hn] using ht t
      rw [hcons.1, ih (List.pairwise_cons.mp hms).2 (List.pairwise_cons.mp hns).2 htail]

/-! ## Batches -/

theorem normalize_eq_iff {ms ns : List Pending} :
    normalize ms = normalize ns ↔
      ∀ t, atTime t (dedupe [] ms) = atTime t (dedupe [] ns) := by
  constructor
  · intro h t
    rw [← atTime_sortByTime t (dedupe [] ms), ← atTime_sortByTime t (dedupe [] ns)]
    exact congrArg (atTime t) h
  · intro h
    apply (inOrder_sortByTime _).eq_of_atTime (inOrder_sortByTime _)
    intro t
    exact (atTime_sortByTime t _).trans ((h t).trans (atTime_sortByTime t _).symm)

theorem normalize_perm_dedupe (ms : List Pending) : (normalize ms).Perm (dedupe [] ms) :=
  sortByTime_perm _

/-- A batch and what was left out of it as repeats are what it was made of. -/
theorem normalize_repeats_perm (ms : List Pending) :
    (normalize ms ++ repeats [] ms).Perm ms :=
  ((normalize_perm_dedupe ms).append_right _).trans (dedupe_repeats_perm [] ms)

theorem mem_normalize {ms : List Pending} {m : Pending} : m ∈ normalize ms ↔ m ∈ dedupe [] ms :=
  (normalize_perm_dedupe ms).mem_iff

theorem mem_of_mem_normalize {ms : List Pending} {m : Pending} (h : m ∈ normalize ms) : m ∈ ms :=
  (dedupe_sublist [] ms).subset (mem_normalize.mp h)

theorem mem_sourceIds_normalize {ms : List Pending} {id : String} :
    id ∈ sourceIds (normalize ms) ↔ id ∈ sourceIds ms := by
  refine Iff.trans ?_ mem_sourceIds_dedupe
  rw [mem_sourceIds, mem_sourceIds]
  simp only [mem_normalize]

theorem distinctIds_normalize (ms : List Pending) : DistinctIds (normalize ms) :=
  (distinctIds_dedupe [] ms).perm (normalize_perm_dedupe ms).symm

/-- Making a batch of the end of a list beforehand changes nothing. -/
theorem normalize_append_normalize (ms ns : List Pending) :
    normalize (ms ++ normalize ns) = normalize (ms ++ ns) := by
  apply normalize_eq_iff.mpr
  intro t
  have hlate : atTime t (dedupe (sourceIds ms ++ []) (normalize ns)) =
      atTime t (dedupe (sourceIds ms ++ []) ns) := by
    rw [dedupe_eq_filter, (distinctIds_normalize ns).dedupe_eq, dedupe_eq_filter _ ns,
      atTime_filter, atTime_filter]
    exact congrArg _ (atTime_sortByTime t _)
  rw [dedupe_append, dedupe_append, atTime_append, atTime_append, hlate]

theorem normalize_normalize (ms : List Pending) : normalize (normalize ms) = normalize ms :=
  normalize_append_normalize [] ms

/-! ## Answered messages -/

theorem dropAnswered_perm (answered : List String) (ms : List Pending) :
    (dropAnswered answered ms ++ onlyAnswered answered ms).Perm ms := by
  have hnot : onlyAnswered answered ms =
      ms.filter fun m => !(m.sourceId = "" || !answered.contains m.sourceId) :=
    List.filter_congr fun m _ => by simp
  rw [hnot]
  exact List.filter_append_perm ..

theorem dropAnswered_eq_self {answered : List String} {ms : List Pending}
    (h : ∀ m ∈ ms, IsFresh answered m) : dropAnswered answered ms = ms :=
  List.filter_eq_self.mpr fun m hm => by simpa [IsFresh] using h m hm

@[simp] theorem dropAnswered_nil (ms : List Pending) : dropAnswered [] ms = ms :=
  dropAnswered_eq_self fun _ _ => .inr List.not_mem_nil

@[simp] theorem onlyAnswered_nil (ms : List Pending) : onlyAnswered [] ms = [] :=
  List.filter_eq_nil_iff.mpr fun m _ => by simp

theorem mem_onlyAnswered {answered : List String} {ms : List Pending} {m : Pending} :
    m ∈ onlyAnswered answered ms ↔ m ∈ ms ∧ m.sourceId ≠ "" ∧ m.sourceId ∈ answered := by
  simp [onlyAnswered]

end ChatRelay.Batch
