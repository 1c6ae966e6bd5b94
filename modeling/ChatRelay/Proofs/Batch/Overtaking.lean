import ChatRelay.Proofs.Batch.Normalize

/-!
# Messages that overtake others

While some messages are held, later ones gather in the list, and the held ones are put back behind
them. The batch that is made of the list is then the same as if the messages stood in the order in
which they came, unless one that came later rivals a held one: it repeats the source id of a held
message, or has the time of one without being itself a repeat.
-/

namespace ChatRelay.Batch

/-! ## One message in front of others -/

/-- Whether a message may not overtake those that are held, when it comes after some messages. -/
def Rivals (opened held : List Pending) (m : Pending) : Prop :=
  ∃ b ∈ normalize held, m.sourceId ≠ "" ∧ b.sourceId = m.sourceId ∨
    b.enqueuedAt = m.enqueuedAt ∧ IsFresh (sourceIds opened) m

instance (opened held : List Pending) (m : Pending) : Decidable (Rivals opened held m) :=
  inferInstanceAs (Decidable (∃ b ∈ normalize held, _))

theorem not_rivals_nil (opened : List Pending) (m : Pending) : ¬ Rivals opened [] m := by
  rintro ⟨b, hb, -⟩
  exact absurd hb List.not_mem_nil

variable {front held opened : List Pending} {m : Pending}

theorem rivals_of_mem_sourceIds (h : m.sourceId ∈ sourceIds held) : Rivals opened held m := by
  obtain ⟨hne, b, hb, hid⟩ := mem_sourceIds.mp (mem_sourceIds_normalize.mpr h)
  exact ⟨b, hb, .inl ⟨hne, hid⟩⟩

theorem rivals_iff_of_not_mem (h : m.sourceId ∉ sourceIds held) :
    Rivals opened held m ↔
      (∃ b ∈ dedupe [] held, b.enqueuedAt = m.enqueuedAt) ∧ IsFresh (sourceIds opened) m := by
  constructor
  · rintro ⟨b, hb, ⟨hne, hid⟩ | ⟨ht, hf⟩⟩
    · exact absurd (mem_sourceIds.mpr ⟨hne, b, mem_of_mem_normalize hb, hid⟩) h
    · exact ⟨⟨b, mem_normalize.mp hb, ht⟩, hf⟩
  · rintro ⟨⟨b, hb, ht⟩, hf⟩
    exact ⟨b, mem_normalize.mpr hb, .inr ⟨ht, hf⟩⟩

theorem dedupe_singleton (met : List String) (m : Pending) :
    dedupe met [m] = if IsFresh met m then [m] else [] := by
  rw [dedupe_cons]
  rfl

theorem IsFresh.congr {ids ids' : List String} (h : ∀ id, id ∈ ids ↔ id ∈ ids') (m : Pending) :
    IsFresh ids m ↔ IsFresh ids' m := by
  unfold IsFresh
  rw [h]

/-- What is left of a list with a message in its middle that repeats no id behind it. -/
theorem dedupe_middle (h : m.sourceId ∉ sourceIds held) :
    dedupe [] (front ++ [m] ++ held) =
      dedupe [] front ++ (if IsFresh (sourceIds front) m then [m] else []) ++
        dedupe (sourceIds front) held := by
  have hskip : dedupe (sourceIds (front ++ [m]) ++ []) held = dedupe (sourceIds front) held := by
    rw [dedupe_eq_filter, dedupe_eq_filter (sourceIds front)]
    refine List.filter_congr fun b hb => decide_eq_decide.mpr ?_
    rw [List.append_nil, sourceIds_append, IsFresh.append, and_iff_left_iff_imp]
    intro _
    by_cases hb0 : b.sourceId = ""
    · exact .inl hb0
    · refine .inr fun hmem => h ?_
      obtain ⟨hne, a, ha, hid⟩ := mem_sourceIds.mp hmem
      rw [List.mem_singleton] at ha
      rw [← ha, hid]
      exact mem_sourceIds.mpr ⟨hne, b, (dedupe_sublist [] held).subset hb, rfl⟩
  rw [dedupe_append, hskip, dedupe_append, dedupe_singleton, List.append_nil]

/-- What is left of it if the message repeats an id before it. -/
theorem dedupe_middle_of_repeat (h : ¬ IsFresh (sourceIds front) m) :
    dedupe [] (front ++ [m] ++ held) = dedupe [] (front ++ held) := by
  have hmem : m.sourceId ∈ sourceIds front := by
    unfold IsFresh at h
    tauto
  have hids : dedupe (sourceIds (front ++ [m])) held = dedupe (sourceIds front) held := by
    refine dedupe_congr (fun id _ => ?_) held
    rw [sourceIds_append, List.mem_append, or_iff_left_iff_imp]
    intro hid
    obtain ⟨-, a, ha, rfl⟩ := mem_sourceIds.mp hid
    rw [List.mem_singleton.mp ha]
    exact hmem
  rw [dedupe_append, dedupe_append, dedupe_singleton, List.append_nil, if_neg h, List.append_nil,
    List.append_nil, hids, dedupe_append, List.append_nil]

theorem dedupe_append_singleton (opened : List Pending) (m : Pending) :
    dedupe [] (opened ++ [m]) =
      dedupe [] opened ++ if IsFresh (sourceIds opened) m then [m] else [] := by
  rw [dedupe_append, dedupe_singleton, List.append_nil]

theorem append_cons_eq_append_singleton {α : Type} {a b c : List α} {x : α}
    (h : a ++ x :: b = c ++ [x]) (hx : x ∉ c) : a = c ∧ b = [] := by
  induction b using List.reverseRecOn with
  | nil => exact ⟨List.append_inj_left' h rfl, rfl⟩
  | append_singleton b y _ =>
    have h' : (a ++ x :: b) ++ [y] = c ++ [x] := by simpa using h
    have hc := List.append_inj_left' h' rfl
    exact absurd (hc ▸ by simp) hx

section

variable (hids : ∀ id, id ∈ sourceIds (front ++ held) ↔ id ∈ sourceIds opened)
include hids

/-- If nothing it rivals is held, a message may stand in front of what is held. -/
theorem normalize_overtake (h : normalize (front ++ held) = normalize opened)
    (hm : ¬ Rivals opened held m) :
    normalize (front ++ [m] ++ held) = normalize (opened ++ [m]) := by
  have hnot : m.sourceId ∉ sourceIds held := fun hmem => hm (rivals_of_mem_sourceIds hmem)
  have hfresh : IsFresh (sourceIds front) m ↔ IsFresh (sourceIds opened) m := by
    rw [← IsFresh.congr hids, sourceIds_append, IsFresh.append, iff_self_and]
    exact fun _ => .inr hnot
  rw [normalize_eq_iff] at h ⊢
  intro t
  have ht := h t
  rw [dedupe_append, List.append_nil, atTime_append] at ht
  rw [dedupe_middle hnot, dedupe_append_singleton, atTime_append, atTime_append, atTime_append,
    ← ht]
  by_cases hf : IsFresh (sourceIds opened) m
  · rw [if_pos hf, if_pos (hfresh.mpr hf), atTime_singleton]
    by_cases hmt : m.enqueuedAt = t
    · have hnone : atTime t (dedupe (sourceIds front) held) = [] := by
        apply List.eq_nil_iff_forall_not_mem.mpr
        intro b hb
        obtain ⟨hb, hbt⟩ := mem_atTime.mp hb
        rw [dedupe_eq_filter, List.mem_filter] at hb
        exact hm ((rivals_iff_of_not_mem hnot).mpr ⟨⟨b, hb.1, hbt.trans hmt.symm⟩, hf⟩)
      rw [hnone, List.append_nil, List.append_nil]
    · rw [if_neg hmt, List.append_nil, List.append_nil]
  · rw [if_neg hf, if_neg (mt hfresh.mp hf)]
    simp [atTime]

/-- A message that overtakes what is held and is no repeat has no source id of it. -/
theorem not_mem_sourceIds_of_overtake (hnew : m ∉ opened) (hf : IsFresh (sourceIds front) m)
    (h : normalize (front ++ [m] ++ held) = normalize (opened ++ [m])) :
    m.sourceId ∉ sourceIds held := by
  -- otherwise the message stands in the left batch, and not in the right one
  intro hmem
  have hopen : ¬ IsFresh (sourceIds opened) m := by
    rw [← IsFresh.congr hids, sourceIds_append, IsFresh.append]
    rintro ⟨-, he | hnot⟩
    · exact (mem_sourceIds.mp hmem).1 he
    · exact hnot hmem
  have hleft : m ∈ atTime m.enqueuedAt (dedupe [] (front ++ [m] ++ held)) := by
    rw [dedupe_append, dedupe_append_singleton, if_pos hf]
    simp [mem_atTime]
  rw [normalize_eq_iff] at h
  rw [h, dedupe_append_singleton, if_neg hopen, List.append_nil] at hleft
  exact hnew ((dedupe_sublist [] opened).subset (mem_atTime.mp hleft).1)

theorem normalize_of_overtake_of_fresh (hnew : m ∉ opened) (hf : IsFresh (sourceIds front) m)
    (h : normalize (front ++ [m] ++ held) = normalize (opened ++ [m])) :
    normalize (front ++ held) = normalize opened ∧
      ((∀ b ∈ held, IsFresh (sourceIds front) b) → ¬ Rivals opened held m) := by
  have hnot := not_mem_sourceIds_of_overtake hids hnew hf h
  have hopen : IsFresh (sourceIds opened) m := by
    rw [← IsFresh.congr hids, sourceIds_append, IsFresh.append]
    exact ⟨hf, .inr hnot⟩
  rw [normalize_eq_iff] at h
  have hsplit : ∀ t, atTime t (dedupe [] front) ++ (atTime t [m] ++
      atTime t (dedupe (sourceIds front) held)) = atTime t (dedupe [] opened) ++ atTime t [m] := by
    intro t
    have ht := h t
    rwa [dedupe_middle hnot, dedupe_append_singleton, if_pos hf, if_pos hopen, atTime_append,
      atTime_append, atTime_append, List.append_assoc] at ht
  have hmid : atTime m.enqueuedAt (dedupe [] front) = atTime m.enqueuedAt (dedupe [] opened) ∧
      atTime m.enqueuedAt (dedupe (sourceIds front) held) = [] := by
    have ht := hsplit m.enqueuedAt
    rw [atTime_singleton, if_pos rfl] at ht
    refine append_cons_eq_append_singleton ht fun hmem => hnew ?_
    exact (dedupe_sublist [] opened).subset (mem_atTime.mp hmem).1
  constructor
  · apply normalize_eq_iff.mpr
    intro t
    rw [dedupe_append, List.append_nil, atTime_append]
    by_cases hmt : m.enqueuedAt = t
    · rw [← hmt, hmid.1, hmid.2, List.append_nil]
    · have ht := hsplit t
      rwa [atTime_singleton, if_neg hmt, List.nil_append, List.append_nil] at ht
  · intro hapart hr
    obtain ⟨⟨b, hb, hbt⟩, -⟩ := (rivals_iff_of_not_mem hnot).mp hr
    have hbf : IsFresh (sourceIds front) b := hapart b ((dedupe_sublist [] held).subset hb)
    have hmem : b ∈ atTime m.enqueuedAt (dedupe (sourceIds front) held) := by
      rw [dedupe_eq_filter]
      exact mem_atTime.mpr ⟨List.mem_filter.mpr ⟨hb, by simpa using hbf⟩, hbt⟩
    rw [hmid.2] at hmem
    exact absurd hmem List.not_mem_nil

theorem normalize_of_overtake_of_repeat (hf : ¬ IsFresh (sourceIds front) m)
    (h : normalize (front ++ [m] ++ held) = normalize (opened ++ [m])) :
    normalize (front ++ held) = normalize opened ∧
      ((∀ b ∈ held, IsFresh (sourceIds front) b) → ¬ Rivals opened held m) := by
  have hopen : ¬ IsFresh (sourceIds opened) m := by
    rw [← IsFresh.congr hids, sourceIds_append, IsFresh.append]
    exact fun hh => hf hh.1
  rw [normalize_eq_iff] at h
  constructor
  · apply normalize_eq_iff.mpr
    intro t
    have ht := h t
    rwa [dedupe_middle_of_repeat hf, dedupe_append_singleton, if_neg hopen, List.append_nil] at ht
  · rintro hapart ⟨b, hb, ⟨hne, hid⟩ | ⟨-, hfresh⟩⟩
    · rcases hapart b (mem_of_mem_normalize hb) with he | hnot
      · exact hne (hid ▸ he)
      · unfold IsFresh at hf
        rw [hid] at hnot
        tauto
    · exact hopen hfresh

/-- A message that is new to a list may overtake what is held only if it rivals nothing there, and
never makes good for others that did. -/
theorem normalize_of_overtake (hnew : m ∉ opened)
    (h : normalize (front ++ [m] ++ held) = normalize (opened ++ [m])) :
    normalize (front ++ held) = normalize opened ∧
      ((∀ b ∈ held, IsFresh (sourceIds front) b) → ¬ Rivals opened held m) := by
  by_cases hf : IsFresh (sourceIds front) m
  · exact normalize_of_overtake_of_fresh hids hnew hf h
  · exact normalize_of_overtake_of_repeat hids hf h

end

/-! ## Lists with held messages -/

def Spread (ms : List Pending) : Prop :=
  ms.Pairwise fun a b => a.enqueuedAt ≠ b.enqueuedAt ∧ (a.sourceId = "" ∨ a.sourceId ≠ b.sourceId)

/-- Messages came in the order `opened`. Those in front wait in the list, the others are held, and
will be put back behind them. Unless some have crossed, the batch of all is as if they had been in
the list all the time. -/
structure Tracks (front held opened : List Pending) (crossed : Prop) : Prop where
  mem : ∀ m ∈ front ++ held, m ∈ opened
  ids : ∀ id, id ∈ sourceIds (front ++ held) ↔ id ∈ sourceIds opened
  apart : ¬ crossed → ∀ b ∈ held, IsFresh (sourceIds front) b
  agrees : ¬ crossed → normalize (front ++ held) = normalize opened
  differs : crossed → opened.Nodup → normalize (front ++ held) ≠ normalize opened
  near : crossed → ¬ Spread opened

namespace Tracks
variable {crossed : Prop}

theorem self (ms : List Pending) : Tracks ms [] ms False where
  mem m hm := by simpa using hm
  ids id := by simp
  apart _ b hb := absurd hb List.not_mem_nil
  agrees _ := by rw [List.append_nil]
  differs h := h.elim
  near h := h.elim

/-- All messages of the list are taken. -/
theorem taken (h : Tracks front [] opened crossed) : Tracks [] front opened crossed where
  mem := by simpa using h.mem
  ids := by simpa using h.ids
  apart _ b _ := .inr List.not_mem_nil
  agrees := by simpa using h.agrees
  differs := by simpa using h.differs
  near := h.near

/-- A batch is made of what was taken. -/
theorem normalized (h : Tracks front held opened crossed) :
    Tracks front (normalize held) opened crossed where
  mem m hm := by
    refine h.mem m (List.mem_append.mpr ?_)
    exact (List.mem_append.mp hm).imp_right mem_of_mem_normalize
  ids id := by
    rw [← h.ids id, sourceIds_append, sourceIds_append, List.mem_append, List.mem_append,
      mem_sourceIds_normalize]
  apart hc b hb := h.apart hc b (mem_of_mem_normalize hb)
  agrees hc := (normalize_append_normalize front held).trans (h.agrees hc)
  differs hc hn heq := h.differs hc hn ((normalize_append_normalize front held).symm.trans heq)
  near := h.near

theorem rival_near (h : Tracks front held opened crossed) {m : Pending}
    (hr : Rivals opened held m) : ¬ Spread (opened ++ [m]) := by
  intro hs
  obtain ⟨b, hb, hwhy⟩ := hr
  have hmem : b ∈ opened := h.mem b (List.mem_append_right _ (mem_of_mem_normalize hb))
  obtain ⟨htime, hid⟩ := (List.pairwise_append.mp hs).2.2 b hmem m List.mem_cons_self
  rcases hwhy with ⟨hne, heq⟩ | ⟨heq, -⟩
  · exact hid.elim (fun he => hne (heq ▸ he)) fun h => h heq
  · exact htime heq

/-- Another message comes in. -/
theorem arrived (h : Tracks front held opened crossed) (m : Pending) :
    Tracks (front ++ [m]) held (opened ++ [m]) (crossed ∨ Rivals opened held m) where
  mem n hn := by
    have := h.mem n
    simp only [List.mem_append] at this hn ⊢
    tauto
  ids id := by
    have := h.ids id
    simp only [sourceIds_append, List.mem_append] at this ⊢
    tauto
  apart hc b hb := by
    rw [not_or] at hc
    rw [sourceIds_append, IsFresh.append]
    refine ⟨h.apart hc.1 b hb, ?_⟩
    by_cases he : b.sourceId = ""
    · exact .inl he
    · refine .inr fun hmem => hc.2 (rivals_of_mem_sourceIds ?_)
      obtain ⟨-, a, ha, hid⟩ := mem_sourceIds.mp hmem
      rw [List.mem_singleton] at ha
      rw [← ha, hid]
      exact mem_sourceIds.mpr ⟨he, b, hb, rfl⟩
  agrees hc := by
    rw [not_or] at hc
    exact normalize_overtake h.ids (h.agrees hc.1) hc.2
  differs hc hn heq := by
    have hnew : m ∉ opened := fun hm =>
      (List.nodup_append.mp hn).2.2 m hm m List.mem_cons_self rfl
    obtain ⟨hback, hrival⟩ := normalize_of_overtake h.ids hnew heq
    by_cases hcr : crossed
    · exact h.differs hcr (List.nodup_append.mp hn).1 hback
    · exact hrival (h.apart hcr) (hc.resolve_left hcr)
  near hc := by
    rcases hc with hcr | hr
    · exact fun hs => h.near hcr (List.pairwise_append.mp hs).1
    · exact h.rival_near hr

/-- A held message is put back. -/
theorem putBack {b : Pending} {left : List Pending} (h : Tracks front (b :: left) opened crossed)
    (hd : DistinctIds (b :: left)) : Tracks (front ++ [b]) left opened crossed where
  mem := by simpa using h.mem
  ids := by simpa using h.ids
  apart hc a ha := by
    rw [sourceIds_append, IsFresh.append]
    refine ⟨h.apart hc a (List.mem_cons_of_mem b ha), ?_⟩
    rcases (List.pairwise_cons.mp hd).1 a ha with he | hne
    · exact .inl he
    · refine .inr fun hmem => hne ?_
      obtain ⟨-, c, hc, hid⟩ := mem_sourceIds.mp hmem
      rw [List.mem_singleton] at hc
      rw [← hid, hc]
  agrees := by simpa using h.agrees
  differs := by simpa using h.differs
  near := h.near

end Tracks

end ChatRelay.Batch
