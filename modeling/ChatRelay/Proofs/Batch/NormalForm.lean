import ChatRelay.Proofs.Batch.Overtaking
import Mathlib.Data.List.Nodup
import Mathlib.Data.Option.Basic

/-!
# The normal form of a batch

Which messages of a list count, and in which order they come, is a matter of their places: a message
counts unless its source id was there before, and of two messages the one with the smaller time
comes first, or of one time the one that arrived first. No other list than the batch has exactly the
messages that count in that order. The text of a batch has one part for each of its messages, so a
message that comes last adds its part and changes nothing before it.
-/

namespace ChatRelay.Batch

/-! ## The messages that count, in their order -/

/-- The message at a place has no source id, or is the first with its source id. -/
def Counts (ms : List Pending) (i : Nat) : Prop :=
  ∃ m, ms[i]? = some m ∧
    (m.sourceId = "" ∨ ∀ j < i, ∀ n, ms[j]? = some n → n.sourceId ≠ m.sourceId)

/-- The message at the first place is earlier than that at the second, or arrived before it at the
same time. -/
def Precedes (ms : List Pending) (i j : Nat) : Prop :=
  ∃ m n, ms[i]? = some m ∧ ms[j]? = some n ∧
    (m.enqueuedAt < n.enqueuedAt ∨ m.enqueuedAt = n.enqueuedAt ∧ i < j)

/-- A batch has the messages at the places that count, each of them once, in their order. -/
def IsNormalForm (ms batch : List Pending) : Prop :=
  ∃ places : List Nat, (∀ i, i ∈ places ↔ Counts ms i) ∧ places.Pairwise (Precedes ms) ∧
    places.map (ms[·]?) = batch.map some

theorem Precedes.ne {ms : List Pending} {i j : Nat} (h : Precedes ms i j) : i ≠ j := by
  rintro rfl
  obtain ⟨m, n, hm, hn, hlt⟩ := h
  obtain rfl := Option.some.inj (hm.symm.trans hn)
  omega

theorem Precedes.asymm {ms : List Pending} {i j : Nat} (h : Precedes ms i j) :
    ¬ Precedes ms j i := by
  rintro ⟨n', m', hn', hm', hlt'⟩
  obtain ⟨m, n, hm, hn, hlt⟩ := h
  obtain rfl := Option.some.inj (hm.symm.trans hm')
  obtain rfl := Option.some.inj (hn.symm.trans hn')
  omega

theorem IsNormalForm.unique {ms batch batch' : List Pending} (h : IsNormalForm ms batch)
    (h' : IsNormalForm ms batch') : batch = batch' := by
  obtain ⟨places, hmem, hord, hmap⟩ := h
  obtain ⟨places', hmem', hord', hmap'⟩ := h'
  have hperm : places.Perm places' :=
    (List.perm_ext_iff_of_nodup (hord.imp Precedes.ne) (hord'.imp Precedes.ne)).mpr
      fun i => (hmem i).trans (hmem' i).symm
  have hplaces : places = places' :=
    List.Perm.eq_of_pairwise (fun _ _ _ _ hij hji => absurd hji hij.asymm) hord hord' hperm
  apply List.map_injective_iff.mpr (Option.some_injective Pending)
  rw [← hmap, ← hmap', hplaces]

/-! ## One more message -/

theorem getElem?_concat {ms : List Pending} {m a : Pending} {i : Nat} :
    (ms ++ [m])[i]? = some a ↔ ms[i]? = some a ∨ i = ms.length ∧ m = a := by
  rcases Nat.lt_trichotomy i ms.length with hlt | rfl | hgt
  · simp [List.getElem?_append_left hlt, Nat.ne_of_lt hlt]
  · simp
  · have hnone : (ms ++ [m])[i]? = none := List.getElem?_eq_none (by simp; omega)
    simp [hnone, List.getElem?_eq_none (Nat.le_of_lt hgt), Nat.ne_of_gt hgt]

theorem lt_length_of_getElem? {ms : List Pending} {a : Pending} {i : Nat} (h : ms[i]? = some a) :
    i < ms.length := (List.getElem?_eq_some_iff.mp h).1

theorem counts_concat {ms : List Pending} {m : Pending} {i : Nat} :
    Counts (ms ++ [m]) i ↔ Counts ms i ∨ i = ms.length ∧ IsFresh (sourceIds ms) m := by
  -- places before that of the new message look at the old ones only
  have hold {n : Pending} (hi : ms[i]? = some n) :
      (∀ j < i, ∀ k, (ms ++ [m])[j]? = some k → k.sourceId ≠ n.sourceId) ↔
        ∀ j < i, ∀ k, ms[j]? = some k → k.sourceId ≠ n.sourceId := by
    have hlt := lt_length_of_getElem? hi
    refine forall₂_congr fun j hj => ?_
    rw [List.getElem?_append_left (Nat.lt_trans hj hlt)]
  have hnew : (m.sourceId = "" ∨
      ∀ j < ms.length, ∀ k, (ms ++ [m])[j]? = some k → k.sourceId ≠ m.sourceId) ↔
        IsFresh (sourceIds ms) m := by
    rw [IsFresh, mem_sourceIds]
    simp only [List.mem_iff_getElem?, not_and, not_exists]
    constructor
    · rintro (he | hall)
      · exact .inl he
      · refine .inr fun _ n hn hid => ?_
        obtain ⟨j, hj⟩ := hn
        exact hall j (lt_length_of_getElem? hj) n (getElem?_concat.mpr (.inl hj)) hid
    · rintro (he | hall)
      · exact .inl he
      · by_cases he : m.sourceId = ""
        · exact .inl he
        · refine .inr fun j hj k hk => hall he k ⟨j, ?_⟩
          exact (getElem?_concat.mp hk).resolve_right fun h => Nat.ne_of_lt hj h.1
  unfold Counts
  constructor
  · rintro ⟨n, hn, hfirst⟩
    rcases getElem?_concat.mp hn with hi | ⟨rfl, rfl⟩
    · exact .inl ⟨n, hi, hfirst.imp_right (hold hi).mp⟩
    · exact .inr ⟨rfl, hnew.mp hfirst⟩
  · rintro (⟨n, hi, hfirst⟩ | ⟨rfl, hfresh⟩)
    · exact ⟨n, getElem?_concat.mpr (.inl hi), hfirst.imp_right (hold hi).mpr⟩
    · exact ⟨m, getElem?_concat.mpr (.inr ⟨rfl, rfl⟩), hnew.mpr hfresh⟩

theorem Precedes.concat {ms : List Pending} {i j : Nat} (h : Precedes ms i j) (m : Pending) :
    Precedes (ms ++ [m]) i j := by
  obtain ⟨a, b, ha, hb, hlt⟩ := h
  exact ⟨a, b, getElem?_concat.mpr (.inl ha), getElem?_concat.mpr (.inl hb), hlt⟩

theorem normalize_concat (ms : List Pending) (m : Pending) :
    normalize (ms ++ [m]) =
      if IsFresh (sourceIds ms) m then insert m (normalize ms) else normalize ms := by
  rw [normalize, dedupe_append_singleton]
  split
  · rw [sortByTime_append_single, normalize]
  · rw [List.append_nil, normalize]

/-- A message is put behind all that are not later, and before all that are. -/
theorem InOrder.exists_insert {ms : List Pending} (h : InOrder ms) (m : Pending) :
    ∃ before after, ms = before ++ after ∧ Batch.insert m ms = before ++ m :: after ∧
      (∀ a ∈ before, a.enqueuedAt ≤ m.enqueuedAt) ∧ ∀ b ∈ after, m.enqueuedAt < b.enqueuedAt := by
  induction ms with
  | nil => exact ⟨[], [], rfl, rfl, by simp, by simp⟩
  | cons n ms ih =>
    obtain ⟨hn, hms⟩ := List.pairwise_cons.mp h
    rw [Batch.insert]
    split
    · next hle =>
      obtain ⟨before, after, heq, hins, hbefore, hafter⟩ := ih hms
      refine ⟨n :: before, after, by rw [heq]; rfl, by rw [hins]; rfl, ?_, hafter⟩
      exact List.forall_mem_cons.mpr ⟨hle, hbefore⟩
    · next hlt =>
      refine ⟨[], n :: ms, rfl, rfl, by simp, List.forall_mem_cons.mpr ⟨by omega, fun b hb => ?_⟩⟩
      have := hn b hb
      omega

theorem exists_of_map_places {ms batch : List Pending} {places : List Nat}
    (h : places.map (ms[·]?) = batch.map some) {i : Nat} (hi : i ∈ places) :
    ∃ n ∈ batch, ms[i]? = some n := by
  have hmem : ms[i]? ∈ batch.map some := h ▸ List.mem_map_of_mem hi
  obtain ⟨n, hn, heq⟩ := List.mem_map.mp hmem
  exact ⟨n, hn, heq.symm⟩

theorem map_places_concat {ms batch : List Pending} {places : List Nat}
    (h : places.map (ms[·]?) = batch.map some) (m : Pending) :
    places.map ((ms ++ [m])[·]?) = batch.map some := by
  rw [← h]
  refine List.map_congr_left fun i hi => ?_
  obtain ⟨n, -, hn⟩ := exists_of_map_places h hi
  rw [hn]
  exact getElem?_concat.mpr (.inl hn)

/-- A message that counts takes its place in the batch. -/
theorem IsNormalForm.insert {ms batch : List Pending} {m : Pending} (h : IsNormalForm ms batch)
    (hbatch : InOrder batch) (hm : IsFresh (sourceIds ms) m) :
    IsNormalForm (ms ++ [m]) (Batch.insert m batch) := by
  obtain ⟨places, hmem, hord, hmap⟩ := h
  obtain ⟨before, after, rfl, hins, hbefore, hafter⟩ := hbatch.exists_insert m
  rw [List.map_append] at hmap
  obtain ⟨ahead, behind, rfl, hahead, hbehind⟩ := List.map_eq_append_iff.mp hmap
  obtain ⟨hord₁, hord₂, hacross⟩ := List.pairwise_append.mp hord
  have hlast : (ms ++ [m])[ms.length]? = some m := getElem?_concat.mpr (.inr ⟨rfl, rfl⟩)
  have hfrom : ∀ i ∈ ahead, Precedes (ms ++ [m]) i ms.length := by
    intro i hi
    obtain ⟨n, hn, hget⟩ := exists_of_map_places hahead hi
    refine ⟨n, m, getElem?_concat.mpr (.inl hget), hlast, ?_⟩
    have := hbefore n hn
    have := lt_length_of_getElem? hget
    omega
  have hto : ∀ j ∈ behind, Precedes (ms ++ [m]) ms.length j := by
    intro j hj
    obtain ⟨n, hn, hget⟩ := exists_of_map_places hbehind hj
    exact ⟨m, n, hlast, getElem?_concat.mpr (.inl hget), .inl (hafter n hn)⟩
  refine ⟨ahead ++ ms.length :: behind, fun i => ?_, ?_, ?_⟩
  · rw [counts_concat, ← hmem i]
    simp only [List.mem_append, List.mem_cons, hm, and_true]
    tauto
  · refine List.pairwise_append.mpr ⟨hord₁.imp (·.concat m), ?_, fun i hi j hj => ?_⟩
    · exact List.pairwise_cons.mpr ⟨hto, hord₂.imp (·.concat m)⟩
    · rcases List.mem_cons.mp hj with rfl | hj
      · exact hfrom i hi
      · exact (hacross i hi j hj).concat m
  · rw [hins, List.map_append, List.map_cons, List.map_append, List.map_cons,
      map_places_concat hahead, map_places_concat hbehind, hlast]

/-- A message whose source id was there before changes nothing. -/
theorem IsNormalForm.skip {ms batch : List Pending} {m : Pending} (h : IsNormalForm ms batch)
    (hm : ¬ IsFresh (sourceIds ms) m) : IsNormalForm (ms ++ [m]) batch := by
  obtain ⟨places, hmem, hord, hmap⟩ := h
  refine ⟨places, fun i => ?_, hord.imp (·.concat m), map_places_concat hmap m⟩
  rw [counts_concat, ← hmem i]
  simp only [hm, and_false, or_false]

theorem inOrder_normalize (ms : List Pending) : InOrder (normalize ms) := inOrder_sortByTime _

theorem isNormalForm_normalize (ms : List Pending) : IsNormalForm ms (normalize ms) := by
  induction ms using List.reverseRecOn with
  | nil => exact ⟨[], by simp [Counts], List.Pairwise.nil, rfl⟩
  | append_singleton ms m ih =>
    rw [normalize_concat]
    split
    · next hm => exact ih.insert (inOrder_normalize ms) hm
    · next hm => exact ih.skip hm

/-- The batch of a list is its only normal form. -/
theorem isNormalForm_iff {ms batch : List Pending} :
    IsNormalForm ms batch ↔ batch = normalize ms := by
  constructor
  · exact fun h => h.unique (isNormalForm_normalize ms)
  · rintro rfl
    exact isNormalForm_normalize ms

/-! ## The order of arrival -/

theorem distinctIds_iff_nodup {ms : List Pending} : DistinctIds ms ↔ (sourceIds ms).Nodup := by
  simp only [DistinctIds, sourceIds, List.Nodup, List.pairwise_filter, List.pairwise_map,
    decide_eq_true_eq]
  constructor
  · exact fun h => h.imp (by grind)
  · exact fun h => h.imp (by grind)

/-- Where no time and no source id is there twice, the order of arrival does not matter. -/
theorem normalize_eq_of_perm {ms ns : List Pending} (htimes : (ms.map (·.enqueuedAt)).Nodup)
    (hids : DistinctIds ms) (hperm : ms.Perm ns) : normalize ns = normalize ms := by
  have hall : (normalize ns).Perm (normalize ms) := by
    have hms := normalize_perm_dedupe ms
    have hns := normalize_perm_dedupe ns
    rw [hids.dedupe_eq] at hms
    rw [(hids.perm hperm).dedupe_eq] at hns
    exact hns.trans (hperm.symm.trans hms.symm)
  refine List.Perm.eq_of_pairwise (fun a b ha hb hab hba => ?_) (inOrder_normalize ns)
    (inOrder_normalize ms) hall
  have ha' := mem_of_mem_normalize (hall.mem_iff.mp ha)
  exact List.inj_on_of_nodup_map htimes ha' (mem_of_mem_normalize hb) (Int.le_antisymm hab hba)

/-- A message is the last of a batch if none that arrived before is later, and all that arrived
afterwards are earlier. -/
def IsLatest (before : List Pending) (m : Pending) (after : List Pending) : Prop :=
  (∀ a ∈ before, a.enqueuedAt ≤ m.enqueuedAt) ∧ ∀ b ∈ after, b.enqueuedAt < m.enqueuedAt

theorem normalize_middle {before after : List Pending} {m : Pending}
    (hlatest : IsLatest before m after) (hfresh : IsFresh (sourceIds (before ++ after)) m) :
    normalize (before ++ m :: after) = normalize (before ++ after) ++ [m] := by
  have hin : InOrder (normalize (before ++ after) ++ [m]) := by
    refine List.pairwise_append.mpr ⟨inOrder_normalize _, List.pairwise_singleton .., ?_⟩
    intro a ha b hb
    rw [List.mem_singleton.mp hb]
    rcases List.mem_append.mp (mem_of_mem_normalize ha) with ha | ha
    · exact hlatest.1 a ha
    · exact Int.le_of_lt (hlatest.2 a ha)
  refine (inOrder_normalize _).eq_of_atTime hin fun t => ?_
  rw [sourceIds_append, IsFresh.append] at hfresh
  have hnot : m.sourceId ∉ sourceIds after := fun hmem =>
    hfresh.2.elim (mem_sourceIds.mp hmem).1 fun hno => hno hmem
  rw [← List.singleton_append, ← List.append_assoc, atTime_append, normalize, normalize,
    atTime_sortByTime, atTime_sortByTime, dedupe_middle hnot, if_pos hfresh.1, dedupe_append,
    List.append_nil, atTime_append, atTime_append, atTime_append]
  by_cases ht : m.enqueuedAt = t
  · -- nothing that arrived after the message has its time
    have hnone : atTime t (dedupe (sourceIds before) after) = [] := by
      refine List.filter_eq_nil_iff.mpr fun b hb => ?_
      have := hlatest.2 b ((dedupe_sublist _ _).subset hb)
      simp only [decide_eq_true_eq]
      omega
    rw [hnone, List.append_nil, List.append_nil]
  · simp [atTime_singleton, ht]

/-! ## The text -/

/-- The parts of a batch's text: the first names its label, and later ones follow up, with their
labels where these differ from the first one's. -/
structure IsTagged (batch : List Pending) (parts : List String) : Prop where
  length_eq : parts.length = batch.length
  first : ∀ m, batch[0]? = some m → parts[0]? = some ("[" ++ m.label ++ "]: " ++ m.text)
  same : ∀ first, batch[0]? = some first → ∀ i m, batch[i + 1]? = some m →
    m.label = first.label → parts[i + 1]? = some ("[Follow-up]: " ++ m.text)
  other : ∀ first, batch[0]? = some first → ∀ i m, batch[i + 1]? = some m →
    m.label ≠ first.label → parts[i + 1]? = some ("[Follow-up, " ++ m.label ++ "]: " ++ m.text)

theorem isTagged_parts (batch : List Pending) : IsTagged batch (parts batch) := by
  cases batch with
  | nil => constructor <;> simp [parts]
  | cons first rest =>
    constructor <;> simp +contextual [parts, tag]

def addition : List Pending → Pending → String
  | [], m => "[" ++ m.label ++ "]: " ++ m.text
  | first :: _, m => "\n\n" ++ tag first m

theorem merge_concat (batch : List Pending) (m : Pending) :
    merge (batch ++ [m]) = merge batch ++ addition batch m := by
  cases batch with
  | nil => simp [merge, parts, addition]
  | cons first rest =>
    have hparts : parts (first :: rest ++ [m]) = parts (first :: rest) ++ [tag first m] := by
      simp [parts]
    rw [merge, hparts,
      String.intercalate_append_of_ne_nil (by simp [parts]) (List.cons_ne_nil _ _),
      String.intercalate_singleton, merge, addition, String.append_assoc]

/-- The batch of a list of messages is its only normal form, making a batch of it again changes
nothing, and if no time and no source id is there twice the order of arrival does not matter. Its
text is made of one tagged part for each message, and a further message that comes last, wherever it
arrived, only adds to the text. -/
theorem normalize_spec (ms : List Pending) :
    (∀ batch, IsNormalForm ms batch ↔ batch = normalize ms) ∧
    normalize (normalize ms) = normalize ms ∧
    ((ms.map (·.enqueuedAt)).Nodup → (sourceIds ms).Nodup →
      ∀ ns, ms.Perm ns → normalize ns = normalize ms) ∧
    (∃ parts, IsTagged (normalize ms) parts ∧ merge (normalize ms) = "\n\n".intercalate parts) ∧
    ∀ before after m, ms = before ++ after → IsLatest before m after →
      (m.sourceId = "" ∨ m.sourceId ∉ sourceIds ms) →
      normalize (before ++ m :: after) = normalize ms ++ [m] ∧
      merge (normalize (before ++ m :: after)) =
        merge (normalize ms) ++ addition (normalize ms) m := by
  refine ⟨fun batch => isNormalForm_iff, normalize_normalize ms, ?_, ?_, ?_⟩
  · exact fun htimes hids ns => normalize_eq_of_perm htimes (distinctIds_iff_nodup.mpr hids)
  · exact ⟨parts (normalize ms), isTagged_parts _, rfl⟩
  · rintro before after m rfl hlatest hfresh
    have hlast := normalize_middle hlatest hfresh
    exact ⟨hlast, hlast ▸ merge_concat _ m⟩

/-- A question and the answer to it, which arrived first. -/
def dinner : List Pending :=
  [⟨"at eight", "2", 2000, "Sms"⟩, ⟨"dinner?", "1", 1000, "Mail"⟩]

/-- An afterthought that is later than both. -/
def wine : Pending := ⟨"bring wine", "", 3000, "Sms"⟩

/-- The question and its answer make the same batch in either order, and the afterthought is added
to its text even if it arrives before both. -/
theorem dinner_normalize :
    (dinner.map (·.enqueuedAt)).Nodup ∧ (sourceIds dinner).Nodup ∧ IsLatest [] wine dinner ∧
    (wine.sourceId = "" ∨ wine.sourceId ∉ sourceIds dinner) ∧
    normalize dinner.reverse = normalize dinner ∧
    merge (normalize (wine :: dinner)) =
      "[Mail]: dinner?\n\n[Follow-up, Sms]: at eight" ++ "\n\n[Follow-up, Sms]: bring wine" := by
  obtain ⟨-, -, hperm, -, hlast⟩ := normalize_spec dinner
  have htimes : (dinner.map (·.enqueuedAt)).Nodup := by decide
  have hids : (sourceIds dinner).Nodup := by decide
  have hlatest : IsLatest [] wine dinner := by
    unfold IsLatest
    decide
  have hfresh : wine.sourceId = "" ∨ wine.sourceId ∉ sourceIds dinner := .inl rfl
  refine ⟨htimes, hids, hlatest, hfresh, hperm htimes hids _ (List.reverse_perm _).symm, ?_⟩
  exact (hlast [] dinner wine rfl hlatest hfresh).2.trans (by decide +kernel)

/-- A repeated id is dropped even where it is the earlier message, and messages of one time keep the
order in which they arrived. -/
example :
    normalize [⟨"x", "a", 5, "A"⟩, ⟨"y", "", 5, "A"⟩, ⟨"z", "a", 1, "A"⟩, ⟨"w", "", 5, "B"⟩] =
      [⟨"x", "a", 5, "A"⟩, ⟨"y", "", 5, "A"⟩, ⟨"w", "", 5, "B"⟩] := by decide

end ChatRelay.Batch
