import ChatRelay.Channel.Stock
import ChatRelay.Proofs.Text.Gaps
import Mathlib.Data.List.Forall2

/-!
# Which mentions are removed

A mention is an at sign and the name in any case, with no word character behind it. What is removed
is an at sign and the name that end at a word boundary; these are the mentions if the name ends in a
word character. If it has word characters only, what is left on both sides of a removed mention
makes no new one, nor do shrinking gaps and trimming, so that none is left.
-/

namespace ChatRelay.Text

/-! ## Mentions and what is taken for them -/

def startsWithWord (cs : List Char) : Bool := cs.head?.any isWord

def SameName (name body : List Char) : Prop :=
  List.Forall₂ (fun c d => equalFold c d = true) name body

/-- An at sign and the name, not continued by a word character in what follows. -/
def Mention (name m after : List Char) : Prop :=
  ∃ body, m = '@' :: body ∧ SameName name body ∧ startsWithWord after = false

/-- An at sign and the name that end at a word boundary. -/
def Matched (name m after : List Char) : Prop :=
  ∃ body, m = '@' :: body ∧ SameName name body ∧ isWordBoundary m.getLast? after.head? = true

def Occurs (name cs : List Char) : Prop :=
  ∃ before m after, cs = before ++ m ++ after ∧ Mention name m after

theorem getLast?_cons_or (d : Char) (body : List Char) :
    (d :: body).getLast? = body.getLast?.or (some d) := by
  rw [List.getLast?_cons]
  cases body.getLast? <;> rfl

theorem afterName?_eq_some_iff {last l : Option Char} {name cs after : List Char} :
    afterName? last name cs = some (l, after) ↔
      ∃ body, cs = body ++ after ∧ SameName name body ∧ l = body.getLast?.or last := by
  induction name generalizing last cs with
  | nil =>
    simp only [afterName?, SameName, List.forall₂_nil_left_iff, Option.some.injEq, Prod.mk.injEq]
    constructor
    · rintro ⟨rfl, rfl⟩
      exact ⟨[], rfl, rfl, rfl⟩
    · rintro ⟨body, rfl, rfl, rfl⟩
      exact ⟨rfl, rfl⟩
  | cons c name ih =>
    have hlast (d : Char) (body : List Char) :
        (d :: body).getLast?.or last = body.getLast?.or (some d) := by
      rw [getLast?_cons_or, Option.or_assoc, Option.some_or]
    cases cs with
    | nil =>
      simp only [afterName?, reduceCtorEq, false_iff, not_exists, not_and]
      intro body hbody hname
      cases hname
      simp at hbody
    | cons d cs =>
      rw [afterName?]
      split
      · next heq =>
        rw [ih]
        constructor
        · rintro ⟨body, rfl, hname, rfl⟩
          exact ⟨d :: body, rfl, .cons heq hname, (hlast d body).symm⟩
        · rintro ⟨_, hbody, hname, rfl⟩
          obtain _ | ⟨-, hname⟩ := hname
          obtain ⟨rfl, rfl⟩ := List.cons.inj hbody
          exact ⟨_, rfl, hname, hlast _ _⟩
      · next hne =>
        simp only [reduceCtorEq, false_iff, not_exists, not_and]
        intro body hbody hname
        obtain _ | ⟨heq, hname⟩ := hname
        obtain ⟨rfl, rfl⟩ := List.cons.inj hbody
        exact absurd heq hne

theorem startsWithMention_iff {name cs : List Char} :
    startsWithMention name cs = true ↔ ∃ m after, cs = m ++ after ∧ Matched name m after := by
  unfold startsWithMention
  split
  · next rest =>
    constructor
    · intro h
      split at h
      · next last after hafter =>
        obtain ⟨body, rfl, hname, rfl⟩ := afterName?_eq_some_iff.mp hafter
        exact ⟨'@' :: body, after, rfl, body, rfl, hname, getLast?_cons_or '@' body ▸ h⟩
      · cases h
    · rintro ⟨_, after, hcs, body, rfl, hname, hbound⟩
      obtain rfl := (List.cons.inj hcs).2
      have hafter : afterName? (some '@') name (body.append after) =
          some (('@' :: body).getLast?, after) :=
        afterName?_eq_some_iff.mpr ⟨body, rfl, hname, getLast?_cons_or '@' body⟩
      rw [hafter]
      exact hbound
  · next hat =>
    simp only [Bool.false_eq_true, false_iff, not_exists, not_and]
    rintro _ after rfl ⟨body, rfl, -⟩
    exact hat _ rfl

/-- What is taken for a mention is as long as the name, and its at sign. -/
theorem Matched.length_eq {name m after : List Char} (h : Matched name m after) :
    m.length = name.length + 1 := by
  obtain ⟨body, rfl, hname, -⟩ := h
  rw [List.length_cons, hname.length_eq]

/-! ## Removing them -/

/-- Of the first text, what begins as said is left out, found from left to right. -/
inductive Strips (isOut : List Char → List Char → Prop) : List Char → List Char → Prop
  | done : Strips isOut [] []
  | keep {c : Char} {rest kept : List Char}
      (hc : ∀ m after, c :: rest = m ++ after → ¬ isOut m after) (h : Strips isOut rest kept) :
      Strips isOut (c :: rest) (c :: kept)
  | drop {m after kept : List Char} (hm : isOut m after) (h : Strips isOut after kept) :
      Strips isOut (m ++ after) kept

theorem removeMentions_skip (name : List Char) (k : Nat) (cs : List Char) :
    removeMentions name k cs = removeMentions name 0 (cs.drop k) := by
  induction k generalizing cs with
  | zero => rfl
  | succ k ih =>
    cases cs with
    | nil => simp [removeMentions]
    | cons c cs => rw [removeMentions, ih, List.drop_succ_cons]

theorem removeMentions_of_matched {name m after : List Char} (h : Matched name m after) :
    removeMentions name 0 (m ++ after) = removeMentions name 0 after := by
  have hstart := startsWithMention_iff.mpr ⟨m, after, rfl, h⟩
  obtain ⟨body, rfl, hname, -⟩ := h
  rw [List.cons_append] at hstart ⊢
  rw [removeMentions, if_pos hstart, removeMentions_skip, hname.length_eq, List.drop_left]

theorem removeMentions_of_not {name rest : List Char} {c : Char}
    (h : ∀ m after, c :: rest = m ++ after → ¬ Matched name m after) :
    removeMentions name 0 (c :: rest) = c :: removeMentions name 0 rest := by
  rw [removeMentions, if_neg]
  intro hstart
  obtain ⟨m, after, heq, hm⟩ := startsWithMention_iff.mp hstart
  exact h m after heq hm

theorem strips_removeMentions (name cs : List Char) :
    Strips (Matched name) cs (removeMentions name 0 cs) := by
  induction hlen : cs.length using Nat.strongRecOn generalizing cs with
  | ind n ih =>
    cases cs with
    | nil =>
      rw [removeMentions]
      exact .done
    | cons c rest =>
      by_cases hmatch : ∃ m after, c :: rest = m ++ after ∧ Matched name m after
      · obtain ⟨m, after, heq, hm⟩ := hmatch
        rw [heq, removeMentions_of_matched hm]
        have := hm.length_eq
        have := congrArg List.length heq
        rw [List.length_append] at this
        exact .drop hm (ih after.length (by omega) after rfl)
      · have hnot : ∀ m after, c :: rest = m ++ after → ¬ Matched name m after :=
          fun m after heq hm => hmatch ⟨m, after, heq, hm⟩
        rw [removeMentions_of_not hnot]
        exact .keep hnot (ih rest.length (by simp [← hlen]) rest rfl)

theorem Strips.eq_self {isOut : List Char → List Char → Prop} {cs kept : List Char}
    (h : Strips isOut cs kept)
    (hnone : ∀ before m after, cs = before ++ m ++ after → ¬ isOut m after) : kept = cs := by
  induction h with
  | done => rfl
  | @keep c _ _ _ _ ih =>
    rw [ih fun before m after heq => hnone (c :: before) m after (by rw [heq]; rfl)]
  | @drop m after _ hm _ _ => exact absurd hm (hnone [] m after rfl)

theorem Strips.length {isOut : List Char → List Char → Prop} {cs kept : List Char}
    (h : Strips isOut cs kept) (hne : ∀ m after, isOut m after → m ≠ []) :
    kept.length < cs.length ∨
      kept = cs ∧ ∀ before m after, cs = before ++ m ++ after → ¬ isOut m after := by
  induction h with
  | done =>
    refine .inr ⟨rfl, fun before m after heq hm => hne m after hm ?_⟩
    simp_all
  | @keep c rest kept hc h ih =>
    rcases ih with hlt | ⟨rfl, hnone⟩
    · exact .inl (by simpa using hlt)
    · refine .inr ⟨rfl, fun before m after heq => ?_⟩
      cases before with
      | nil => exact hc m after heq
      | cons b before => exact hnone before m after (List.cons.inj heq).2
  | @drop m after kept hm h ih =>
    have hpos := List.length_pos_iff.mpr (hne m after hm)
    rw [List.length_append]
    rcases ih with hlt | ⟨rfl, -⟩ <;> exact .inl (by omega)

theorem Strips.mono {p q : List Char → List Char → Prop} (hpq : ∀ m after, p m after ↔ q m after)
    {cs kept : List Char} (h : Strips p cs kept) : Strips q cs kept := by
  induction h with
  | done => exact .done
  | keep hc _ ih => exact .keep (fun m after heq hm => hc m after heq ((hpq m after).mpr hm)) ih
  | drop hm _ ih => exact .drop ((hpq _ _).mp hm) ih

/-! ## Boundaries -/

theorem SameName.mem {name body : List Char} (h : SameName name body) {d : Char} (hd : d ∈ body) :
    ∃ c ∈ name, isWord d = isWord c := by
  induction h with
  | nil => cases hd
  | cons heq _ ih =>
    rcases List.mem_cons.mp hd with rfl | hd
    · exact ⟨_, List.mem_cons_self, (isWord_of_equalFold heq).symm⟩
    · obtain ⟨c, hc, hword⟩ := ih hd
      exact ⟨c, List.mem_cons_of_mem _ hc, hword⟩

def endsInWord (name : List Char) : Bool := name.getLast?.any isWord

theorem SameName.endsInWord_eq {name body : List Char} (h : SameName name body) :
    endsInWord body = endsInWord name := by
  induction h with
  | nil => rfl
  | cons heq htail ih =>
    cases htail with
    | nil => simp [endsInWord, isWord_of_equalFold heq]
    | cons _ _ => simpa only [endsInWord, List.getLast?_cons_cons] using ih

/-- A match ends in what the name ends in, and what follows it begins with the other. -/
theorem matched_iff {name m after : List Char} (hname : name ≠ []) :
    Matched name m after ↔
      ∃ body, m = '@' :: body ∧ SameName name body ∧ startsWithWord after = !endsInWord name := by
  refine exists_congr fun body => and_congr_right fun hm => and_congr_right fun hbody => ?_
  have hne : body ≠ [] := by
    rintro rfl
    cases hbody
    exact hname rfl
  have hlast : m.getLast? = body.getLast? := by
    rw [hm, getLast?_cons_or, List.getLast?_eq_some_getLast hne, Option.some_or]
  rw [isWordBoundary, hlast, ← hbody.endsInWord_eq, endsInWord, startsWithWord, bne_iff_ne]
  cases body.getLast?.any isWord <;> cases after.head?.any isWord <;> decide

theorem matched_iff_mention {name : List Char} (hname : endsInWord name = true)
    (m after : List Char) : Matched name m after ↔ Mention name m after := by
  have hne : name ≠ [] := by
    rintro rfl
    cases hname
  rw [matched_iff hne, hname]
  rfl

/-! ## Names of word characters only -/

/-- The name has word characters only, and at least one. -/
structure IsWordName (name : List Char) : Prop where
  ne_nil : name ≠ []
  isWord : ∀ c ∈ name, isWord c = true

theorem IsWordName.endsInWord {name : List Char} (h : IsWordName name) :
    endsInWord name = true := by
  rw [Text.endsInWord, List.getLast?_eq_some_getLast h.ne_nil]
  exact h.isWord _ (List.getLast_mem h.ne_nil)

theorem IsWordName.body {name body : List Char} (h : IsWordName name) (hbody : SameName name body) :
    ∀ d ∈ body, Text.isWord d = true := by
  intro d hd
  obtain ⟨c, hc, hword⟩ := hbody.mem hd
  rw [hword, h.isWord c hc]

/-- Removing mentions leaves alone whether a text begins with a word character. -/
theorem Strips.startsWithWord_eq {name cs kept : List Char} (h : Strips (Mention name) cs kept) :
    startsWithWord kept = startsWithWord cs := by
  induction h with
  | done => rfl
  | keep _ _ _ => rfl
  | drop hm _ ih =>
    obtain ⟨body, rfl, -, hafter⟩ := hm
    rw [ih, hafter]
    exact not_isWord_at.symm

/-- Word characters at the front of what is kept were at the front of the text. -/
theorem Strips.of_words {name cs body rest : List Char}
    (h : Strips (Mention name) cs (body ++ rest)) (hbody : ∀ c ∈ body, isWord c = true) :
    ∃ after, cs = body ++ after ∧ Strips (Mention name) after rest := by
  induction body generalizing cs with
  | nil => exact ⟨cs, rfl, h⟩
  | cons c body ih =>
    obtain ⟨hc, hbody⟩ := List.forall_mem_cons.mp hbody
    have hfirst : startsWithWord cs = true := by
      rw [← h.startsWithWord_eq]
      exact hc
    cases h with
    | keep _ htail =>
      obtain ⟨after, rfl, hafter⟩ := ih htail hbody
      exact ⟨after, rfl, hafter⟩
    | drop hm _ =>
      obtain ⟨b, rfl, -, -⟩ := hm
      exact absurd (hfirst.symm.trans not_isWord_at) (by decide)

theorem Strips.not_occurs {name cs kept : List Char} (hname : IsWordName name)
    (h : Strips (Mention name) cs kept) : ¬ Occurs name kept := by
  rintro ⟨before, m, after, heq, hm⟩
  induction h generalizing before with
  | done =>
    obtain ⟨body, rfl, -⟩ := hm
    simp at heq
  | @keep c rest kept hc h ih =>
    cases before with
    | nil =>
      obtain ⟨body, rfl, hbody, hafter⟩ := hm
      obtain ⟨rfl, rfl⟩ := List.cons.inj heq
      obtain ⟨after', rfl, hrest⟩ := h.of_words (hname.body hbody)
      exact hc ('@' :: body) after' rfl ⟨body, rfl, hbody, hrest.startsWithWord_eq ▸ hafter⟩
    | cons b before => exact ih before (List.cons.inj heq).2
  | drop _ _ ih => exact ih before heq

/-! ## What becomes of mentions when a text is tidied -/

theorem isBlank_of_isGap {c : Char} (h : isGap c = true) : isBlank c = true := by
  rw [isGap, Bool.or_eq_true, beq_iff_eq, beq_iff_eq] at h
  rcases h with rfl | rfl <;> rfl

theorem not_isWord_of_isGap {c : Char} (h : isGap c = true) : isWord c = false :=
  not_isWord_of_isBlank (isBlank_of_isGap h)

theorem not_isGap_of_isWord {c : Char} (h : isWord c = true) : isGap c = false := by
  cases hc : isGap c with
  | false => rfl
  | true => exact absurd (h.symm.trans (not_isWord_of_isGap hc)) (by decide)

theorem Condenses.startsWithWord_eq {cs ds : List Char} (h : Condenses cs ds) :
    startsWithWord ds = startsWithWord cs := by
  cases h with
  | nil => rfl
  | other _ _ => rfl
  | lone _ _ _ => rfl
  | @wide gaps cs ds hlen hgaps _ _ =>
    obtain ⟨c, gaps, rfl⟩ := List.exists_cons_of_length_pos (Nat.lt_of_lt_of_le Nat.two_pos hlen)
    have hc := not_isWord_of_isGap (hgaps c List.mem_cons_self)
    exact (not_isWord_of_isGap (c := ' ') rfl).trans hc.symm

theorem Condenses.split {cs before ds : List Char} (h : Condenses cs (before ++ ds)) :
    ∃ before' cs', cs = before' ++ cs' ∧ Condenses cs' ds := by
  induction before generalizing cs with
  | nil => exact ⟨[], cs, rfl, h⟩
  | cons b before ih =>
    cases h with
    | other _ htail =>
      obtain ⟨before', cs', rfl, hds⟩ := ih htail
      exact ⟨b :: before', cs', rfl, hds⟩
    | lone _ _ htail =>
      obtain ⟨before', cs', rfl, hds⟩ := ih htail
      exact ⟨b :: before', cs', rfl, hds⟩
    | @wide gaps _ _ _ _ _ htail =>
      obtain ⟨before', cs', rfl, hds⟩ := ih htail
      exact ⟨gaps ++ before', cs', (List.append_assoc ..).symm, hds⟩

theorem Condenses.of_front {cs front ds : List Char} (h : Condenses cs (front ++ ds))
    (hfront : ∀ c ∈ front, isGap c = false) : ∃ cs', cs = front ++ cs' ∧ Condenses cs' ds := by
  induction front generalizing cs with
  | nil => exact ⟨cs, rfl, h⟩
  | cons c front ih =>
    obtain ⟨hc, hfront⟩ := List.forall_mem_cons.mp hfront
    cases h with
    | other _ htail =>
      obtain ⟨cs', rfl, hds⟩ := ih htail hfront
      exact ⟨cs', rfl, hds⟩
    | lone hgap _ _ => exact absurd (hgap.symm.trans hc) (by decide)
    | wide _ _ _ _ => exact absurd hc (by decide)

/-- Tidying makes no mention of a name of word characters. -/
theorem IsWordName.occurs_of_tidy {name cs : List Char} (hname : IsWordName name)
    (h : Occurs name (tidy cs)) : Occurs name cs := by
  obtain ⟨before, m, after, heq, body, rfl, hbody, hafter⟩ := h
  obtain ⟨lead, trail, hsplit, -, htrail⟩ := exists_trimBy isBlank (shrinkGaps .none cs)
  have hcond : Condenses cs ((lead ++ before) ++ ('@' :: body ++ (after ++ trail))) := by
    have := condenses_shrinkGaps cs
    rw [hsplit, show trimBy isBlank (shrinkGaps .none cs) = _ from heq] at this
    simpa only [List.append_assoc] using this
  have hend : startsWithWord (after ++ trail) = false := by
    cases after with
    | nil =>
      cases trail with
      | nil => rfl
      | cons c _ => exact not_isWord_of_isBlank (htrail c List.mem_cons_self)
    | cons _ _ => exact hafter
  obtain ⟨before', cs', rfl, hm⟩ := hcond.split
  have hfront : ∀ c ∈ '@' :: body, isGap c = false :=
    List.forall_mem_cons.mpr ⟨rfl, fun c hc => not_isGap_of_isWord (hname.body hbody c hc)⟩
  obtain ⟨after', rfl, hrest⟩ := hm.of_front hfront
  exact ⟨before', '@' :: body, after', (List.append_assoc ..).symm, body, rfl, hbody,
    hrest.startsWithWord_eq ▸ hend⟩

end ChatRelay.Text
