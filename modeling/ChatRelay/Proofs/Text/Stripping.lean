import ChatRelay.Proofs.Text.Mentions

/-!
# What stripping mentions achieves

Whatever the name, what comes out is tidy, and it is the message but for the matches, the width of
its gaps and its edges. A name of word characters is never left behind, and stripping again changes
nothing. Other names are: one that ends in another character is matched only where a word character
follows it, and one that has another character inside is put together from its parts when a mention
between them is removed.
-/

namespace ChatRelay.Text

/-! ## Stripping again -/

/-- The second text is the first one with its gaps shrunk and white space taken off its ends. -/
def Tidies (cs ds : List Char) : Prop :=
  ∃ lead trail, Condenses cs (lead ++ ds ++ trail) ∧ (∀ c ∈ lead, isBlank c = true) ∧
    ∀ c ∈ trail, isBlank c = true

theorem tidies_tidy (cs : List Char) : Tidies cs (tidy cs) := by
  obtain ⟨lead, trail, hsplit, hlead, htrail⟩ := exists_trimBy isBlank (shrinkGaps .none cs)
  have hcond := condenses_shrinkGaps cs
  rw [hsplit] at hcond
  exact ⟨lead, trail, hcond, hlead, htrail⟩

theorem toList_stripMentions (name : List Char) (message : String) :
    (stripMentions name message).toList = tidy (removeMentions name 0 message.toList) :=
  String.toList_ofList

/-- A tidy text stays as it is if and only if nothing in it is taken for a mention. -/
theorem stripMentions_eq_self_iff {name : List Char} {text : String} (h : IsTidy text.toList) :
    stripMentions name text = text ↔
      ∀ before m after, text.toList = before ++ m ++ after → ¬ Matched name m after := by
  have hstrips := strips_removeMentions name text.toList
  constructor
  · intro heq
    rcases hstrips.length fun m after hm => List.ne_nil_of_length_eq_add_one hm.length_eq with
      hlt | ⟨-, hnone⟩
    · -- what was shortened once stays shorter
      have hlen := congrArg (fun s => s.toList.length) heq
      simp only [toList_stripMentions] at hlen
      have := length_tidy_le (removeMentions name 0 text.toList)
      omega
    · exact hnone
  · intro hnone
    rw [stripMentions, hstrips.eq_self hnone]
    exact (congrArg String.ofList h.tidy_eq).trans String.ofList_toList

theorem IsWordName.not_occurs_stripMentions {name : List Char} (hname : IsWordName name)
    (message : String) : ¬ Occurs name (stripMentions name message).toList := by
  rw [toList_stripMentions]
  have hstrips := (strips_removeMentions name message.toList).mono
    (matched_iff_mention hname.endsInWord)
  exact fun h => hstrips.not_occurs hname (hname.occurs_of_tidy h)

/-! ## Names that are left behind -/

theorem removeMentions_short {name cs : List Char} (h : cs.length ≤ name.length) :
    removeMentions name 0 cs = cs := by
  refine (strips_removeMentions name cs).eq_self fun before m after heq hm => ?_
  have hlen := congrArg List.length heq
  simp only [List.length_append, hm.length_eq] at hlen
  omega

theorem removeMentions_words {name words rest : List Char} (h : ∀ c ∈ words, isWord c = true) :
    removeMentions name 0 (words ++ rest) = words ++ removeMentions name 0 rest := by
  induction words with
  | nil => rfl
  | cons c words ih =>
    obtain ⟨hc, hwords⟩ := List.forall_mem_cons.mp h
    rw [List.cons_append, removeMentions_of_not, ih hwords, List.cons_append]
    rintro m after heq ⟨body, rfl, -⟩
    obtain ⟨rfl, -⟩ := List.cons.inj heq
    exact absurd (hc.symm.trans not_isWord_at) (by decide)

theorem sameName_refl (name : List Char) : SameName name name :=
  List.forall₂_same.mpr fun c _ => beq_self_eq_true (fold c)

theorem eq_at_of_equalFold {c : Char} (h : equalFold c '@' = true) : c = '@' := by
  have hc : fold c = '@' := (eq_of_beq h).trans (by decide +kernel)
  rw [fold] at hc
  split at hc
  · next r hr =>
    have hcovers : r.covers c.toNat = true := by simpa using List.find?_some hr
    have hkeeps := foldRuns_keepWords r (List.mem_of_find?_eq_some hr)
    have himage := (r.isWord_of_covers hkeeps hcovers).2
    rw [hc] at himage
    exact absurd (himage.symm.trans not_isWord_at) (by decide)
  · exact hc

/-- Behind as many characters as the name has before `c`, a text in which it begins has `c` in some
case. -/
theorem SameName.equalFold_of_append {front back body after tail : List Char} {c d : Char}
    (h : SameName (front ++ c :: back) body) (heq : front ++ d :: tail = body ++ after) :
    equalFold c d = true := by
  induction front generalizing body with
  | nil =>
    obtain _ | ⟨hc, -⟩ := h
    obtain ⟨rfl, -⟩ := List.cons.inj heq
    exact hc
  | cons f front ih =>
    obtain _ | ⟨-, htail⟩ := h
    exact ih htail (List.cons.inj heq).2

def mentioned (name : List Char) : List Char := '@' :: name

theorem occurs_mentioned (name : List Char) : Occurs name (mentioned name) :=
  ⟨[], mentioned name, [], (List.append_nil _).symm, name, rfl, sameName_refl name, rfl⟩

/-- A name that ends in no word character is not taken for mentioned at the end of a text. -/
theorem removeMentions_mentioned {name : List Char} (hne : name ≠ [])
    (hend : endsInWord name = false) : removeMentions name 0 (mentioned name) = mentioned name := by
  refine (strips_removeMentions name _).eq_self fun before m after heq hm => ?_
  have hlen := congrArg List.length heq
  simp only [mentioned, List.length_cons, List.length_append, hm.length_eq] at hlen
  obtain rfl : after = [] := List.eq_nil_of_length_eq_zero (by omega)
  obtain ⟨body, -, -, hafter⟩ := (matched_iff hne).mp hm
  rw [hend] at hafter
  exact absurd hafter (by decide)

/-- A mention between the two halves of another, the second of which begins with no word
character. -/
def nested (front : List Char) (c : Char) (back : List Char) : List Char :=
  '@' :: front ++ (mentioned (front ++ c :: back) ++ c :: back)

theorem removeMentions_nested {front back : List Char} {c : Char}
    (hfront : ∀ d ∈ front, isWord d = true) (hc : isWord c = false) (hat : c ≠ '@')
    (hend : endsInWord (front ++ c :: back) = true) :
    removeMentions (front ++ c :: back) 0 (nested front c back) =
      mentioned (front ++ c :: back) := by
  have hinner : Matched (front ++ c :: back) (mentioned (front ++ c :: back)) (c :: back) :=
    (matched_iff_mention hend _ _).mpr ⟨_, rfl, sameName_refl _, hc⟩
  rw [nested, List.cons_append, removeMentions_of_not, removeMentions_words hfront,
    removeMentions_of_matched hinner, removeMentions_short (by simp)]
  · rfl
  · -- the first at sign begins no match, since another one stands where the name has `c`
    rintro m after heq ⟨body, rfl, hname, -⟩
    exact hat (eq_at_of_equalFold (hname.equalFold_of_append (List.cons.inj heq).2))

theorem getLast?_mentionName? {raw : String} {name : List Char} (h : mentionName? raw = some name) :
    name ≠ [] ∧ ∀ c ∈ name.getLast?, isBlank c = false := by
  rw [mentionName?, Option.ite_none_left_eq_some, List.isEmpty_iff, Option.some.injEq] at h
  obtain ⟨hne, rfl⟩ := h
  refine ⟨hne, fun c hc => getLast?_trimBy_false raw.toList c ?_⟩
  have hsplit : (trimBy isBlank raw.toList).takeWhile (· == '@') ++ _ = _ :=
    List.takeWhile_append_dropWhile
  rw [← hsplit, List.getLast?_append, Option.mem_def.mp hc]
  rfl

theorem isTidy_mentioned {name : List Char} (hthin : IsThin name)
    (hlast : ∀ c ∈ name.getLast?, isBlank c = false) : IsTidy (mentioned name) := by
  refine ⟨hthin.cons fun _ _ => .inl rfl, fun c hc => ?_, fun c hc => ?_⟩
  · obtain rfl := Option.some.inj hc
    rfl
  · rw [mentioned, getLast?_cons_or] at hc
    cases hname : name.getLast? with
    | none =>
      rw [hname] at hc
      obtain rfl := Option.some.inj hc
      rfl
    | some d =>
      rw [hname] at hc
      obtain rfl := Option.some.inj hc
      exact hlast d hname

/-- The first character that is no word character, and what stands around it. -/
theorem exists_first_notWord {name : List Char} (h : ∃ c ∈ name, isWord c = false) :
    ∃ front c back, name = front ++ c :: back ∧ (∀ d ∈ front, isWord d = true) ∧
      isWord c = false := by
  have hfound : (name.find? fun c => !isWord c).isSome := by simpa [List.find?_isSome] using h
  obtain ⟨c, hc⟩ := Option.isSome_iff_exists.mp hfound
  obtain ⟨hword, front, back, hname, hfront⟩ := List.find?_eq_some_iff_append.mp hc
  exact ⟨front, c, back, hname, by simpa using hfront, by simpa using hword⟩

/-- Unless it has word characters only, there is a message in which a name is left behind. -/
theorem exists_occurs_stripMentions {raw : String} {name : List Char}
    (hraw : mentionName? raw = some name) (hat : '@' ∉ name) (hthin : IsThin name)
    (hname : ¬ IsWordName name) : ∃ message, Occurs name (stripMentions name message).toList := by
  obtain ⟨hne, hlast⟩ := getLast?_mentionName? hraw
  have htidy := isTidy_mentioned hthin hlast
  have hleft {cs : List Char} (h : removeMentions name 0 cs = mentioned name) :
      ∃ message, Occurs name (stripMentions name message).toList := by
    refine ⟨.ofList cs, ?_⟩
    rw [toList_stripMentions, String.toList_ofList, h, htidy.tidy_eq]
    exact occurs_mentioned name
  have hother : ∃ c ∈ name, isWord c = false := by
    by_contra hall
    refine hname ⟨hne, fun c hc => ?_⟩
    by_contra hword
    exact hall ⟨c, hc, eq_false_of_ne_true hword⟩
  cases hend : endsInWord name with
  | false => exact hleft (removeMentions_mentioned hne hend)
  | true =>
    obtain ⟨front, c, back, rfl, hfront, hc⟩ := exists_first_notWord hother
    have hc' : c ≠ '@' := by
      rintro rfl
      exact hat (by simp)
    exact hleft (removeMentions_nested hfront hc hc' hend)

end ChatRelay.Text

namespace ChatRelay.Transformer
open Text

/-- Stripping gives a tidy text: the message without what is taken for mentions, its gaps shrunk and
its ends trimmed. It changes nothing in a tidy text without matches. If the name ends in a word
character the matches are the mentions that no word character continues; if it does not, they are
those that one does. A name of word characters is left nowhere, and stripping again changes nothing;
of other names, without at signs and wide gaps, some message keeps a mention. -/
theorem mentionStrip_removes {raw : String} {stage : Transformer}
    (h : mentionStrip raw = .ok stage) :
    ∃ name, mentionName? raw = some name ∧
      (∀ request message, ∃ out kept, stage.apply request message = .ok out ∧ IsTidy out.toList ∧
        Strips (Matched name) message.toList kept ∧ Tidies kept out.toList ∧
        (stage.apply request out = .ok out ↔
          ∀ before m after, out.toList = before ++ m ++ after → ¬ Matched name m after) ∧
        (endsInWord name = true → Strips (Mention name) message.toList kept) ∧
        (IsWordName name → ¬ Occurs name out.toList ∧ stage.apply request out = .ok out)) ∧
      (endsInWord name = false → ∀ m after, Matched name m after → startsWithWord after = true) ∧
      ('@' ∉ name → IsThin name → ¬ IsWordName name →
        ∀ request, ∃ message out,
          stage.apply request message = .ok out ∧ Occurs name out.toList) := by
  rw [mentionStrip] at h
  split at h
  · next name hname =>
    obtain rfl := Except.ok.inj h
    have hsame {out : String} (htidy : IsTidy out.toList) :
        (Except.ok (stripMentions name out) : Except PipelineError String) = .ok out ↔
          ∀ before m after, out.toList = before ++ m ++ after → ¬ Matched name m after := by
      rw [Except.ok.injEq, stripMentions_eq_self_iff htidy]
    refine ⟨name, hname, fun request message => ?_, fun hend m after hm => ?_, ?_⟩
    · have hstrips := strips_removeMentions name message.toList
      have htidies := tidies_tidy (removeMentions name 0 message.toList)
      have htidy := isTidy_tidy (removeMentions name 0 message.toList)
      rw [← toList_stripMentions] at htidies htidy
      refine ⟨_, _, rfl, htidy, hstrips, htidies, hsame htidy,
        fun hend => hstrips.mono (matched_iff_mention hend), fun hword => ?_⟩
      have hnone := hword.not_occurs_stripMentions message
      refine ⟨hnone, (hsame htidy).mpr fun before m after heq hm => hnone ?_⟩
      exact ⟨before, m, after, heq, (matched_iff_mention hword.endsInWord m after).mp hm⟩
    · obtain ⟨body, -, -, hafter⟩ := (matched_iff (getLast?_mentionName? hname).1).mp hm
      rw [hafter, hend]
      rfl
    · intro hat hthin hword request
      obtain ⟨message, hoccurs⟩ := exists_occurs_stripMentions hname hat hthin hword
      exact ⟨message, _, rfl, hoccurs⟩
  · cases h

/-- The stage for a name that is accepted. -/
theorem mentionStrip_of_name {raw : String} {name : List Char} (h : mentionName? raw = some name) :
    mentionStrip raw =
      .ok ⟨"mention_strip", fun _ message => .ok (stripMentions name message)⟩ := by
  rw [mentionStrip, h]

/-- The name `@Relay` is removed where it is mentioned, in any case. Some message keeps a mention of
`relay!`. -/
theorem relay_removed :
    (∃ stage out, mentionStrip "@Relay" = .ok stage ∧
      stage.apply default "@RELAY hi" = .ok out ∧ out = "hi" ∧
      ¬ Occurs ['R', 'e', 'l', 'a', 'y'] out.toList ∧ stage.apply default out = .ok out) ∧
    ∃ stage message out, mentionStrip "relay!" = .ok stage ∧
      stage.apply default message = .ok out ∧
      Occurs ['r', 'e', 'l', 'a', 'y', '!'] out.toList := by
  constructor
  · have hname : mentionName? "@Relay" = some ['R', 'e', 'l', 'a', 'y'] := by decide +kernel
    obtain ⟨name, hname', hall, -⟩ := mentionStrip_removes (mentionStrip_of_name hname)
    obtain rfl := Option.some.inj (hname.symm.trans hname')
    obtain ⟨out, kept, hout, -, -, -, -, -, hword⟩ := hall default "@RELAY hi"
    have hword' : ['R', 'e', 'l', 'a', 'y'].all isWord = true := by decide +kernel
    have hrelay : IsWordName ['R', 'e', 'l', 'a', 'y'] := ⟨by decide, List.all_eq_true.mp hword'⟩
    refine ⟨_, out, mentionStrip_of_name hname, hout, ?_, hword hrelay⟩
    exact (Except.ok.inj hout).symm.trans (by decide +kernel)
  · have hname : mentionName? "relay!" = some ['r', 'e', 'l', 'a', 'y', '!'] := by decide +kernel
    obtain ⟨name, hname', -, -, hleft⟩ := mentionStrip_removes (mentionStrip_of_name hname)
    obtain rfl := Option.some.inj (hname.symm.trans hname')
    have hthin : IsThin ['r', 'e', 'l', 'a', 'y', '!'] := by
      unfold IsThin
      decide
    have hword : ¬ IsWordName ['r', 'e', 'l', 'a', 'y', '!'] := fun h =>
      absurd (h.isWord '!' (by decide)) (by decide +kernel)
    obtain ⟨message, out, hout, hoccurs⟩ := hleft (by decide) hthin hword default
    exact ⟨_, message, out, mentionStrip_of_name hname, hout, hoccurs⟩

/-- A mention of `relay!` between blanks stays. -/
theorem relayBang_kept :
    (∃ stage, mentionStrip "relay!" = .ok stage ∧
      stage.apply default "hi @relay! ok" = .ok "hi @relay! ok") ∧
    Occurs ['r', 'e', 'l', 'a', 'y', '!'] "hi @relay! ok".toList := by
  have hname : mentionName? "relay!" = some ['r', 'e', 'l', 'a', 'y', '!'] := by decide +kernel
  refine ⟨⟨_, mentionStrip_of_name hname, ?_⟩, ?_⟩
  · exact congrArg Except.ok (by decide +kernel)
  · exact ⟨['h', 'i', ' '], ['@', 'r', 'e', 'l', 'a', 'y', '!'], [' ', 'o', 'k'], by decide +kernel,
      _, rfl, sameName_refl _, by decide +kernel⟩

end ChatRelay.Transformer
