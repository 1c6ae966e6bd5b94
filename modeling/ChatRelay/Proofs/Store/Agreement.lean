import ChatRelay.Proofs.Conversation.Encoding
import ChatRelay.Proofs.Store.History
import ChatRelay.Proofs.Store.Rows

/-!
# The store in a database answers as the one in memory

A database may keep its rows in any order and return them in any order, and it may pass over row
numbers; all it promises is that a new row has a greater number than those before it. What is read
from it is sorted by these numbers, so that none of this shows. `Runs` are the operations on such a
database, those of the store in a database among them, and each of their answers is the one that
the history calls for.
-/

namespace ChatRelay

namespace Store

def Operation.IsStorable : Operation → Prop
  | .addTurns _ turns => ∀ t ∈ turns, t.IsStorable
  | _ => True

def Operation.rows : Operation → Nat
  | .append _ _ => 1
  | .addTurns _ turns => turns.length
  | _ => 0

theorem said_storable {ops : List Operation} (h : ∀ op ∈ ops, op.IsStorable) (user : String) :
    ∀ t ∈ said user ops, t.IsStorable := by
  intro t ht
  obtain ⟨op, hop, ht⟩ := List.mem_flatMap.mp ht
  cases op with
  | addTurns u turns =>
    refine h _ hop t ?_
    by_cases hu : u = user <;> simp_all
  | _ => cases ht

end Store

namespace Database
open Store

/-! ## Databases that keep their rows as they like -/

/-- The same rows in another order, perhaps with some numbers passed over. -/
structure Shuffled (d e : Database) : Prop where
  listRows : e.listRows.Perm d.listRows
  nextListRow : d.nextListRow ≤ e.nextListRow
  turnRows : e.turnRows.Perm d.turnRows
  nextTurnRow : d.nextTurnRow ≤ e.nextTurnRow
  answered : e.answered.Perm d.answered

theorem Shuffled.refl (d : Database) : Shuffled d d where
  listRows := .refl _
  nextListRow := Nat.le_refl _
  turnRows := .refl _
  nextTurnRow := Nat.le_refl _
  answered := .refl _

/-- Turns are stored one after the other, as long as there are numbers for their rows. -/
inductive Adds (user : String) : List Turn → Database → Database → Prop
  | nil (d : Database) : Adds user [] d d
  | cons {d e d' : Database} {t : Turn} {turns : List Turn} (hde : Shuffled d e)
      (hroom : e.nextTurnRow ≤ maxLimit) (hrest : Adds user turns (e.addPayload user t.encode) d') :
      Adds user (t :: turns) d d'

/-- One operation on a database, which has put its rows in some order before. -/
inductive Performs : Database → Operation → Answer → Database → Prop
  | append {d e : Database} (key value : String) (hde : Shuffled d e)
      (hroom : e.nextListRow ≤ maxLimit) :
      Performs d (.append key value) .done (e.append key value)
  | drain {d e : Database} (key : String) (hde : Shuffled d e) :
      Performs d (.drain key) (.texts (e.drain key).1) (e.drain key).2
  | count {d e : Database} (key : String) (hde : Shuffled d e) :
      Performs d (.count key) (.number (KeyedLists.count e key)) e
  | addTurns {d d' : Database} {user : String} {turns : List Turn} (hadds : Adds user turns d d') :
      Performs d (.addTurns user turns) .done d'
  | recent {d e : Database} (user : String) (limit : Nat) (hde : Shuffled d e) :
      Performs d (.recent user limit) (.turns (e.queryRecent user limit)) e
  | seen {d e : Database} (user : String) (ids : List String) (hde : Shuffled d e) :
      Performs d (.seen user ids) (.ids (AnsweredIds.seen e user ids)) e
  | mark {d e : Database} (user : String) (ids : List String) (hde : Shuffled d e) :
      Performs d (.mark user ids) .done (e.mark user ids)

inductive Runs : Database → List Operation → List Answer → Database → Prop
  | nil (d : Database) : Runs d [] [] d
  | cons {d d' d'' : Database} {op : Operation} {answer : Answer} {ops : List Operation}
      {answers : List Answer} (hop : Performs d op answer d') (hops : Runs d' ops answers d'') :
      Runs d (op :: ops) (answer :: answers) d''

/-! ## What the rows say -/

/-- The rows of lists are those of these texts. -/
def HoldsTexts (d : Database) (texts : String → List String) : Prop :=
  ∃ rows, Numbered ListRow.id d.nextListRow d.listRows rows ∧
    ∀ key, (rows.filter (·.key = key)).map (·.value) = texts key

/-- The rows of turns are those of these conversations, and there are no more of them than there
are numbers. -/
def HoldsTurns (d : Database) (turns : String → List Turn) : Prop :=
  ∃ rows, Numbered TurnRow.id d.nextTurnRow d.turnRows rows ∧
    rows.length < d.nextTurnRow ∧ rows.length ≤ maxLimit ∧
    ∀ user, (rows.filter (·.user = user)).map (·.payload) = (turns user).map Turn.encode

section
variable {d e : Database} {texts : String → List String}

theorem HoldsTexts.shuffled (h : d.HoldsTexts texts) (hde : Shuffled d e) : e.HoldsTexts texts := by
  obtain ⟨rows, hnumbered, htexts⟩ := h
  exact ⟨rows, hnumbered.moved hde.listRows hde.nextListRow, htexts⟩

theorem HoldsTexts.append (h : d.HoldsTexts texts) (key value : String) :
    (d.append key value).HoldsTexts fun k =>
      (Operation.append key value).onList k (texts k) := by
  obtain ⟨rows, hnumbered, htexts⟩ := h
  refine ⟨_, hnumbered.append ⟨d.nextListRow, key, value⟩ rfl, fun k => ?_⟩
  dsimp only
  rw [List.filter_append, List.map_append, htexts]
  by_cases hk : key = k <;> simp [Operation.onList, hk]

theorem HoldsTexts.drain (h : d.HoldsTexts texts) (key : String) :
    (d.drain key).2.HoldsTexts fun k => (Operation.drain key).onList k (texts k) := by
  obtain ⟨rows, hnumbered, htexts⟩ := h
  refine ⟨rows.filter (·.key ≠ key), hnumbered.filter _, fun k => ?_⟩
  simp only [Operation.onList]
  rw [List.filter_filter]
  by_cases hk : key = k
  · simp [hk]
  · rw [if_neg hk, ← htexts]
    congr 1
    refine List.filter_congr fun row _ => ?_
    by_cases hrow : row.key = k <;> simp [hrow, Ne.symm hk]

/-- Deleted rows come back in the order in which they were added. -/
theorem HoldsTexts.drained (h : d.HoldsTexts texts) (key : String) :
    (d.drain key).1 = texts key := by
  obtain ⟨rows, hnumbered, htexts⟩ := h
  have hrows := (hnumbered.filter (·.key = key)).eq_of_sorted (byNumber_perm _) (byNumber_sorted _)
  rw [← htexts, ← hrows]
  rfl

theorem HoldsTexts.counted (h : d.HoldsTexts texts) (key : String) :
    KeyedLists.count d key = (texts key).length := by
  obtain ⟨rows, hnumbered, htexts⟩ := h
  rw [← htexts, List.length_map]
  exact (hnumbered.perm.filter (·.key = key)).length_eq

end

section
variable {d e : Database} {turns : String → List Turn} {user : String}

theorem HoldsTurns.shuffled (h : d.HoldsTurns turns) (hde : Shuffled d e) : e.HoldsTurns turns := by
  obtain ⟨rows, hnumbered, hnext, hlength, hturns⟩ := h
  exact ⟨rows, hnumbered.moved hde.turnRows hde.nextTurnRow,
    Nat.lt_of_lt_of_le hnext hde.nextTurnRow, hlength, hturns⟩

theorem HoldsTurns.addPayload (h : d.HoldsTurns turns) (hroom : d.nextTurnRow ≤ maxLimit)
    (user : String) (t : Turn) : (d.addPayload user t.encode).HoldsTurns fun u =>
      (Operation.addTurns user [t]).onTurns u (turns u) := by
  obtain ⟨rows, hnumbered, hnext, hlength, hturns⟩ := h
  refine ⟨_, hnumbered.append ⟨d.nextTurnRow, user, t.encode⟩ rfl, ?_, ?_, fun u => ?_⟩
  · rw [List.length_append]
    exact Nat.succ_lt_succ hnext
  · rw [List.length_append]
    exact Nat.le_trans hnext hroom
  · dsimp only
    rw [List.filter_append, List.map_append, hturns]
    by_cases hu : user = u <;> simp [Operation.onTurns, hu]

theorem decodeAll_encode {turns : List Turn} (h : ∀ t ∈ turns, t.IsStorable) :
    decodeAll (turns.map Turn.encode) = .ok turns := by
  induction turns with
  | nil => rfl
  | cons t turns ih =>
    obtain ⟨ht, hturns⟩ := List.forall_mem_cons.mp h
    simp only [List.map_cons, decodeAll, Turn.decode_encode ht, ih hturns]
    rfl

/-- The query returns the last turns, read back. -/
theorem HoldsTurns.recent (h : d.HoldsTurns turns) (hstorable : ∀ t ∈ turns user, t.IsStorable)
    (limit : Nat) : d.queryRecent user limit = .ok (lastOf limit (turns user)) := by
  obtain ⟨rows, hnumbered, -, hlength, hturns⟩ := h
  have hbound : (turns user).length ≤ maxLimit := by
    rw [← List.length_map Turn.encode, ← hturns, List.length_map]
    exact (List.length_filter_le ..).trans hlength
  have hpayloads : (d.lastRows user limit).map (·.payload) =
      (lastOf limit (turns user)).map Turn.encode := by
    rw [lastRows_eq hnumbered, ← lastOf_map, hturns, lastOf_map, lastOf_min hbound]
  rw [queryRecent, hpayloads]
  exact decodeAll_encode fun t ht => hstorable t (List.mem_of_mem_drop ht)

end

/-- The database holds what the history says. -/
structure Reflects (d : Database) (ops : List Operation) : Prop where
  texts : d.HoldsTexts (left · ops)
  turns : d.HoldsTurns (said · ops)
  answered : ∀ user id, (user, id) ∈ d.answered ↔ id ∈ marked user ops

theorem reflects_empty : Reflects {} [] where
  texts := ⟨[], .nil, fun _ => rfl⟩
  turns := ⟨[], .nil, by decide, by decide, fun _ => rfl⟩
  answered user id := by simp [marked]

theorem HoldsTurns.adds {d d' : Database} {turns : String → List Turn} (hd : d.HoldsTurns turns)
    {user : String} {added : List Turn} (h : Adds user added d d') :
    d'.HoldsTurns fun u => (Operation.addTurns user added).onTurns u (turns u) := by
  induction h generalizing turns with
  | nil d => simpa [Operation.onTurns] using hd
  | cons hde hroom _ ih =>
    have hrest := ih ((hd.shuffled hde).addPayload hroom user _)
    refine Eq.mp (congrArg _ (funext fun u => ?_)) hrest
    by_cases hu : user = u <;> simp [Operation.onTurns, hu]

/-- Turns leave the other tables alone. -/
theorem Adds.others {d d' : Database} {user : String} {added : List Turn}
    (h : Adds user added d d') : (∀ texts, d.HoldsTexts texts → d'.HoldsTexts texts) ∧
      ∀ entry, entry ∈ d'.answered ↔ entry ∈ d.answered := by
  induction h with
  | nil d => exact ⟨fun _ h => h, fun _ => Iff.rfl⟩
  | cons hde _ _ ih =>
    obtain ⟨htexts, hanswered⟩ := ih
    refine ⟨fun texts h => ?_, fun entry => (hanswered entry).trans hde.answered.mem_iff⟩
    have he := h.shuffled hde
    exact htexts texts he

section
variable {d d' e : Database} {before ops : List Operation} {op : Operation}

theorem Reflects.shuffled (h : d.Reflects ops) (hde : Shuffled d e) : e.Reflects ops where
  texts := h.texts.shuffled hde
  turns := h.turns.shuffled hde
  answered user id := hde.answered.mem_iff.trans (h.answered user id)

/-- However the rows lie, the answer is the one that the history calls for. -/
theorem Reflects.answers (h : d.Reflects before) (hbefore : ∀ op ∈ before, op.IsStorable)
    {answer : Answer} (hop : Performs d op answer d') : answer = expected before op := by
  cases hop with
  | drain key hde => exact congrArg _ ((h.shuffled hde).texts.drained key)
  | count key hde => exact congrArg _ ((h.shuffled hde).texts.counted key)
  | recent user limit hde =>
    exact congrArg _ ((h.shuffled hde).turns.recent (said_storable hbefore user) limit)
  | seen user ids hde =>
    refine congrArg Answer.ids (List.filter_congr fun id _ => ?_)
    simp [(h.shuffled hde).answered user id]
  | _ => rfl

theorem Reflects.performs (h : d.Reflects before) {answer : Answer}
    (hop : Performs d op answer d') : d'.Reflects (before ++ [op]) where
  texts := by
    simp only [left_snoc]
    cases hop with
    | append key value hde => exact (h.shuffled hde).texts.append key value
    | drain key hde => exact (h.shuffled hde).texts.drain key
    | addTurns hadds => exact hadds.others.1 _ h.texts
    | count _ hde | recent _ _ hde | seen _ _ hde | mark _ _ hde => exact (h.shuffled hde).texts
  turns := by
    simp only [said_snoc]
    cases hop with
    | addTurns hadds => exact h.turns.adds hadds
    | append _ _ hde | drain _ hde | count _ hde | recent _ _ hde | seen _ _ hde | mark _ _ hde =>
      exact (h.shuffled hde).turns
  answered user id := by
    rw [marked_snoc]
    cases hop with
    | mark u ids hde =>
      refine (mem_foldl_markOne u user id ids _).trans ?_
      rw [(h.shuffled hde).answered]
      by_cases hu : user = u <;> simp [Operation.onIds, hu, eq_comm, or_comm]
    | addTurns hadds => exact (hadds.others.2 (user, id)).trans (h.answered user id)
    | append _ _ hde | drain _ hde | count _ hde | recent _ _ hde | seen _ _ hde =>
      exact (h.shuffled hde).answered user id

/-- Every run from a database that holds what the history says gives the answers that the
history calls for. -/
theorem Reflects.runs (h : d.Reflects before) {answers : List Answer}
    (hruns : Runs d ops answers d') (hstorable : ∀ op ∈ before ++ ops, op.IsStorable) :
    answers = expectedAll before ops ∧ d'.Reflects (before ++ ops) := by
  induction hruns generalizing before with
  | nil d => exact ⟨rfl, (List.append_nil before).symm ▸ h⟩
  | @cons d d₁ d' op answer ops answers hop hops ih =>
    have hbefore : ∀ op ∈ before, op.IsStorable :=
      fun op hop => hstorable op (List.mem_append_left _ hop)
    rw [List.append_cons] at hstorable ⊢
    obtain ⟨hanswers, hreflects⟩ := ih (h.performs hop) hstorable
    exact ⟨congrArg₂ List.cons (h.answers hbefore hop) hanswers, hreflects⟩

end

/-! ## The store itself -/

/-- The rows of turns stand in order, and there are numbers for so many rows more. -/
structure HasRoom (d : Database) (more : Nat) : Prop where
  numbered : Numbered TurnRow.id d.nextTurnRow d.turnRows d.turnRows
  lists : d.nextListRow + more ≤ maxLimit + 1
  turns : d.nextTurnRow + more ≤ maxLimit + 1

/-- As long as the rows of turns stand in order, the last ones are those that are asked for. -/
theorem HasRoom.recent {d : Database} {more : Nat} (h : d.HasRoom more) (user : String)
    (limit : Nat) : d.recent user limit = d.queryRecent user limit := by
  rw [Database.recent, queryRecent, lastRows_eq h.numbered, payloads, lastOf_map]

theorem HasRoom.adds {d : Database} {user : String} {turns : List Turn} {more : Nat}
    (h : d.HasRoom (turns.length + more)) :
    Adds user turns d (d.addTurns user turns) ∧ (d.addTurns user turns).HasRoom more := by
  induction turns generalizing d with
  | nil =>
    rw [List.length_nil, Nat.zero_add] at h
    exact ⟨.nil d, h⟩
  | cons t turns ih =>
    have hlists := h.lists
    have hturns := h.turns
    rw [List.length_cons] at hlists hturns
    have hadded : (d.addPayload user t.encode).HasRoom (turns.length + more) :=
      ⟨h.numbered.append _ rfl, (by omega : d.nextListRow + (turns.length + more) ≤ maxLimit + 1),
        (by omega : d.nextTurnRow + 1 + (turns.length + more) ≤ maxLimit + 1)⟩
    obtain ⟨hadds, hroom⟩ := ih hadded
    exact ⟨.cons (.refl d) (by omega) hadds, hroom⟩

theorem HasRoom.performs {d : Database} {op : Operation} {more : Nat}
    (h : d.HasRoom (op.rows + more)) :
    Performs d op (perform d op).1 (perform d op).2 ∧ (perform d op).2.HasRoom more := by
  have hlists := h.lists
  have hturns := h.turns
  have hmore : d.HasRoom more := ⟨h.numbered, by omega, by omega⟩
  cases op with
  | append key value =>
    rw [Operation.rows] at hlists
    exact ⟨.append key value (.refl d) (by omega), h.numbered,
      (by omega : d.nextListRow + 1 + more ≤ maxLimit + 1), hmore.turns⟩
  | drain key => exact ⟨.drain key (.refl d), hmore.numbered, hmore.lists, hmore.turns⟩
  | count key => exact ⟨.count key (.refl d), hmore⟩
  | addTurns user turns =>
    obtain ⟨hadds, hroom⟩ := HasRoom.adds h
    exact ⟨.addTurns hadds, hroom⟩
  | recent user limit =>
    have hanswer : (perform d (.recent user limit)).1 = .turns (d.queryRecent user limit) :=
      congrArg Answer.turns (h.recent user limit)
    exact ⟨hanswer ▸ .recent user limit (.refl d), hmore⟩
  | seen user ids => exact ⟨.seen user ids (.refl d), hmore⟩
  | mark user ids => exact ⟨.mark user ids (.refl d), hmore.numbered, hmore.lists, hmore.turns⟩

/-- As long as there are numbers for all rows, the operations of the store are such a run. -/
theorem HasRoom.runs {d : Database} {ops : List Operation}
    (h : d.HasRoom (ops.map Operation.rows).sum) :
    Runs d ops (performAll d ops).1 (performAll d ops).2 := by
  induction ops generalizing d with
  | nil => exact .nil d
  | cons op ops ih =>
    rw [List.map_cons, List.sum_cons] at h
    obtain ⟨hop, hroom⟩ := h.performs
    exact .cons hop (ih hroom)

end Database

namespace Store
open Database

/-- Whatever a database does with its rows, its answers are those of the store in memory and those
that the history calls for; what was drained from a list and what is left there is everything that
was appended to it. The store in a database is such a database as long as its rows can be
numbered. -/
theorem database_agrees_with_memory {ops : List Operation} (hstorable : ∀ op ∈ ops, op.IsStorable) :
    ((ops.map Operation.rows).sum ≤ maxLimit →
      Runs {} ops (performAll ({} : Database) ops).1 (performAll ({} : Database) ops).2) ∧
    ∀ answers d, Runs {} ops answers d →
      answers = (performAll ({} : Memory) ops).1 ∧ answers = expectedAll [] ops ∧
      ∀ key, drained key ops answers ++ (d.drain key).1 = appended key ops ∧
        drained key ops answers ++ (performAll ({} : Memory) ops).2.list key =
          appended key ops := by
  constructor
  · intro hrows
    exact HasRoom.runs ⟨.nil, by change 1 + _ ≤ _; omega, by change 1 + _ ≤ _; omega⟩
  · intro answers d hruns
    obtain ⟨hanswers, hreflects⟩ := reflects_empty.runs hruns hstorable
    obtain ⟨hmemory, hfollows⟩ := performAll_memory follows_empty ops
    refine ⟨hanswers.trans hmemory.symm, hanswers, fun key => ?_⟩
    have hhistory : appended key ops = drained key ops answers ++ left key ops :=
      hanswers ▸ drained_append_left key ops []
    rw [hreflects.texts.drained key, hfollows.lists key]
    exact ⟨hhistory.symm, hhistory.symm⟩

def askingForTime : Turn where
  role := .assistant
  content := ""
  toolCalls := [⟨"call", "time", .object [("zone", .array [.string "UTC", .integer (-3)])]⟩]

def visit : List Operation := [
  .append "a" "first",
  .addTurns "ann" [.user "What time is it?", askingForTime],
  .append "b" "other",
  .mark "ann" ["m1"],
  .append "a" "second",
  .addTurns "ben" [.user "Hello."],
  .drain "a",
  .append "a" "third",
  .recent "ann" 1,
  .recent "ben" 18446744073709551615,
  .seen "ann" ["m1", "m2"],
  .seen "ben" ["m1"],
  .count "a"]

theorem askingForTime_storable : askingForTime.IsStorable := by
  refine ⟨?_, by decide⟩
  simp [askingForTime, ToolCall.IsStorable, Json.IsPlain, Json.MembersPlain, Json.AllPlain,
    Json.IsCanonical, Json.MembersCanonical, Json.AllCanonical, Json.IsWord]

theorem visit_storable : ∀ op ∈ visit, op.IsStorable := by
  have huser (content : String) : (Turn.user content).IsStorable :=
    Turn.isStorable_of_no_calls rfl
  simp [visit, Operation.IsStorable, askingForTime_storable, huser]

theorem visit_agrees : (∀ op ∈ visit, op.IsStorable) ∧ (visit.map Operation.rows).sum ≤ maxLimit ∧
    (performAll ({} : Database) visit).1 = (performAll ({} : Memory) visit).1 ∧
    (performAll ({} : Database) visit).1 = [.done, .done, .done, .done, .done, .done,
      .texts ["first", "second"], .done, .turns (.ok [askingForTime]),
      .turns (.ok [.user "Hello."]), .ids ["m1"], .ids [], .number 1] := by
  obtain ⟨hruns, hagree⟩ := database_agrees_with_memory visit_storable
  have hrows : (visit.map Operation.rows).sum ≤ maxLimit := by decide
  obtain ⟨hmemory, hexpected, -⟩ := hagree _ _ (hruns hrows)
  exact ⟨visit_storable, hrows, hmemory, hexpected.trans (by decide)⟩

end Store
end ChatRelay
