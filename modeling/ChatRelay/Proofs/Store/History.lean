import ChatRelay.Proofs.Store.Lawful

/-!
# What a store answers

Operations on a store, and what each of them has to answer, going by the operations before it: a
list holds what was appended under its key since it was last drained, a conversation consists of all
turns of its user, and an id is seen once it has been marked for the user. The store in memory
answers so.
-/

namespace ChatRelay.Store

inductive Operation where
  | append (key value : String)
  | drain (key : String)
  | count (key : String)
  | addTurns (user : String) (turns : List Turn)
  | recent (user : String) (limit : Nat)
  | seen (user : String) (ids : List String)
  | mark (user : String) (ids : List String)
deriving DecidableEq

inductive Answer where
  | done
  | texts (texts : List String)
  | number (n : Nat)
  | turns (outcome : Except StoreError (List Turn))
  | ids (ids : List String)
deriving DecidableEq

section
variable {σ : Type} [Store σ]

def perform (s : σ) : Operation → Answer × σ
  | .append key value => (.done, KeyedLists.append s key value)
  | .drain key => (.texts (KeyedLists.drain s key).1, (KeyedLists.drain s key).2)
  | .count key => (.number (KeyedLists.count s key), s)
  | .addTurns user turns => (.done, Conversations.addTurns s user turns)
  | .recent user limit => (.turns (Conversations.recent s user limit), s)
  | .seen user ids => (.ids (AnsweredIds.seen s user ids), s)
  | .mark user ids => (.done, AnsweredIds.mark s user ids)

/-- Operations one after the other: their answers, and the store in the end. -/
def performAll (s : σ) : List Operation → List Answer × σ
  | [] => ([], s)
  | op :: ops =>
    let (answer, s) := perform s op
    let (answers, s) := performAll s ops
    (answer :: answers, s)

end

/-! ## By the history -/

def appended (key : String) (ops : List Operation) : List String :=
  ops.filterMap fun
    | .append k value => if k = key then some value else none
    | _ => none

/-- What an operation makes of the list under a key. -/
def Operation.onList (key : String) (texts : List String) : Operation → List String
  | .append k value => if k = key then texts ++ [value] else texts
  | .drain k => if k = key then [] else texts
  | _ => texts

/-- What was appended under a key since it was last drained. -/
def left (key : String) (ops : List Operation) : List String :=
  ops.foldl (fun texts op => op.onList key texts) []

def said (user : String) (ops : List Operation) : List Turn :=
  ops.flatMap fun
    | .addTurns u turns => if u = user then turns else []
    | _ => []

def marked (user : String) (ops : List Operation) : List String :=
  ops.flatMap fun
    | .mark u ids => if u = user then ids else []
    | _ => []

/-- What an operation makes of the conversation of a user. -/
def Operation.onTurns (user : String) (turns : List Turn) : Operation → List Turn
  | .addTurns u added => if u = user then turns ++ added else turns
  | _ => turns

def Operation.onIds (user : String) (ids : List String) : Operation → List String
  | .mark u added => if u = user then ids ++ added else ids
  | _ => ids

/-- What an operation has to answer after others. -/
def expected (before : List Operation) : Operation → Answer
  | .append _ _ | .addTurns _ _ | .mark _ _ => .done
  | .drain key => .texts (left key before)
  | .count key => .number (left key before).length
  | .recent user limit => .turns (.ok (lastOf limit (said user before)))
  | .seen user ids => .ids (ids.filter (· ∈ marked user before))

def expectedAll (before : List Operation) : List Operation → List Answer
  | [] => []
  | op :: ops => expected before op :: expectedAll (before ++ [op]) ops

/-- What an operation on a list took from under a key. -/
def taken (key : String) : Operation × Answer → List String
  | (.drain k, .texts texts) => if k = key then texts else []
  | _ => []

def drained (key : String) (ops : List Operation) (answers : List Answer) : List String :=
  (ops.zip answers).flatMap (taken key)

section
variable (key user : String) (ops : List Operation) (op : Operation)

theorem left_snoc : left key (ops ++ [op]) = op.onList key (left key ops) := by
  simp [left]

theorem said_snoc : said user (ops ++ [op]) = op.onTurns user (said user ops) := by
  rw [said, List.flatMap_append, List.flatMap_singleton]
  cases op with
  | addTurns u turns => by_cases hu : u = user <;> simp [said, Operation.onTurns, hu]
  | _ => exact List.append_nil _

theorem marked_snoc : marked user (ops ++ [op]) = op.onIds user (marked user ops) := by
  rw [marked, List.flatMap_append, List.flatMap_singleton]
  cases op with
  | mark u ids => by_cases hu : u = user <;> simp [marked, Operation.onIds, hu]
  | _ => exact List.append_nil _

/-- One operation takes from a list what it does not leave there. -/
theorem taken_append_onList : left key ops ++ appended key [op] =
    taken key (op, expected ops op) ++ op.onList key (left key ops) := by
  cases op with
  | append k value => by_cases hk : k = key <;> simp [appended, taken, Operation.onList, hk]
  | drain k => by_cases hk : k = key <;> simp [appended, taken, expected, Operation.onList, hk]
  | _ => simp [appended, taken, Operation.onList]

/-- Nothing is lost, duplicated or reordered: what was drained and what is left make up what was
there and what was appended. -/
theorem drained_append_left (before : List Operation) :
    left key before ++ appended key ops =
      drained key ops (expectedAll before ops) ++ left key (before ++ ops) := by
  induction ops generalizing before with
  | nil => simp [appended, drained]
  | cons op ops ih =>
    have happended : appended key (op :: ops) = appended key [op] ++ appended key ops :=
      List.filterMap_append (l := [op])
    calc left key before ++ appended key (op :: ops)
        = (left key before ++ appended key [op]) ++ appended key ops := by
          rw [happended, List.append_assoc]
      _ = taken key (op, expected before op) ++
            (left key (before ++ [op]) ++ appended key ops) := by
          rw [taken_append_onList, ← left_snoc, List.append_assoc]
      _ = drained key (op :: ops) (expectedAll before (op :: ops)) ++
            left key (before ++ op :: ops) := by
          rw [ih (before ++ [op])]
          simp [drained, expectedAll]

end

/-! ## The store in memory -/

/-- The store in memory holds what the history says. -/
structure Follows (m : Memory) (ops : List Operation) : Prop where
  lists : ∀ key, m.list key = left key ops
  conversations : ∀ user, m.conversation user = said user ops
  answered : ∀ user id, id ∈ m.ids user ↔ id ∈ marked user ops

theorem follows_empty : Follows {} [] where
  lists _ := rfl
  conversations _ := rfl
  answered user id := by simp [Memory.ids, Table.get?, marked]

section
variable {m : Memory} {before : List Operation} (h : Follows m before) (op : Operation)
include h

theorem Follows.answer : (perform m op).1 = expected before op := by
  cases op with
  | drain key => exact congrArg Answer.texts (h.lists key)
  | count key => exact congrArg (fun texts => Answer.number texts.length) (h.lists key)
  | recent user limit =>
    exact congrArg (fun turns => Answer.turns (.ok (lastOf limit turns))) (h.conversations user)
  | seen user ids =>
    refine congrArg Answer.ids (List.filter_congr fun id _ => ?_)
    simp [h.answered user id]
  | _ => rfl

theorem Follows.perform : Follows (perform m op).2 (before ++ [op]) where
  lists key := by
    rw [left_snoc, ← h.lists]
    cases op with
    | append k value =>
      refine (Memory.list_append m k key value).trans ?_
      by_cases hk : key = k <;> simp [Operation.onList, hk, eq_comm]
    | drain k =>
      refine (Memory.list_drain m k key).trans ?_
      by_cases hk : key = k <;> simp [Operation.onList, hk, eq_comm]
    | _ => rfl
  conversations user := by
    rw [said_snoc, ← h.conversations]
    cases op with
    | addTurns u turns =>
      refine (Memory.conversation_addTurns m u user turns).trans ?_
      by_cases hu : user = u <;> simp [Operation.onTurns, hu, eq_comm]
    | _ => rfl
  answered user id := by
    rw [marked_snoc]
    cases op with
    | mark u ids =>
      refine (Memory.ids_mark m u user id ids).trans ?_
      by_cases hu : user = u <;> simp [Operation.onIds, hu, eq_comm, or_comm, h.answered]
    | _ => exact h.answered user id

end

/-- The store in memory gives the answers that it has to give. -/
theorem performAll_memory {m : Memory} {before : List Operation} (h : Follows m before)
    (ops : List Operation) : (performAll m ops).1 = expectedAll before ops ∧
      Follows (performAll m ops).2 (before ++ ops) := by
  induction ops generalizing m before with
  | nil => exact ⟨rfl, (List.append_nil before).symm ▸ h⟩
  | cons op ops ih =>
    obtain ⟨hanswers, hfollows⟩ := ih (h.perform op)
    exact ⟨congrArg₂ List.cons (h.answer op) hanswers, List.append_cons before op ops ▸ hfollows⟩

end ChatRelay.Store
