import ChatRelay.Proofs.Store.RoundTrip

/-!
# What a user has of a store

The messages of a user wait under a key of their own, source ids are marked for users, and each has
a conversation of their own. An operation for one user leaves what all others have as it is, and
what it makes of the belongings of its own user depends on them alone.
-/

namespace ChatRelay
open KeyedLists Conversations AnsweredIds

/-- A store that keeps the conversation of each user by itself. -/
class SeparateStore (σ : Type) [Store σ] where
  /-- What is kept of a conversation. -/
  Past : Type
  past : σ → String → Past
  extend : Past → List Turn → Past
  lookBack : Past → Nat → Except StoreError (List Turn)
  recent_eq (s : σ) (user : String) (limit : Nat) :
    recent s user limit = lookBack (past s user) limit
  past_addTurns (s : σ) (user other : String) (turns : List Turn) :
    past (addTurns s user turns) other =
      if other = user then extend (past s user) turns else past s other
  past_append (s : σ) (key value user : String) : past (append s key value) user = past s user
  past_drain (s : σ) (key user : String) : past (drain s key).2 user = past s user
  past_mark (s : σ) (user other : String) (ids : List String) :
    past (mark s user ids) other = past s other

instance : SeparateStore Memory where
  Past := List Turn
  past := Memory.conversation
  extend turns more := turns ++ more
  lookBack turns limit := .ok (lastOf limit turns)
  recent_eq _ _ _ := rfl
  past_addTurns := Memory.conversation_addTurns
  past_append _ _ _ _ := rfl
  past_drain _ _ _ := rfl
  past_mark _ _ _ _ := rfl

theorem Database.payloads_addTurns (d : Database) (user other : String) (turns : List Turn) :
    (d.addTurns user turns).payloads other =
      if other = user then d.payloads user ++ turns.map Turn.encode else d.payloads other :=
  d.payloads_addRows user other none turns

instance : SeparateStore Database where
  Past := List String
  past := Database.payloads
  extend texts more := texts ++ more.map Turn.encode
  lookBack texts limit := Database.decodeAll (lastOf (min limit Database.maxLimit) texts)
  recent_eq _ _ _ := rfl
  past_addTurns := Database.payloads_addTurns
  past_append _ _ _ _ := rfl
  past_drain _ _ _ := rfl
  past_mark _ _ _ _ := rfl

instance : SeparateStore AnyStore where
  Past := SeparateStore.Past Memory ⊕ SeparateStore.Past Database
  past
    | .memory m, user => .inl (SeparateStore.past m user)
    | .database d, user => .inr (SeparateStore.past d user)
  extend
    | .inl past, turns => .inl (@SeparateStore.extend Memory _ _ past turns)
    | .inr past, turns => .inr (@SeparateStore.extend Database _ _ past turns)
  lookBack
    | .inl past, limit => @SeparateStore.lookBack Memory _ _ past limit
    | .inr past, limit => @SeparateStore.lookBack Database _ _ past limit
  recent_eq s user limit := by cases s <;> rfl
  past_addTurns s user other turns := by
    cases s with
    | memory m =>
      refine (congrArg Sum.inl (SeparateStore.past_addTurns m user other turns)).trans ?_
      split <;> rfl
    | database d =>
      refine (congrArg Sum.inr (SeparateStore.past_addTurns d user other turns)).trans ?_
      split <;> rfl
  past_append s _ _ _ := by cases s <;> rfl
  past_drain s _ _ := by cases s <;> rfl
  past_mark s _ _ _ := by cases s <;> rfl

/-- What a store has for a user. -/
structure Belongings (σ : Type) [Store σ] [SeparateStore σ] where
  /-- The texts that wait. -/
  texts : List String
  marked : String → Prop
  past : SeparateStore.Past σ

section
variable {σ : Type} [Store σ] [SeparateStore σ]

def belongings (s : σ) (user : String) : Belongings σ where
  texts := texts s (Pending.listKey user)
  marked := Marked s user
  past := SeparateStore.past s user

/-- Whether an operation changes what a user has. -/
def Store.Operation.Concerns (user : String) : Operation → Prop
  | .append key _ | .drain key => key = Pending.listKey user
  | .addTurns u _ | .mark u _ => u = user
  | .count _ | .recent _ _ | .seen _ _ => False

/-- An operation changes what one user has, and no other. -/
theorem Store.Operation.Concerns.user_unique {user other : String} {op : Operation}
    (h : op.Concerns user) (h' : op.Concerns other) : user = other := by
  cases op with
  | append key value => exact Pending.listKey_injective (h.symm.trans h')
  | drain key => exact Pending.listKey_injective (h.symm.trans h')
  | addTurns u turns => exact h.symm.trans h'
  | mark u ids => exact h.symm.trans h'
  | _ => exact h.elim

/-! ## What can be told from the belongings -/

variable {s s' : σ} {user : String}

theorem recent_eq_of_belongings (h : belongings s user = belongings s' user) (limit : Nat) :
    recent s user limit = recent s' user limit := by
  have hpast : SeparateStore.past s user = SeparateStore.past s' user := congrArg Belongings.past h
  rw [SeparateStore.recent_eq, SeparateStore.recent_eq, hpast]

theorem takeAll_eq_of_belongings (h : belongings s user = belongings s' user) :
    (Pending.takeAll s user).1 = (Pending.takeAll s' user).1 :=
  congrArg (fun t : Belongings σ => Pending.decodeAll t.texts) h

theorem marked_iff_of_belongings (h : belongings s user = belongings s' user) (id : String) :
    Marked s user id ↔ Marked s' user id :=
  iff_of_eq (congrFun (congrArg Belongings.marked h) id)

theorem belongings_eq_of (htexts : texts s (Pending.listKey user) = texts s' (Pending.listKey user))
    (hmarked : ∀ id, Marked s user id ↔ Marked s' user id)
    (hpast : SeparateStore.past s user = SeparateStore.past s' user) :
    belongings s user = belongings s' user := by
  have hm : Marked s user = Marked s' user := funext fun id => propext (hmarked id)
  rw [belongings, belongings, htexts, hm, hpast]

variable [LawfulStore σ]

theorem contains_seen_of_belongings (h : belongings s user = belongings s' user) (ids : List String)
    (id : String) : (seen s user ids).contains id = (seen s' user ids).contains id := by
  rw [Bool.eq_iff_iff, List.contains_iff_mem, List.contains_iff_mem, LawfulStore.mem_seen,
    LawfulStore.mem_seen, marked_iff_of_belongings h]

/-! ## Operations -/

open Store

/-- An operation for somebody else leaves the belongings as they are. -/
theorem belongings_perform_other (hs : LawfulStore.Sound s) {op : Operation}
    (hop : ¬ op.Concerns user) : belongings (perform s op).2 user = belongings s user := by
  have hspares : op.Spares (Pending.listKey user) := by
    cases op <;> first | exact hop | trivial
  refine belongings_eq_of (Pending.texts_perform hs hspares) (fun id => ?_) ?_
  · cases op with
    | append key value => exact LawfulStore.marked_append
    | drain key => exact LawfulStore.marked_drain
    | addTurns u turns => exact LawfulStore.marked_addTurns
    | mark u ids => exact LawfulStore.marked_mark.trans (or_iff_right fun h => hop h.1.symm)
    | count key | recent u limit | seen u ids => exact Iff.rfl
  · cases op with
    | append key value => exact SeparateStore.past_append ..
    | drain key => exact SeparateStore.past_drain ..
    | addTurns u turns =>
      exact (SeparateStore.past_addTurns ..).trans (if_neg fun h => hop h.symm)
    | mark u ids => exact SeparateStore.past_mark ..
    | count key | recent u limit | seen u ids => rfl

/-- What an operation makes of belongings depends on them alone. -/
theorem belongings_perform (hs : LawfulStore.Sound s) (hs' : LawfulStore.Sound s')
    (h : belongings s user = belongings s' user) (op : Operation) :
    belongings (perform s op).2 user = belongings (perform s' op).2 user := by
  have htexts : texts s (Pending.listKey user) = texts s' (Pending.listKey user) :=
    congrArg Belongings.texts h
  have hpast : SeparateStore.past s user = SeparateStore.past s' user := congrArg Belongings.past h
  by_cases hop : op.Concerns user
  · cases op with
    | append key value =>
      obtain rfl := hop
      refine belongings_eq_of ?_ (fun id => ?_) ?_
      · refine (LawfulStore.texts_append _ _ _ hs).trans ?_
        refine Eq.trans ?_ (LawfulStore.texts_append _ _ _ hs').symm
        rw [htexts]
      · exact LawfulStore.marked_append.trans
          ((marked_iff_of_belongings h id).trans LawfulStore.marked_append.symm)
      · exact (SeparateStore.past_append ..).trans (hpast.trans (SeparateStore.past_append ..).symm)
    | drain key =>
      obtain rfl := hop
      refine belongings_eq_of ?_ (fun id => ?_) ?_
      · refine (LawfulStore.texts_drain _ _ hs).trans ?_
        refine Eq.trans ?_ (LawfulStore.texts_drain _ _ hs').symm
        rw [htexts]
      · exact LawfulStore.marked_drain.trans
          ((marked_iff_of_belongings h id).trans LawfulStore.marked_drain.symm)
      · exact (SeparateStore.past_drain ..).trans (hpast.trans (SeparateStore.past_drain ..).symm)
    | addTurns u turns =>
      obtain rfl := hop
      refine belongings_eq_of ?_ (fun id => ?_) ?_
      · refine (LawfulStore.texts_addTurns ..).trans (htexts.trans ?_)
        exact (LawfulStore.texts_addTurns ..).symm
      · exact LawfulStore.marked_addTurns.trans
          ((marked_iff_of_belongings h id).trans LawfulStore.marked_addTurns.symm)
      · refine (SeparateStore.past_addTurns ..).trans ?_
        refine Eq.trans ?_ (SeparateStore.past_addTurns ..).symm
        rw [hpast]
    | mark u ids =>
      obtain rfl := hop
      refine belongings_eq_of ?_ (fun id => ?_) ?_
      · exact (LawfulStore.texts_mark ..).trans (htexts.trans (LawfulStore.texts_mark ..).symm)
      · refine LawfulStore.marked_mark.trans (Iff.trans ?_ LawfulStore.marked_mark.symm)
        rw [marked_iff_of_belongings h id]
      · exact (SeparateStore.past_mark ..).trans (hpast.trans (SeparateStore.past_mark ..).symm)
    | count key | recent u limit | seen u ids => exact hop.elim
  · rw [belongings_perform_other hs hop, belongings_perform_other hs' hop, h]

end
end ChatRelay
