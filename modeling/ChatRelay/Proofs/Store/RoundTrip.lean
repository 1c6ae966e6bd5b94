import ChatRelay.Proofs.Batch.Encoding
import ChatRelay.Proofs.Store.Agreement

/-!
# What is written is read back

Messages, tickets, notices, calls and turns are found again in their texts. So a user's list gives
up the messages that were put there, in their order, even if texts that are no messages stand
between them, and a database gives back the conversations that were stored in it.
-/

namespace ChatRelay
open KeyedLists Store

def Store.Operation.Spares (key : String) : Operation → Prop
  | .append k _ | .drain k => k ≠ key
  | _ => True

instance (key : String) : (op : Operation) → Decidable (op.Spares key)
  | .append k _ | .drain k => inferInstanceAs (Decidable (k ≠ key))
  | .count _ | .addTurns _ _ | .recent _ _ | .seen _ _ | .mark _ _ => isTrue trivial

namespace Pending

/-- What can happen to a store while messages wait in the list of a user. -/
inductive Arrival where
  | message (m : Pending)
  /-- A text is put into the list that is no message. -/
  | stray (text : String)
  | elsewhere (op : Operation)

namespace Arrival

def message? : Arrival → Option Pending
  | .message m => some m
  | _ => none

/-- What it is called is what it is. -/
def IsFair (user : String) : Arrival → Prop
  | .message m => m.IsStorable
  | .stray text => (decode text).toOption = none
  | .elsewhere op => op.Spares (listKey user)

instance (user : String) : (a : Arrival) → Decidable (a.IsFair user)
  | .message m => inferInstanceAs (Decidable m.IsStorable)
  | .stray text => inferInstanceAs (Decidable ((decode text).toOption = none))
  | .elsewhere op => inferInstanceAs (Decidable (op.Spares (listKey user)))

variable {σ : Type} [Store σ]

def enter (user : String) (s : σ) : Arrival → σ
  | .message m => push s user m
  | .stray text => append s (listKey user) text
  | .elsewhere op => (perform s op).2

def enterAll (user : String) (s : σ) (arrivals : List Arrival) : σ := arrivals.foldl (enter user) s

end Arrival

theorem takeAll_eq {σ : Type} [KeyedLists σ] (s : σ) (user : String) :
    (takeAll s user).1 = decodeAll (texts s (listKey user)) := rfl

section
variable {σ : Type} [Store σ] [LawfulStore σ] {s : σ} {user : String}

theorem sound_perform (hs : LawfulStore.Sound s) (op : Operation) :
    LawfulStore.Sound (perform s op).2 := by
  cases op with
  | append key value => exact LawfulStore.sound_append key value hs
  | drain key => exact LawfulStore.sound_drain key hs
  | addTurns user turns => exact LawfulStore.sound_addTurns user turns hs
  | mark user ids => exact LawfulStore.sound_mark user ids hs
  | count key | recent user limit | seen user ids => exact hs

theorem texts_perform (hs : LawfulStore.Sound s) {key : String} {op : Operation}
    (hop : op.Spares key) : texts (perform s op).2 key = texts s key := by
  cases op with
  | append k value => exact (LawfulStore.texts_append k key value hs).trans (if_neg (Ne.symm hop))
  | drain k => exact (LawfulStore.texts_drain k key hs).trans (if_neg (Ne.symm hop))
  | addTurns user turns => exact LawfulStore.texts_addTurns s user turns key
  | mark user ids => exact LawfulStore.texts_mark s user ids key
  | count k | recent user limit | seen user ids => rfl

theorem Arrival.sound_enter (hs : LawfulStore.Sound s) (a : Arrival) :
    LawfulStore.Sound (a.enter user s) := by
  cases a with
  | message m => exact LawfulStore.sound_append _ _ hs
  | stray text => exact LawfulStore.sound_append _ _ hs
  | elsewhere op => exact sound_perform hs op

theorem takeAll_append (hs : LawfulStore.Sound s) (text : String) :
    (takeAll (append s (listKey user) text) user).1 =
      (takeAll s user).1 ++ (decode text).toOption.toList := by
  rw [takeAll_eq, takeAll_eq, LawfulStore.texts_append _ _ _ hs, if_pos rfl, decodeAll,
    List.filterMap_append, decodeAll, List.filterMap_cons, List.filterMap_nil]
  cases (decode text).toOption <;> rfl

/-- A message is put behind those that wait, and nothing else is. -/
theorem Arrival.takeAll_enter (hs : LawfulStore.Sound s) {a : Arrival} (ha : a.IsFair user) :
    (takeAll (a.enter user s) user).1 = (takeAll s user).1 ++ a.message?.toList := by
  cases a with
  | message m =>
    refine (takeAll_append hs m.encode).trans ?_
    rw [decode_encode ha]
    rfl
  | stray text =>
    refine (takeAll_append hs text).trans ?_
    rw [show (decode text).toOption = none from ha]
    rfl
  | elsewhere op =>
    rw [takeAll_eq, takeAll_eq, enter, texts_perform hs ha]
    exact (List.append_nil _).symm

theorem Arrival.takeAll_enterAll (hs : LawfulStore.Sound s) {arrivals : List Arrival}
    (h : ∀ a ∈ arrivals, a.IsFair user) : (takeAll (enterAll user s arrivals) user).1 =
      (takeAll s user).1 ++ arrivals.filterMap message? := by
  induction arrivals generalizing s with
  | nil => exact (List.append_nil _).symm
  | cons a arrivals ih =>
    obtain ⟨ha, harrivals⟩ := List.forall_mem_cons.mp h
    refine (ih (a.sound_enter hs) harrivals).trans ?_
    rw [takeAll_enter hs ha, List.append_assoc]
    cases hm : a.message? with
    | none => rw [List.filterMap_cons_none hm]; rfl
    | some m => rw [List.filterMap_cons_some hm]; rfl

end

end Pending

namespace Database

/-- Numbers that are not needed for the rows of some operations are left in the end. -/
theorem HasRoom.performAll {ops : List Operation} {d : Database} {more : Nat}
    (h : d.HasRoom ((ops.map Operation.rows).sum + more)) : (performAll d ops).2.HasRoom more := by
  induction ops generalizing d with
  | nil => rwa [List.map_nil, List.sum_nil, Nat.zero_add] at h
  | cons op ops ih =>
    rw [List.map_cons, List.sum_cons, Nat.add_assoc] at h
    exact ih h.performs.2

/-- The store in a database gives back the last turns of what was said. -/
theorem recent_performAll {ops : List Operation} (hstorable : ∀ op ∈ ops, op.IsStorable)
    (hrows : (ops.map Operation.rows).sum ≤ maxLimit) (user : String) (limit : Nat) :
    (performAll ({} : Database) ops).2.recent user limit = .ok (lastOf limit (said user ops)) := by
  have hroom : HasRoom {} ((ops.map Operation.rows).sum + 0) :=
    ⟨.nil, by change 1 + _ ≤ _; omega, by change 1 + _ ≤ _; omega⟩
  have hturns := (reflects_empty.runs (HasRoom.runs hroom) hstorable).2.turns
  rw [hroom.performAll.recent]
  exact hturns.recent (said_storable hstorable user) limit

end Database

/-- Every text of a message, a ticket, a notice, a call or a turn says what it was written from, as
does the payload of a ticket. Hence the messages that were put into a list are all taken from it, in
their order, whatever else happens to the store; and a conversation is read from a database as it
was stored, however the database keeps its rows. -/
theorem written_is_read_back :
    (∀ m : Pending, m.IsStorable → Pending.decode m.encode = .ok m) ∧
    (∀ t : Ticket, Json.parseWith Ticket.record.read t.toJson.render = .ok t ∧
      Ticket.ofPayload t.payload = .ok t) ∧
    (∀ n : Notice, Notice.decode n.encode = .ok n) ∧
    (∀ c : ToolCall, c.IsStorable → c.toJson.depth < Json.depthLimit →
      Json.parseWith ToolCall.record.read c.toJson.render = .ok c) ∧
    (∀ t : Turn, t.IsStorable → Turn.decode t.encode = .ok t) ∧
    (∀ (σ : Type) [Store σ] [LawfulStore σ] (s : σ) (user : String)
      (arrivals : List Pending.Arrival), LawfulStore.Sound s → (∀ a ∈ arrivals, a.IsFair user) →
        (Pending.takeAll (Pending.Arrival.enterAll user s arrivals) user).1 =
          (Pending.takeAll s user).1 ++ arrivals.filterMap Pending.Arrival.message?) ∧
    ∀ ops : List Operation, (∀ op ∈ ops, op.IsStorable) → ∀ (user : String) (limit : Nat),
      (∀ answers d, Database.Runs {} ops answers d →
        d.queryRecent user limit = .ok (lastOf limit (said user ops))) ∧
      ((ops.map Operation.rows).sum ≤ Database.maxLimit →
        (performAll ({} : Database) ops).2.recent user limit =
          .ok (lastOf limit (said user ops))) := by
  refine ⟨fun m => Pending.decode_encode, fun t => ⟨t.parse_render, t.ofPayload_payload⟩,
    Notice.decode_encode, fun c => ToolCall.parse_render, fun t => Turn.decode_encode,
    fun σ _ _ s user arrivals hs => Pending.Arrival.takeAll_enterAll hs, ?_⟩
  intro ops hstorable user limit
  constructor
  · intro answers d hruns
    have hturns := (Database.reflects_empty.runs hruns hstorable).2.turns
    exact hturns.recent (said_storable hstorable user) limit
  · intro hrows
    exact Database.recent_performAll hstorable hrows user limit

/-- Texts with characters that are escaped, and one beyond the basic plane. -/
def oddMessage : Pending :=
  ⟨"\"a\\b\"\n\x01 é 𝄞", "", -9223372036854775808, "\x7b\x7d"⟩

/-- Two messages with other things between them. -/
def mixedArrivals : List Pending.Arrival := [
  .message oddMessage,
  .stray "no message",
  .elsewhere (.drain (Pending.listKey "ben")),
  .message ⟨"again", "m2", 5, "A"⟩]

theorem mixedArrivals_fair : ∀ a ∈ mixedArrivals, a.IsFair "ann" := by decide +kernel

theorem odd_values_are_read_back :
    Pending.decode oddMessage.encode = .ok oddMessage ∧
    Turn.decode askingForTime.encode = .ok askingForTime ∧
    (Pending.takeAll (Pending.Arrival.enterAll "ann" ({} : Database) mixedArrivals) "ann").1 =
      [oddMessage, ⟨"again", "m2", 5, "A"⟩] ∧
    (performAll ({} : Database) visit).2.recent "ann" 1 = .ok [askingForTime] := by
  obtain ⟨hpending, -, -, -, hturn, htaken, hrecent⟩ := written_is_read_back
  have hnumbered : LawfulStore.Sound ({} : Database) := ⟨.nil, by decide⟩
  refine ⟨hpending oddMessage (by decide), hturn _ askingForTime_storable, ?_, ?_⟩
  · exact htaken Database {} "ann" mixedArrivals hnumbered mixedArrivals_fair
  · exact (hrecent visit visit_storable "ann" 1).2 (by decide)

end ChatRelay
