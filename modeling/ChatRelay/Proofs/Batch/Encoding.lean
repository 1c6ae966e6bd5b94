import ChatRelay.Batch.Deposit
import ChatRelay.Proofs.Json.ReadBack

/-!
# Messages, tickets and notices in their stored form

A message whose time fits 64 bits is read back from the text under which it waits, a ticket from its
text and from the payload of its task, and a notice from the text that is published. So the texts of
a list are as good as the messages in it. Keys of lists and tasks tell users apart.
-/

namespace ChatRelay

namespace Pending
open Json

/-- The time of a message fits the word in which it is stored. -/
def IsStorable (m : Pending) : Prop := IsInt64 m.enqueuedAt

instance (m : Pending) : Decidable m.IsStorable := inferInstanceAs (Decidable (IsInt64 _))

/-- The members of a message, up to the end of the object. -/
def membersText (m : Pending) : List Char :=
  Record.memberText "text" (stringChars m.text)
    (',' :: Record.memberText "source_message_id" (stringChars m.sourceId)
      (',' :: Record.memberText "enqueued_at" (Numeral.integerText m.enqueuedAt).toList
        (',' :: Record.memberText "source_label" (stringChars m.label) ['\x7d'])))

theorem members_membersText {m : Pending} (hm : m.IsStorable) (depth fuel : Nat) :
    record.members depth (fuel + 5) true {} m.membersText =
      .ok (⟨some m.text, some m.sourceId, some m.enqueuedAt, some m.label⟩, ['\x7d']) := by
  have ends (rest : List Char) : EndsNumber (',' :: rest) := by
    intro c hc
    obtain rfl : ',' = c := by simpa using hc
    decide
  refine (record.members_field true "text" rfl rfl
    (Field.of_read (readString_written m.text _))).trans ?_
  refine (record.members_field false "source_message_id" rfl rfl
    (Field.of_read (readString_written m.sourceId _))).trans ?_
  refine (record.members_field false "enqueued_at" rfl rfl
    (Field.of_read (readInt64_written hm (ends _)))).trans ?_
  refine (record.members_field false "source_label" rfl rfl
    (Field.of_read (readString_written m.label _))).trans ?_
  exact record.members_end ..

theorem decode_encode {m : Pending} (hm : m.IsStorable) : decode m.encode = .ok m := by
  have hc : m.toJson.chars = '\x7b' :: m.membersText := by
    simp only [toJson, chars, moreMembers, membersText, Record.memberText, List.append_assoc,
      List.cons_append]
  have hneed : 5 ≤ 2 * m.membersText.length + 2 := by
    simp only [membersText, Record.memberText, List.length_append, List.length_cons]
    omega
  change parseWith record.read (.ofList m.toJson.chars) = .ok m
  apply parseWith_of_read
  rw [hc]
  exact record.read_object (by decide) hneed (members_membersText hm (depthLimit - 1)) rfl

/-- Messages that fit their words are all found again among the texts. -/
theorem decodeAll_encode {ms : List Pending} (h : ∀ m ∈ ms, m.IsStorable) :
    decodeAll (ms.map encode) = ms := by
  induction ms with
  | nil => rfl
  | cons m ms ih =>
    have hd : (decode m.encode).toOption = some m := by
      rw [decode_encode (h m List.mem_cons_self)]
      rfl
    rw [List.map_cons, decodeAll, List.filterMap_cons, hd]
    exact congrArg (m :: ·) (ih fun n hn => h n (List.mem_cons_of_mem m hn))

theorem listKey_injective {u v : String} (h : listKey u = listKey v) : u = v := by
  unfold listKey at h
  simpa using h

end Pending

namespace Ticket
open Json

theorem ofPayload_payload (t : Ticket) : ofPayload t.payload = .ok t := by
  have hp : t.payload = .object [("chat_id", .string t.chat), ("source_label", .string t.label),
      ("user_id", .string t.user)] := by
    have h1 : ("chat_id" : String) < "user_id" := by decide
    have h2 : ¬ ("source_label" : String) < "chat_id" := by decide
    have h3 : ("source_label" : String) < "user_id" := by decide
    simp [payload, toJson, canonical, canonicalMembers, insertMember, h1, h2, h3]
  rw [hp]
  rfl

def membersText (t : Ticket) : List Char :=
  Record.memberText "user_id" (stringChars t.user)
    (',' :: Record.memberText "chat_id" (stringChars t.chat)
      (',' :: Record.memberText "source_label" (stringChars t.label) ['\x7d']))

theorem members_membersText (t : Ticket) (depth fuel : Nat) :
    record.members depth (fuel + 4) true {} t.membersText =
      .ok (⟨some t.user, some t.chat, some t.label⟩, ['\x7d']) := by
  refine (record.members_field true "user_id" rfl rfl
    (Field.of_read (readString_written t.user _))).trans ?_
  refine (record.members_field false "chat_id" rfl rfl
    (Field.of_read (readString_written t.chat _))).trans ?_
  refine (record.members_field false "source_label" rfl rfl
    (Field.of_read (readString_written t.label _))).trans ?_
  exact record.members_end ..

theorem parse_render (t : Ticket) : parseWith record.read t.toJson.render = .ok t := by
  have hc : t.toJson.chars = '\x7b' :: t.membersText := by
    simp only [toJson, chars, moreMembers, membersText, Record.memberText, List.append_assoc,
      List.cons_append]
  have hneed : 4 ≤ 2 * t.membersText.length + 2 := by
    simp only [membersText, Record.memberText, List.length_append, List.length_cons]
    omega
  change parseWith record.read (.ofList t.toJson.chars) = .ok t
  apply parseWith_of_read
  rw [hc]
  exact record.read_object (by decide) hneed (t.members_membersText (depthLimit - 1)) rfl

theorem payload_injective {t t' : Ticket} (h : t.payload = t'.payload) : t = t' := by
  have := ofPayload_payload t
  rw [h, ofPayload_payload] at this
  exact (Except.ok.inj this).symm

theorem dedupId_injective {u v : String} (h : dedupId u = dedupId v) : u = v := by
  unfold dedupId at h
  simpa using h

end Ticket

namespace Notice
open Json

def membersText (n : Notice) : List Char :=
  Record.memberText "user_id" (stringChars n.user) ['\x7d']

theorem decode_encode (n : Notice) : decode n.encode = .ok n := by
  have hmembers (fuel : Nat) : record.members (depthLimit - 1) (fuel + 2) true none n.membersText =
      .ok (some n.user, ['\x7d']) := by
    refine (record.members_field true "user_id" rfl rfl
      (Field.of_read (readString_written n.user _))).trans ?_
    exact record.members_end ..
  exact parseWith_of_read (record.read_object (by decide) (by omega) hmembers rfl)

end Notice
end ChatRelay
