import ChatRelay.Conversation.Turn
import ChatRelay.Proofs.Json.Values

/-!
# Turns in their stored form

A turn is read back from the text of it, with the calls it makes and the call it answers, as long as
the arguments of calls hold no floats and are not nested deeper than a text may nest.
-/

namespace ChatRelay
open Json

namespace Json

theorem depth_item {items : List Json} {item : Json} (h : item ∈ items) :
    item.depth + 1 ≤ (Json.array items).depth := by
  rw [depth, Nat.add_comm 1]
  induction items with
  | nil => cases h
  | cons first items ih =>
    rw [itemsDepth]
    rcases List.mem_cons.mp h with rfl | h
    · omega
    · have := ih h
      omega

theorem depth_member {members : List (String × Json)} {key : String} {value : Json}
    (h : (key, value) ∈ members) : value.depth + 1 ≤ (Json.object members).depth := by
  rw [depth, Nat.add_comm 1]
  induction members with
  | nil => cases h
  | cons first members ih =>
    rw [membersDepth]
    rcases List.mem_cons.mp h with rfl | h
    · dsimp only
      omega
    · have := ih h
      omega

section
variable {α : Type} {read : Reader α}

/-- One item of a list, and then the others. -/
theorem itemsOf_item {a : α} {l : List α} {text cs rest : List Char} (hbegins : Begins text)
    (hread : read (text ++ cs) = .ok (a, cs)) {fuel : Nat}
    (hmore : itemsOf read fuel false cs = .ok (l, rest)) (first : Bool) :
    itemsOf read (fuel + 1) first (Record.lead first ++ (text ++ cs)) = .ok (a :: l, rest) := by
  simp [itemsOf, listGoesOn_lead first hbegins, hread, hmore]

/-- Items are read one by one, if each is read whatever follows it. -/
theorem itemsOf_more {toJson : α → Json} {l : List α}
    (hl : ∀ a ∈ l, Begins (toJson a).chars ∧
      ∀ rest, read ((toJson a).chars ++ rest) = .ok (a, rest)) {fuel : Nat}
    (hfuel : l.length < fuel) (rest : List Char) :
    itemsOf read fuel false (moreItems (l.map toJson) ++ rest) = .ok (l, rest) := by
  obtain ⟨fuel, rfl⟩ : ∃ k, fuel = k + 1 := ⟨fuel - 1, by omega⟩
  induction l generalizing fuel with
  | nil => simp [itemsOf, moreItems, listGoesOn_end]
  | cons a l ih =>
    obtain ⟨ha, hl⟩ := List.forall_mem_cons.mp hl
    rw [List.length_cons] at hfuel
    obtain ⟨fuel, rfl⟩ : ∃ k, fuel = k + 1 := ⟨fuel - 1, by omega⟩
    simp only [List.map_cons, moreItems, List.cons_append, List.append_assoc]
    exact itemsOf_item ha.1 (ha.2 _) (ih hl fuel (by omega)) false

theorem length_lt_moreItems (items : List Json) : items.length < (moreItems items).length := by
  induction items with
  | nil => simp [moreItems]
  | cons item items ih =>
    simp only [moreItems, List.length_cons, List.length_append]
    omega

/-- A list that is not empty is read with one level less for its items. -/
theorem readList_written {read : Nat → Reader α} {toJson : α → Json} {l : List α} (hne : l ≠ [])
    {levels : Nat} (hlevels : 1 < levels) (hl : ∀ a ∈ l, Begins (toJson a).chars ∧
      ∀ rest, read (levels - 1) ((toJson a).chars ++ rest) = .ok (a, rest)) (rest : List Char) :
    readList read levels (chars (.array (l.map toJson)) ++ rest) = .ok (l, rest) := by
  obtain ⟨a, l, rfl⟩ := List.exists_cons_of_ne_nil hne
  obtain ⟨ha, hl⟩ := List.forall_mem_cons.mp hl
  have hc : isSpace '[' = false := by decide
  have hlength := length_lt_moreItems (l.map toJson)
  rw [List.length_map] at hlength
  have hitems : itemsOf (read (levels - 1))
      (fuelFor ((toJson a).chars ++ (moreItems (l.map toJson) ++ rest))) true
        ((toJson a).chars ++ (moreItems (l.map toJson) ++ rest)) = .ok (a :: l, rest) := by
    refine itemsOf_item ha.1 (ha.2 _) (itemsOf_more hl ?_ rest) true
    simp only [List.length_append]
    omega
  simp [readList, chars, peekToken_cons hc, enter, Nat.not_le.mpr hlevels, hitems]

end

end Json

namespace ToolCall

/-- The arguments are data, and hold no floats. -/
def IsStorable (c : ToolCall) : Prop := c.arguments.IsPlain ∧ c.arguments.IsCanonical

def membersText (c : ToolCall) (rest : List Char) : List Char :=
  Record.memberText "id" (stringChars c.id)
    (',' :: Record.memberText "name" (stringChars c.name)
      (',' :: Record.memberText "arguments" c.arguments.chars ('\x7d' :: rest)))

theorem chars_toJson (c : ToolCall) (rest : List Char) :
    c.toJson.chars ++ rest = '\x7b' :: c.membersText rest := by
  simp only [toJson, chars, moreMembers, membersText, Record.memberText, List.append_assoc,
    List.cons_append, List.nil_append]

theorem begins_chars (c : ToolCall) : Begins c.toJson.chars := by
  rw [← List.append_nil c.toJson.chars, chars_toJson]
  exact begins_cons (by decide) _

theorem read_written {c : ToolCall} (hc : c.IsStorable) {levels : Nat}
    (hlevels : c.arguments.depth + 1 < levels) (rest : List Char) :
    record.read levels (c.toJson.chars ++ rest) = .ok (c, rest) := by
  have hend : EndsNumber ('\x7d' :: rest) := by
    intro d hd
    obtain rfl : '\x7d' = d := by simpa using hd
    decide
  have hmembers (fuel : Nat) :
      record.members (levels - 1) (fuel + 4) true {} (c.membersText rest) =
        .ok (⟨some c.id, some c.name, some c.arguments⟩, '\x7d' :: rest) := by
    refine (record.members_field true "id" rfl rfl
      (Field.of_read (readString_written c.id _))).trans ?_
    refine (record.members_field false "name" rfl rfl
      (Field.of_read (readString_written c.name _))).trans ?_
    refine (record.members_field false "arguments" rfl rfl
      (Field.of_read (readValue_written hc.1 hc.2 (by omega) hend))).trans ?_
    exact record.members_end ..
  have hneed : 4 ≤ 2 * (c.membersText rest).length + 2 := by
    simp only [membersText, Record.memberText, List.length_append, List.length_cons]
    omega
  rw [chars_toJson]
  exact record.read_object (by omega) hneed hmembers rfl

/-- A call that stands alone is read back, too. -/
theorem parse_render {c : ToolCall} (hc : c.IsStorable) (hdepth : c.toJson.depth < depthLimit) :
    parseWith record.read c.toJson.render = .ok c := by
  have hlevels : c.arguments.depth + 1 < depthLimit :=
    Nat.lt_of_le_of_lt (depth_member (by simp : ("arguments", c.arguments) ∈ _)) hdepth
  have hread := read_written hc hlevels []
  rw [List.append_nil] at hread
  exact parseWith_of_read hread

end ToolCall

theorem Role.read_written (role : Role) (levels : Nat) (rest : List Char) :
    Role.read levels (stringChars role.name ++ rest) = .ok (role, rest) := by
  have hc : isSpace '"' = false := by decide
  have hvariant : readVariant (Role.all.map Role.name) levels (stringChars role.name ++ rest) =
      variantOf (Role.all.map Role.name) role.name rest := by
    simp [readVariant, stringChars, peekToken_cons hc, restOfString_written]
  rw [Role.read, bind_apply, hvariant]
  cases role <;> rfl

namespace Turn

/-- The arguments of all calls can be stored, and the whole is not too deep to be read. -/
def IsStorable (t : Turn) : Prop :=
  (∀ c ∈ t.toolCalls, c.IsStorable) ∧ t.toJson.depth < depthLimit

/-- Only calls can keep a turn from being stored. -/
theorem isStorable_of_no_calls {t : Turn} (h : t.toolCalls = []) : t.IsStorable := by
  obtain ⟨role, content, calls, id⟩ := t
  obtain rfl : calls = [] := h
  refine ⟨fun c hc => absurd hc List.not_mem_nil, ?_⟩
  have hdepth : (Turn.mk role content [] id).toJson.depth = 1 := by cases id <;> rfl
  rw [hdepth]
  decide

theorem depth_arguments {t : Turn} {c : ToolCall} (hc : c ∈ t.toolCalls) :
    c.arguments.depth + 3 ≤ t.toJson.depth := by
  have hne : t.toolCalls.isEmpty = false := by
    simpa using List.ne_nil_of_mem hc
  have harguments : c.arguments.depth + 1 ≤ c.toJson.depth :=
    depth_member (by simp : ("arguments", c.arguments) ∈ _)
  have hcall : c.toJson.depth + 1 ≤ (Json.array (t.toolCalls.map (·.toJson))).depth :=
    depth_item (List.mem_map_of_mem hc)
  have hcalls : (Json.array (t.toolCalls.map (·.toJson))).depth + 1 ≤ t.toJson.depth :=
    depth_member (by simp [hne] : ("tool_calls", _) ∈ _)
  omega

def idText : Option String → List Char
  | some id => ',' :: Record.memberText "tool_call_id" (stringChars id) ['\x7d']
  | none => ['\x7d']

def callsText : List ToolCall → List Char → List Char
  | [], rest => rest
  | calls, rest => ',' :: Record.memberText "tool_calls"
      (chars (.array (calls.map (·.toJson)))) rest

def membersText (t : Turn) : List Char :=
  Record.memberText "role" (stringChars t.role.name)
    (',' :: Record.memberText "content" (stringChars t.content)
      (callsText t.toolCalls (idText t.toolCallId)))

theorem chars_toJson (t : Turn) : t.toJson.chars = '\x7b' :: t.membersText := by
  obtain ⟨role, content, calls, id⟩ := t
  cases calls <;> cases id <;>
    simp [toJson, chars, moreMembers, membersText, callsText, idText, Record.memberText]

theorem readCalls_written {calls : List ToolCall} (hne : calls ≠ []) {levels : Nat}
    (hcalls : ∀ c ∈ calls, c.IsStorable ∧ c.arguments.depth + 2 < levels) (rest : List Char) :
    readList ToolCall.record.read levels (chars (.array (calls.map (·.toJson))) ++ rest) =
      .ok (calls, rest) := by
  have hlevels : 1 < levels := by
    obtain ⟨c, hc⟩ := List.exists_mem_of_ne_nil calls hne
    have := (hcalls c hc).2
    omega
  refine readList_written hne hlevels (fun c hc => ⟨c.begins_chars, fun rest => ?_⟩) rest
  exact ToolCall.read_written (hcalls c hc).1 (by have := (hcalls c hc).2; omega) rest

theorem readId_written (id : String) (rest : List Char) :
    readOptional readString (stringChars id ++ rest) = .ok (some id, rest) := by
  have hc : isSpace '"' = false := by decide
  have hread : (some <$> readString) (stringChars id ++ rest) = .ok (some id, rest) := by
    rw [map_apply, readString_written, ok_bind]
  rw [stringChars, List.cons_append, List.cons_append] at hread ⊢
  rw [readOptional, bind_apply, peekToken_cons hc, ok_bind]
  exact hread

theorem members_idText {draft : Draft} (hdraft : draft.toolCallId = none) (id : Option String)
    (levels fuel : Nat) : record.members levels (fuel + 2) false draft (idText id) =
      .ok ({ draft with toolCallId := id.map some }, ['\x7d']) := by
  cases id with
  | none =>
    refine (record.members_end ..).trans ?_
    rw [Option.map_none, ← hdraft]
  | some id =>
    have hread : (Field.of "tool_call_id" (fun _ => readOptional readString) Draft.toolCallId
        fun v d => { d with toolCallId := some v }).read levels draft (stringChars id ++ ['\x7d']) =
          .ok ({ draft with toolCallId := some (some id) }, ['\x7d']) :=
      Field.of_read (readId_written id _)
    refine (record.members_field false "tool_call_id" rfl (by simp [Field.of, hdraft])
      hread).trans ?_
    exact record.members_end ..

theorem members_membersText {t : Turn} (ht : t.IsStorable) (fuel : Nat) :
    record.members (depthLimit - 1) (fuel + 5) true {} t.membersText =
      .ok (⟨some t.role, some t.content, if t.toolCalls.isEmpty then none else some t.toolCalls,
        t.toolCallId.map some⟩, ['\x7d']) := by
  have hcalls : ∀ c ∈ t.toolCalls, c.IsStorable ∧ c.arguments.depth + 2 < depthLimit - 1 := by
    intro c hc
    have hdepth := depth_arguments hc
    have hlimit := ht.2
    exact ⟨ht.1 c hc, by omega⟩
  refine (record.members_field true "role" rfl rfl
    (Field.of_read (Role.read_written t.role _ _))).trans ?_
  refine (record.members_field false "content" rfl rfl
    (Field.of_read (readString_written t.content _))).trans ?_
  cases hempty : t.toolCalls with
  | nil => exact members_idText rfl t.toolCallId _ (fuel + 1)
  | cons c calls =>
    rw [hempty] at hcalls
    have hread (draft : Draft) : (Field.of "tool_calls" (readList ToolCall.record.read)
        Draft.toolCalls fun v d => { d with toolCalls := some v }).read (depthLimit - 1) draft
          (chars (.array ((c :: calls).map (·.toJson))) ++ idText t.toolCallId) =
        .ok ({ draft with toolCalls := some (c :: calls) }, idText t.toolCallId) :=
      Field.of_read (readCalls_written (List.cons_ne_nil c calls) hcalls _)
    refine (record.members_field false "tool_calls" rfl rfl (hread _)).trans ?_
    exact members_idText rfl t.toolCallId _ fuel

theorem decode_encode {t : Turn} (ht : t.IsStorable) : decode t.encode = .ok t := by
  have hneed : 5 ≤ 2 * t.membersText.length + 2 := by
    simp only [membersText, Record.memberText, List.length_append, List.length_cons]
    omega
  change parseWith record.read (.ofList t.toJson.chars) = .ok t
  apply parseWith_of_read
  rw [chars_toJson]
  refine record.read_object (by decide) hneed (members_membersText ht) ?_
  obtain ⟨role, content, calls, id⟩ := t
  cases calls <;> cases id <;> rfl

end Turn
end ChatRelay
