import ChatRelay.Proofs.Provider.Messages

/-!
# What a request carries

The body of a request is data. A conversation can be read off it, member by member: what the system
says stands in the system text, each part on a line of its own, and what everybody else says stands
in the blocks of the messages.
-/

namespace ChatRelay.Provider

/-! ## Messages as data -/

/-- The data says what the block does. -/
def Block.WrittenAs : Block → Json → Prop
  | .text content, data =>
    data.get? "type" = some (.string "text") ∧ data.get? "text" = some (.string content)
  | .toolUse id name input, data =>
    data.get? "type" = some (.string "tool_use") ∧ data.get? "id" = some (.string id) ∧
      data.get? "name" = some (.string name) ∧ data.get? "input" = some input
  | .toolResult callId content, data =>
    data.get? "type" = some (.string "tool_result") ∧
      data.get? "tool_use_id" = some (.string callId) ∧
      data.get? "content" = some (.string content)
  | .unknown, _ => False

def Message.WrittenAs (m : Message) (data : Json) : Prop :=
  data.get? "role" = some (.string (if m.speaker = .user then "user" else "assistant")) ∧
    ∃ content, data.get? "content" = some (.array content) ∧
      List.Forall₂ Block.WrittenAs m.blocks content

theorem Block.writtenAs_toJson {b : Block} (h : b ≠ .unknown) : b.WrittenAs b.toJson := by
  cases b with
  | unknown => exact h rfl
  | text content => exact ⟨rfl, rfl⟩
  | toolUse id name input => exact ⟨rfl, rfl, rfl, rfl⟩
  | toolResult callId content => exact ⟨rfl, rfl, rfl⟩

theorem forall₂_map {α β : Type} {R : α → β → Prop} {f : α → β} {l : List α}
    (h : ∀ a ∈ l, R a (f a)) : List.Forall₂ R l (l.map f) := by
  rw [List.forall₂_map_right_iff, List.forall₂_same]
  exact h

namespace Message

theorem writtenAs_toJson {m : Message} (h : .unknown ∉ m.blocks) : m.WrittenAs m.toJson := by
  refine ⟨?_, _, rfl, forall₂_map fun b hb => Block.writtenAs_toJson fun hunknown => ?_⟩
  · cases hs : m.speaker <;> simp [toJson, Json.get?, List.lookup_cons, hs, Speaker.name]
  · exact h (hunknown ▸ hb)

theorem unknown_not_mem_spoken (t : Turn) (speaker : Speaker) :
    (speaker, .unknown) ∉ t.spoken := by
  unfold Turn.spoken
  cases t.role <;> grind

/-- Blocks of no known kind are only read, and never sent. -/
theorem unknown_not_mem_ofTurns {turns : List Turn} {m : Message} (hm : m ∈ ofTurns turns) :
    .unknown ∉ m.blocks := by
  intro hunknown
  have hspoken : (m.speaker, .unknown) ∈ turns.flatMap (·.spoken) := by
    rw [← spoken_ofTurns]
    exact List.mem_flatMap.mpr ⟨m, hm, List.mem_map_of_mem hunknown⟩
  obtain ⟨t, -, ht⟩ := List.mem_flatMap.mp hspoken
  exact unknown_not_mem_spoken t _ ht

end Message

/-! ## The system text -/

def saidBySystem (turns : List Turn) : List String :=
  (turns.filter (·.role = .system)).map (Text.trim ·.content)

/-- The prompt and what the system says, without what is empty at the beginning. -/
def systemLines (prompt : String) (turns : List Turn) : List String :=
  (Text.trim prompt :: saidBySystem turns).dropWhile (· = "")

/-- The text so far stands above what the system goes on to say. -/
theorem foldl_system (turns : List Turn) (text : String) :
    turns.foldl (fun text t =>
      if t.role = .system then
        (if text = "" then text else text ++ "\n") ++ Text.trim t.content
      else text) text =
    "\n".intercalate ((text :: saidBySystem turns).dropWhile (· = "")) := by
  induction turns generalizing text with
  | nil => by_cases htext : text = "" <;> simp [saidBySystem, htext]
  | cons t turns ih =>
    rw [List.foldl_cons, ih]
    by_cases hrole : t.role = .system
    · have hsaid : saidBySystem (t :: turns) = Text.trim t.content :: saidBySystem turns := by
        simp [saidBySystem, hrole]
      by_cases htext : text = ""
      · simp [hsaid, hrole, htext]
      · have hlong : text ++ "\n" ++ Text.trim t.content ≠ "" := by simp [htext]
        simp [hsaid, hrole, htext, hlong]
    · have hsaid : saidBySystem (t :: turns) = saidBySystem turns := by
        simp [saidBySystem, hrole]
      simp [hsaid, hrole]

theorem systemText_eq (prompt : String) (turns : List Turn) :
    systemText prompt turns = "\n".intercalate (systemLines prompt turns) :=
  foldl_system turns _

theorem systemText_eq_empty_iff {prompt : String} {turns : List Turn} :
    systemText prompt turns = "" ↔ systemLines prompt turns = [] := by
  rw [systemText_eq]
  cases hlines : systemLines prompt turns with
  | nil => simp
  | cons line lines =>
    have hfirst : line ≠ "" := by
      have := List.head?_dropWhile_not (· = "") (Text.trim prompt :: saidBySystem turns)
      rw [← systemLines, hlines] at this
      simpa using this
    cases lines <;> simp [hfirst, String.intercalate_cons_cons]

/-! ## Requests -/

/-- The request carries a conversation below a system prompt. -/
structure HttpRequest.Carries (request : HttpRequest) (prompt : String) (turns : List Turn) :
    Prop where
  system : request.body.get? "system" =
    if systemLines prompt turns = [] then none
    else some (.string ("\n".intercalate (systemLines prompt turns)))
  messages : ∃ (messages : List Message) (data : List Json),
    request.body.get? "messages" = some (.array data) ∧
      List.Forall₂ Message.WrittenAs messages data ∧
      messages.flatMap (·.spoken) = turns.flatMap (·.spoken)

theorem carries_request (access : Access) (prompt : String) (tools : List ToolDefinition)
    (turns : List Turn) : (access.request prompt tools turns).Carries prompt turns where
  system := by
    simp only [← systemText_eq_empty_iff, ← systemText_eq]
    by_cases htext : systemText prompt turns = ""
    · by_cases htools : tools = [] <;>
        simp [Access.request, requestBody, Json.get?, List.lookup_cons, htext, htools]
    · simp [Access.request, requestBody, Json.get?, List.lookup_cons, htext]
  messages := by
    refine ⟨Message.ofTurns turns, _, rfl, ?_, Message.spoken_ofTurns turns⟩
    exact forall₂_map fun m hm => Message.writtenAs_toJson (Message.unknown_not_mem_ofTurns hm)

end ChatRelay.Provider
