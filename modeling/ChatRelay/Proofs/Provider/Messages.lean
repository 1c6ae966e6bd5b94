import ChatRelay.Proofs.Provider.Pairing
import Mathlib.Data.List.Chain

/-!
# What the messages of a request say

The blocks of a request, read in order, are what its turns say, each under the speaker whose turn it
is: nothing is lost, nothing changes its place. Results of tools that stand next to each other share
a message. `Message.Adds` says what one turn does to the messages before it, and `Message.Grouped`
is the invariant of the messages made so far.
-/

namespace ChatRelay

open Provider in
/-- What a turn says to the provider: its blocks, each with its speaker. -/
def Turn.spoken (t : Turn) : List (Speaker × Block) :=
  match t.role with
  | .system => []
  | .user => [(.user, .text t.content)]
  | .assistant =>
    (if Text.isBlankText t.content then [] else [(.assistant, .text t.content)]) ++
      t.toolCalls.map fun c => (.assistant, .toolUse c.id c.name c.arguments)
  | .tool => [(.user, .toolResult (t.toolCallId.getD "") t.content)]

namespace Provider.Message

def spoken (m : Message) : List (Speaker × Block) := m.blocks.map (m.speaker, ·)

def HasOnlyResults (m : Message) : Prop := ∀ b ∈ m.blocks, b.isToolResult

theorem isToolResults_iff {m : Message} :
    m.isToolResults ↔ m.speaker = .user ∧ m.HasOnlyResults := by
  simp [isToolResults, HasOnlyResults]

theorem spoken_assistantBlocks {t : Turn} (h : t.role = .assistant) :
    spoken ⟨.assistant, assistantBlocks t⟩ = t.spoken := by
  simp only [spoken, assistantBlocks, Turn.spoken, h, List.map_append, List.map_map]
  congr 1
  split <;> rfl

/-! ## One turn -/

/-- What a turn does to the messages before it. -/
inductive Adds (t : Turn) : List Message → List Message → Prop
  | nothing {messages : List Message} (silent : t.spoken = []) : Adds t messages messages
  | message {messages : List Message} {m : Message} (same : m.spoken = t.spoken)
      (filled : m.blocks ≠ []) (results : m.speaker = .assistant → m.HasNoResult)
      (apart : m.HasOnlyResults → ∀ last ∈ messages.getLast?, ¬last.isToolResults) :
      Adds t messages (messages ++ [m])
  | result {before : List Message} {blocks : List Block} {block : Block}
      (results : HasOnlyResults ⟨.user, blocks⟩) (result : block.isToolResult)
      (same : t.spoken = [(.user, block)]) :
      Adds t (before ++ [⟨.user, blocks⟩]) (before ++ [⟨.user, blocks ++ [block]⟩])

theorem adds_addResult {t : Turn} {block : Block} (hresult : block.isToolResult)
    (hspoken : t.spoken = [(.user, block)]) (messages : List Message) :
    Adds t messages (addResult messages block) := by
  have hown (h : ∀ last ∈ messages.getLast?, ¬last.isToolResults) :
      Adds t messages (messages ++ [⟨.user, [block]⟩]) :=
    .message hspoken.symm (by simp) (by simp) fun _ => h
  rcases List.eq_nil_or_concat' messages with rfl | ⟨before, last, rfl⟩
  · exact hown (by simp)
  by_cases hlast : last.isToolResults
  · have hadd : addResult (before ++ [last]) block =
        before ++ [⟨last.speaker, last.blocks ++ [block]⟩] := by
      simp [addResult, hlast]
    obtain ⟨hspeaker, honly⟩ := isToolResults_iff.mp hlast
    obtain ⟨speaker, blocks⟩ := last
    obtain rfl : speaker = .user := hspeaker
    exact hadd ▸ .result honly hresult hspoken
  · have hadd : addResult (before ++ [last]) block = before ++ [last] ++ [⟨.user, [block]⟩] := by
      simp [addResult, hlast]
    exact hadd ▸ hown (by simpa using hlast)

theorem adds_addTurn (t : Turn) (messages : List Message) :
    Adds t messages (addTurn messages t) := by
  unfold addTurn
  cases hrole : t.role with
  | system => exact .nothing (by simp [Turn.spoken, hrole])
  | user =>
    refine .message (by simp [spoken, Turn.spoken, hrole]) (by simp) (by simp) fun honly => ?_
    simp [HasOnlyResults, Block.isToolResult] at honly
  | assistant =>
    have hspoken := spoken_assistantBlocks hrole
    by_cases hblocks : assistantBlocks t = []
    · simp only [hblocks, List.isEmpty_nil, if_true]
      exact .nothing (by rw [← hspoken, spoken, hblocks, List.map_nil])
    · simp only [List.isEmpty_iff, hblocks, if_false]
      have hnone := hasNoResult_assistantBlocks t
      refine .message hspoken hblocks (fun _ => hnone) fun honly => ?_
      obtain ⟨b, hb⟩ := List.exists_mem_of_ne_nil _ hblocks
      exact absurd (honly b hb) (hnone b hb)
  | tool => exact adds_addResult rfl (by simp [Turn.spoken, hrole, resultBlock]) messages

theorem Adds.spoken {t : Turn} {messages messages' : List Message} (h : Adds t messages messages') :
    messages'.flatMap (·.spoken) = messages.flatMap (·.spoken) ++ t.spoken := by
  cases h with
  | nothing silent => simp [silent]
  | message same => simp [same]
  | result _ _ same => simp [same, Message.spoken]

/-! ## The messages made so far -/

/-- What holds of the messages made so far, whatever turns they come from. -/
structure Grouped (messages : List Message) : Prop where
  filled : ∀ m ∈ messages, m.blocks ≠ []
  /-- Results are never the assistant's, so that a last message of results can be joined. -/
  assistant : ∀ m ∈ messages, m.speaker = .assistant → m.HasNoResult
  apart : messages.IsChain fun m next => ¬(m.HasOnlyResults ∧ next.HasOnlyResults)

theorem Grouped.isToolResults {messages : List Message} (h : Grouped messages) {m : Message}
    (hm : m ∈ messages) (honly : m.HasOnlyResults) : m.isToolResults := by
  refine isToolResults_iff.mpr ⟨?_, honly⟩
  cases hspeaker : m.speaker with
  | user => rfl
  | assistant =>
    obtain ⟨b, hb⟩ := List.exists_mem_of_ne_nil _ (h.filled m hm)
    exact absurd (honly b hb) (h.assistant m hm hspeaker b hb)

theorem Adds.grouped {t : Turn} {messages messages' : List Message} (h : Adds t messages messages')
    (hg : Grouped messages) : Grouped messages' := by
  cases h with
  | nothing => exact hg
  | @message _ m _ filled results apart =>
    refine ⟨?filled, ?assistant, ?apart⟩
    case filled => simpa [or_imp, forall_and] using ⟨hg.filled, filled⟩
    case assistant => simpa [or_imp, forall_and] using ⟨hg.assistant, results⟩
    case apart =>
      refine List.isChain_append.mpr ⟨hg.apart, .singleton _, ?_⟩
      rintro last hlast _ ⟨⟩ ⟨honly, hresults⟩
      exact apart hresults last hlast (hg.isToolResults (List.mem_of_getLast? hlast) honly)
  | @result before blocks block results result =>
    refine ⟨?filled, ?assistant, ?apart⟩
    case filled =>
      intro m hm
      rcases List.mem_append.mp hm with hbefore | hlast
      · exact hg.filled m (List.mem_append_left _ hbefore)
      · simp [List.mem_singleton.mp hlast]
    case assistant =>
      intro m hm hspeaker
      rcases List.mem_append.mp hm with hbefore | hlast
      · exact hg.assistant m (List.mem_append_left _ hbefore) hspeaker
      · simp [List.mem_singleton.mp hlast] at hspeaker
    case apart =>
      obtain ⟨hbefore, -, hlast⟩ := List.isChain_append.mp hg.apart
      refine List.isChain_append.mpr ⟨hbefore, .singleton _, ?_⟩
      rintro m hm _ ⟨⟩ ⟨honly, -⟩
      exact hlast m hm _ rfl ⟨honly, results⟩

theorem foldl_addTurn_spoken (turns : List Turn) (messages : List Message) :
    (turns.foldl addTurn messages).flatMap (·.spoken) =
      messages.flatMap (·.spoken) ++ turns.flatMap (·.spoken) := by
  induction turns generalizing messages with
  | nil => simp
  | cons t turns ih =>
    rw [List.foldl_cons, ih, (adds_addTurn t messages).spoken, List.flatMap_cons,
      List.append_assoc]

theorem Grouped.foldl_addTurn {messages : List Message} (h : Grouped messages)
    (turns : List Turn) : Grouped (turns.foldl addTurn messages) := by
  induction turns generalizing messages with
  | nil => exact h
  | cons t turns ih => exact ih ((adds_addTurn t messages).grouped h)

theorem spoken_ofTurns (turns : List Turn) :
    (ofTurns turns).flatMap (·.spoken) = turns.flatMap (·.spoken) :=
  foldl_addTurn_spoken turns []

theorem grouped_ofTurns (turns : List Turn) : Grouped (ofTurns turns) :=
  Grouped.foldl_addTurn ⟨by simp, by simp, .nil⟩ turns

/-- Results share a message across turns that leave none. -/
example : ofTurns [.toolResult "a" "1", .system "Be brief.", .assistant " ", .toolResult "b" "2"] =
    [⟨.user, [.toolResult "a" "1", .toolResult "b" "2"]⟩] := by
  decide

end Message

/-! ## Reading a turn back -/

theorem blocks_ofTurns_singleton (t : Turn) :
    (Message.ofTurns [t]).flatMap (·.blocks) = t.spoken.map (·.2) := by
  have h := congrArg (List.map Prod.snd) (Message.spoken_ofTurns [t])
  simpa [Message.spoken, List.map_flatMap, Function.comp_def] using h

/-- The turn that the blocks of a turn of the assistant make: a blank text is lost. -/
theorem turnOfBlocks_spoken {t : Turn} (h : t.role = .assistant) :
    turnOfBlocks (t.spoken.map (·.2)) =
      { role := .assistant
        content := if Text.isBlankText t.content then "" else t.content
        toolCalls := t.toolCalls } := by
  by_cases hblank : Text.isBlankText t.content <;>
    simp [turnOfBlocks, Turn.spoken, h, hblank, List.filterMap_map, Function.comp_def]

theorem turnOfBlocks_spoken_eq_iff (t : Turn) : turnOfBlocks (t.spoken.map (·.2)) = t ↔
    t.role = .assistant ∧ t.toolCallId = none ∧
      (t.content = "" ∨ Text.isBlankText t.content = false) := by
  constructor
  · intro heq
    have hrole : t.role = .assistant := (congrArg Turn.role heq).symm
    have hcontent : (if Text.isBlankText t.content then "" else t.content) = t.content := by
      simpa [turnOfBlocks_spoken hrole] using congrArg Turn.content heq
    refine ⟨hrole, (congrArg Turn.toolCallId heq).symm, ?_⟩
    split at hcontent
    · exact .inl hcontent.symm
    · next hblank => exact .inr (Bool.eq_false_iff.mpr hblank)
  · rintro ⟨hrole, hid, hcontent⟩
    have hkept : (if Text.isBlankText t.content then "" else t.content) = t.content := by
      rcases hcontent with hempty | hblank
      · simp [hempty]
      · simp [hblank]
    rw [turnOfBlocks_spoken hrole, hkept, ← hrole, ← hid]

/-- The messages of a request say what the turns of its conversation say, in the same order and with
the same speakers. None is empty, and no two neighbours consist of results only. The blocks of one
turn make that turn again if it is the assistant's, answers no call and has no text or one that is
not blank, and only then. -/
theorem messages_say_turns (turns : List Turn) :
    (Message.ofTurns turns).flatMap (·.spoken) = turns.flatMap (·.spoken) ∧
      (∀ m ∈ Message.ofTurns turns, m.blocks ≠ []) ∧
      (Message.ofTurns turns).IsChain (fun m next =>
        ¬((∀ b ∈ m.blocks, b.isToolResult) ∧ ∀ b ∈ next.blocks, b.isToolResult)) ∧
      ∀ t : Turn, turnOfBlocks ((Message.ofTurns [t]).flatMap (·.blocks)) = t ↔
        t.role = .assistant ∧ t.toolCallId = none ∧
          (t.content = "" ∨ Text.isBlankText t.content = false) := by
  have hgrouped := Message.grouped_ofTurns turns
  refine ⟨Message.spoken_ofTurns turns, hgrouped.filled, hgrouped.apart, fun t => ?_⟩
  rw [blocks_ofTurns_singleton, turnOfBlocks_spoken_eq_iff]

end Provider
end ChatRelay
