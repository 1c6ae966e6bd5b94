import ChatRelay.Channel.Execution
import ChatRelay.Channel.Stock
import ChatRelay.Proofs.Provider.Pairing
import ChatRelay.Proofs.Store.RoundTrip

/-!
# The window onto a conversation

A conversation is kept in exchanges: a turn of the user, then turns of the assistant, each followed
by the results of its calls, up to one without calls. The history enricher cuts the conversation at
its limit, wherever that falls, and drops what comes before the next turn of the user. Since only
the first turn of an exchange is the user's, what remains are whole exchanges, and no call is
separated from its result.
-/

namespace ChatRelay
open Store

/-! ## Calls and results by their places -/

/-- Turns of the assistant, each followed by the results of its calls; the last one has none. -/
inductive Answering : List Turn → Prop
  | last {t : Turn} (role : t.role = .assistant) (calls : t.toolCalls = []) : Answering [t]
  | round {t : Turn} {results rest : List Turn} (role : t.role = .assistant)
      (answers : List.Forall₂ Turn.IsResultOf results t.toolCalls) (tail : Answering rest) :
      Answering (t :: (results ++ rest))

/-- Each call has its result behind it, and each result its call before it. -/
structure Resolved (turns : List Turn) : Prop where
  /-- The result of a call stands as far behind the turn as the call does among its calls. -/
  answered : ∀ (i : Nat) (t : Turn), turns[i]? = some t → t.role = .assistant →
    ∀ (j : Nat) (c : ToolCall), t.toolCalls[j]? = some c →
      ∃ result, turns[i + 1 + j]? = some result ∧ Turn.IsResultOf result c
  asked : ∀ (k : Nat) (result : Turn), turns[k]? = some result → result.role = .tool →
    ∃ i j t c, k = i + 1 + j ∧ turns[i]? = some t ∧ t.role = .assistant ∧
      t.toolCalls[j]? = some c ∧ Turn.IsResultOf result c

def OpensOnUser (turns : List Turn) : Prop := ∃ t, turns.head? = some t ∧ t.role = .user

/-- A turn of the user and what answers it. -/
def IsExchange (turns : List Turn) : Prop :=
  ∃ question rest, turns = question :: rest ∧ question.role = .user ∧ Answering rest

theorem getElem?_append_eq_some {α : Type} {l m : List α} {i : Nat} {a : α} :
    (l ++ m)[i]? = some a ↔ l[i]? = some a ∨ ∃ j, i = l.length + j ∧ m[j]? = some a := by
  rcases Nat.lt_or_ge i l.length with hlt | hge
  · rw [List.getElem?_append_left hlt]
    exact ⟨.inl, fun h => h.resolve_right fun ⟨j, hj, _⟩ => by omega⟩
  · obtain ⟨j, rfl⟩ := Nat.exists_eq_add_of_le hge
    simp [List.getElem?_append_right]

/-- The place of a result is that of its call. -/
theorem getElem?_of_forall₂ {α β : Type} {R : α → β → Prop} {l : List α} {m : List β}
    (h : List.Forall₂ R l m) (i : Nat) : Option.Rel R l[i]? m[i]? := by
  induction h generalizing i with
  | nil => exact .none
  | cons hab _ ih =>
    cases i with
    | zero => exact .some hab
    | succ i => exact ih i

namespace Resolved
variable {turns more : List Turn}

theorem nil : Resolved [] := ⟨by simp, by simp⟩

theorem single {t : Turn} (hcalls : t.role = .assistant → t.toolCalls = [])
    (hrole : t.role ≠ .tool) : Resolved [t] where
  answered := by
    intro i t' ht' hrole' j c hc
    obtain ⟨-, rfl⟩ : i = 0 ∧ t = t' := by simpa [List.getElem?_singleton] using ht'
    simp [hcalls hrole'] at hc
  asked := by
    intro k result hresult hrole'
    obtain ⟨-, rfl⟩ : k = 0 ∧ t = result := by simpa [List.getElem?_singleton] using hresult
    exact absurd hrole' hrole

theorem append (h : Resolved turns) (hmore : Resolved more) : Resolved (turns ++ more) where
  answered := by
    intro i t ht hrole j c hc
    simp only [getElem?_append_eq_some] at ht ⊢
    obtain ht | ⟨i, rfl, ht⟩ := ht
    · obtain ⟨result, hresult, hof⟩ := h.answered i t ht hrole j c hc
      exact ⟨result, .inl hresult, hof⟩
    · obtain ⟨result, hresult, hof⟩ := hmore.answered i t ht hrole j c hc
      exact ⟨result, .inr ⟨i + 1 + j, by omega, hresult⟩, hof⟩
  asked := by
    intro k result hresult hrole
    simp only [getElem?_append_eq_some] at hresult ⊢
    obtain hresult | ⟨k, rfl, hresult⟩ := hresult
    · obtain ⟨i, j, t, c, rfl, ht, hasks⟩ := h.asked k result hresult hrole
      exact ⟨i, j, t, c, rfl, .inl ht, hasks⟩
    · obtain ⟨i, j, t, c, rfl, ht, hasks⟩ := hmore.asked k result hresult hrole
      exact ⟨turns.length + i, j, t, c, by omega, .inr ⟨i, rfl, ht⟩, hasks⟩

theorem flatten {parts : List (List Turn)} (h : ∀ part ∈ parts, Resolved part) :
    Resolved parts.flatten := by
  induction parts with
  | nil => exact nil
  | cons part parts ih =>
    obtain ⟨hpart, hparts⟩ := List.forall_mem_cons.mp h
    exact hpart.append (ih hparts)

theorem round {t : Turn} {results : List Turn} (hrole : t.role = .assistant)
    (hanswers : List.Forall₂ Turn.IsResultOf results t.toolCalls) : Resolved (t :: results) where
  answered := by
    intro i t' ht' hrole' j c hc
    cases i with
    | zero =>
      obtain rfl : t = t' := by simpa using ht'
      have hrel := getElem?_of_forall₂ hanswers j
      rw [hc] at hrel
      cases hresult : results[j]? with
      | none => simp [hresult] at hrel
      | some result =>
        rw [hresult, Option.rel_some_some] at hrel
        exact ⟨result, by simpa [Nat.add_comm 1] using hresult, hrel⟩
    | succ i =>
      have hmem : t' ∈ results := List.mem_of_getElem? (by simpa using ht')
      have htool := Provider.Message.role_of_results hanswers t' hmem
      simp [hrole'] at htool
  asked := by
    intro k result hresult hrole'
    cases k with
    | zero =>
      obtain rfl : t = result := by simpa using hresult
      simp [hrole] at hrole'
    | succ k =>
      have hrel := getElem?_of_forall₂ hanswers k
      rw [show results[k]? = some result by simpa using hresult] at hrel
      cases hc : t.toolCalls[k]? with
      | none => simp [hc] at hrel
      | some c =>
        rw [hc, Option.rel_some_some] at hrel
        exact ⟨0, k, t, c, by omega, rfl, hrole, hc, hrel⟩

end Resolved

namespace Answering
variable {turns : List Turn}

theorem resolved (h : Answering turns) : Resolved turns := by
  induction h with
  | last role calls => exact .single (fun _ => calls) (by simp [role])
  | round role answers _ ih => exact (Resolved.round role answers).append ih

theorem role_ne_user (h : Answering turns) : ∀ t ∈ turns, t.role ≠ .user := by
  induction h with
  | last role _ => simp [role]
  | round role answers _ ih =>
    intro t ht
    simp only [List.mem_cons, List.mem_append] at ht
    obtain rfl | hresult | hrest := ht
    · simp [role]
    · simp [Provider.Message.role_of_results answers t hresult]
    · exact ih t hrest

end Answering

namespace IsExchange
variable {turns : List Turn}

theorem resolved (hturns : IsExchange turns) : Resolved turns := by
  obtain ⟨question, rest, rfl, hrole, hrest⟩ := hturns
  exact (Resolved.single (by simp [hrole]) (by simp [hrole])).append hrest.resolved

/-- The only part of an exchange that goes to its end and opens on a turn of the user is all of
it. -/
theorem eq_of_suffix (hturns : IsExchange turns) {part : List Turn} (hpart : part <:+ turns)
    (hopens : OpensOnUser part) : part = turns := by
  obtain ⟨question, rest, rfl, -, hrest⟩ := hturns
  obtain ⟨t, hhead, hrole⟩ := hopens
  rcases List.suffix_cons_iff.mp hpart with heq | hsuffix
  · exact heq
  · have hmem : t ∈ rest := hsuffix.subset (List.mem_of_head? hhead)
    exact absurd hrole (hrest.role_ne_user t hmem)

end IsExchange

/-! ### Replies of the tool loop -/

namespace Provider
variable {moments : Nat → Moment} {tools : ToolSet} {model : Model}

theorem Generation.answering_rounds (hmodel : model.Replies) {maxRounds left : Nat}
    {g : Generation} {reply : Reply}
    (h : (rounds moments tools model maxRounds left g).2 = .ok reply) :
    ∃ rest, reply.turns = g.produced ++ rest ∧ Answering rest := by
  induction left generalizing g with
  | zero => simp [rounds] at h
  | succ left ih =>
    unfold rounds at h
    split at h
    · cases h
    · dsimp only at h
      split at h
      · cases h
      · cases h
      · rename_i calledOff turn hanswer
        obtain ⟨http, hread⟩ := hmodel _ _ _ _ hanswer
        have hrole := HttpReply.role_turn hread
        split at h
        · rename_i hcalls
          obtain rfl := Except.ok.inj h
          exact ⟨[turn], rfl, .last hrole (by simpa using hcalls)⟩
        · split at h
          · rename_i g' hall
            obtain ⟨results, -, hproduced, hresults⟩ := added_callAll hall
            obtain ⟨rest, hturns, hrest⟩ := ih h
            refine ⟨turn :: (results ++ rest), ?_, .round hrole hresults hrest⟩
            rw [hturns, hproduced]
            simp [add]
          · cases h

/-- In a reply of the tool loop each call has its result. -/
theorem answering_generateAmid (hmodel : model.Replies) {turns : List Turn} {calledOff : Bool}
    {reply : Reply} (h : (generateAmid moments tools model turns calledOff).2 = .ok reply) :
    Answering reply.turns := by
  obtain ⟨rest, hturns, hrest⟩ := Generation.answering_rounds hmodel h
  rw [hturns]
  exact hrest

end Provider

/-- What goes to the end of exchanges and opens on a turn of the user consists of exchanges. -/
theorem eq_flatten_drop_of_suffix {exchanges : List (List Turn)}
    (hexchanges : ∀ turns ∈ exchanges, IsExchange turns) {part : List Turn}
    (hpart : part <:+ exchanges.flatten) (hopens : OpensOnUser part) :
    ∃ n, part = (exchanges.drop n).flatten := by
  induction exchanges with
  | nil => exact ⟨0, by simpa using hpart⟩
  | cons turns exchanges ih =>
    obtain ⟨hturns, hrest⟩ := List.forall_mem_cons.mp hexchanges
    rw [List.flatten_cons] at hpart
    rcases List.suffix_or_suffix_of_suffix hpart (List.suffix_append turns _) with hin | hover
    · obtain ⟨n, hn⟩ := ih hrest hin
      exact ⟨n + 1, hn⟩
    · -- the part begins within the first exchange, so it begins where the exchange does
      obtain ⟨early, rfl⟩ := hover
      obtain ⟨before, heq⟩ := hpart
      have hearly : early <:+ turns :=
        ⟨before, List.append_cancel_right ((List.append_assoc before early _).trans heq)⟩
      by_cases hnil : early = []
      · exact ⟨1, by simp [hnil]⟩
      · have hwhole : early = turns := by
          refine hturns.eq_of_suffix hearly ?_
          rwa [OpensOnUser, List.head?_append_of_ne_nil _ hnil] at hopens
        exact ⟨0, by simp [hwhole]⟩

/-! ## The window -/

/-- The longest part of a conversation that goes to its end, opens on a turn of the user, and is
within the limit. -/
structure IsWindow (conversation : List Turn) (limit : Nat) (window : List Turn) : Prop where
  suffix : window <:+ conversation
  length_le : window.length ≤ limit
  opens : window ≠ [] → OpensOnUser window
  longest : ∀ part, part <:+ conversation → part.length ≤ limit → OpensOnUser part →
    part <:+ window

theorem lastOf_suffix {α : Type} (limit : Nat) (l : List α) : lastOf limit l <:+ l :=
  List.drop_suffix _ l

theorem length_lastOf_le {α : Type} (limit : Nat) (l : List α) :
    (lastOf limit l).length ≤ limit := by
  rw [lastOf, List.length_drop]
  omega

theorem suffix_lastOf {α : Type} {limit : Nat} {l part : List α} (hpart : part <:+ l)
    (hlength : part.length ≤ limit) : part <:+ lastOf limit l := by
  obtain ⟨before, rfl⟩ := hpart
  rw [lastOf, List.drop_append_of_le_length (by rw [List.length_append]; omega)]
  exact List.suffix_append _ part

/-- Nothing that opens on a turn of the user is dropped. -/
theorem suffix_window {turns part : List Turn} (hpart : part <:+ turns)
    (hopens : OpensOnUser part) : part <:+ Enrichment.window turns := by
  obtain ⟨before, rfl⟩ := hpart
  induction before with
  | nil =>
    obtain ⟨t, hhead, hrole⟩ := hopens
    obtain ⟨rest, rfl⟩ := List.head?_eq_some_iff.mp hhead
    simp [Enrichment.window, hrole]
  | cons first before ih =>
    by_cases hfirst : first.role = .user
    · simp [Enrichment.window, hfirst]
    · simpa [Enrichment.window, hfirst] using ih

theorem opensOnUser_window {turns : List Turn} (h : Enrichment.window turns ≠ []) :
    OpensOnUser (Enrichment.window turns) := by
  refine ⟨(Enrichment.window turns).head h, List.head?_eq_some_head h, ?_⟩
  have hkept := List.head_dropWhile_not (fun t : Turn => decide (t.role ≠ .user)) h
  exact Decidable.not_not.mp (of_decide_eq_false hkept)

theorem isWindow_lastOf (conversation : List Turn) (limit : Nat) :
    IsWindow conversation limit (Enrichment.window (lastOf limit conversation)) where
  suffix := (List.dropWhile_suffix _).trans (lastOf_suffix limit conversation)
  length_le := (List.dropWhile_suffix _).length_le.trans (length_lastOf_le limit conversation)
  opens := opensOnUser_window
  longest _ hpart hlength hopens := suffix_window (suffix_lastOf hpart hlength) hopens

/-- A window onto exchanges shows whole ones. -/
theorem IsWindow.whole {exchanges : List (List Turn)}
    (hexchanges : ∀ turns ∈ exchanges, IsExchange turns) {limit : Nat} {window : List Turn}
    (h : IsWindow exchanges.flatten limit window) : ∃ n, window = (exchanges.drop n).flatten := by
  by_cases hnil : window = []
  · exact ⟨exchanges.length, by simp [hnil]⟩
  · exact eq_flatten_drop_of_suffix hexchanges h.suffix (h.opens hnil)

theorem resolved_drop {exchanges : List (List Turn)}
    (hexchanges : ∀ turns ∈ exchanges, IsExchange turns) (n : Nat) :
    Resolved (exchanges.drop n).flatten :=
  .flatten fun turns hturns => (hexchanges turns (List.mem_of_mem_drop hturns)).resolved

/-! ## Conversations in a store -/

namespace Store

inductive Happening where
  /-- An execution adds a message and the reply to it to the conversation of its user. -/
  | kept (passage : Passage) (message : String) (reply : Provider.Reply)
  | elsewhere (op : Operation)

namespace Happening

def change {σ : Type} [Store σ] (s : σ) : Happening → σ
  | .kept passage message reply => ((Execution.keeping passage message reply).keep none s).1
  | .elsewhere op => (perform s op).2

def operation : Happening → Operation
  | .kept passage message reply => .addTurns passage.request.user (turnsToKeep message reply)
  | .elsewhere op => op

/-- What is added to the conversation of a user. -/
def exchange? (user : String) : Happening → Option (List Turn)
  | .kept passage message reply =>
    if passage.request.user = user then some (.user message :: reply.turns) else none
  | .elsewhere _ => none

/-- All that is added to the conversation of the user are replies in which calls have results. -/
def IsFair (user : String) : Happening → Prop
  | .kept passage _ reply => passage.request.user = user → Answering reply.turns
  | .elsewhere op => ∀ turns, op ≠ .addTurns user turns

variable {user : String} {happenings : List Happening}

theorem foldl_change {σ : Type} [Store σ] (happenings : List Happening) (s : σ) :
    happenings.foldl change s = (performAll s (happenings.map operation)).2 := by
  induction happenings generalizing s with
  | nil => rfl
  | cons h happenings ih =>
    rw [List.foldl_cons, ih]
    cases h <;> rfl

theorem isExchange {h : Happening} (hfair : h.IsFair user) {turns : List Turn}
    (hturns : h.exchange? user = some turns) : IsExchange turns := by
  cases h with
  | elsewhere op => simp [exchange?] at hturns
  | kept passage message reply =>
    obtain ⟨huser, rfl⟩ : passage.request.user = user ∧ .user message :: reply.turns = turns := by
      simpa [exchange?] using hturns
    exact ⟨.user message, reply.turns, rfl, rfl, hfair huser⟩

theorem said_operation {h : Happening} (hfair : h.IsFair user) :
    said user [h.operation] = (h.exchange? user).getD [] := by
  cases h with
  | kept passage message reply =>
    by_cases huser : passage.request.user = user <;>
      simp [said, operation, exchange?, turnsToKeep, huser]
  | elsewhere op =>
    cases op with
    | addTurns u turns =>
      have hu : u ≠ user := fun hu => hfair turns (hu ▸ rfl)
      simp [said, operation, exchange?, hu]
    | _ => rfl

/-- The conversation of a user consists of the exchanges that were kept. -/
theorem said_operations (hfair : ∀ h ∈ happenings, h.IsFair user) :
    said user (happenings.map operation) = (happenings.filterMap (exchange? user)).flatten := by
  induction happenings with
  | nil => rfl
  | cons h happenings ih =>
    obtain ⟨hh, hrest⟩ := List.forall_mem_cons.mp hfair
    have hcons : said user ((h :: happenings).map operation) =
        said user [h.operation] ++ said user (happenings.map operation) := by
      simp [said]
    rw [hcons, said_operation hh, ih hrest]
    cases hexchange : h.exchange? user <;> simp [hexchange]

theorem conversation_memory (hfair : ∀ h ∈ happenings, h.IsFair user) :
    (happenings.foldl change ({} : Memory)).conversation user =
      (happenings.filterMap (exchange? user)).flatten := by
  rw [foldl_change, ← said_operations hfair]
  exact (performAll_memory follows_empty _).2.conversations user

theorem recent_database (hfair : ∀ h ∈ happenings, h.IsFair user)
    (hstorable : ∀ h ∈ happenings, h.operation.IsStorable)
    (hrows : (happenings.map (·.operation.rows)).sum ≤ Database.maxLimit) (limit : Nat) :
    (happenings.foldl change ({} : Database)).recent user limit =
      .ok (lastOf limit (happenings.filterMap (exchange? user)).flatten) := by
  rw [foldl_change, ← said_operations hfair]
  refine Database.recent_performAll ?_ ?_ user limit
  · simpa using hstorable
  · simpa [Function.comp_def] using hrows

end Happening

end Store

/-- The enricher shows what the store recalls, from the first turn of the user on. -/
theorem Enricher.enrich_history {recent : String → Nat → Except StoreError (List Turn)}
    {request : Request} {conversation : List Turn} {limit : Nat}
    (h : recent request.user limit = .ok (lastOf limit conversation)) (minute : String) :
    (Enricher.history limit).enrich ⟨minute, recent⟩ request = .contributed
      { context := none
        history :=
          if limit = 0 then none else some (Enrichment.window (lastOf limit conversation)) } := by
  by_cases hlimit : limit = 0 <;>
    simp [Enricher.history, Enricher.recollect, Enrichment.empty, Enrichment.ofHistory, h, hlimit]

/-- The history enricher shows the longest part of a user's conversation that goes to its end, opens
on a turn of the user and is within the limit. If everything in the conversation are messages with
their replies, kept by executions while anything else happened to the store, this part consists of
whole exchanges, so no call and no result in it is without the other. -/
theorem history_shows_whole_exchanges {user : String} {happenings : List Happening}
    (hfair : ∀ h ∈ happenings, h.IsFair user) (limit : Nat) :
    let exchanges := happenings.filterMap (Happening.exchange? user)
    ∃ window, IsWindow exchanges.flatten limit window ∧
      (∃ n, window = (exchanges.drop n).flatten) ∧ Resolved window ∧
      ∀ (minute : String) (request : Request), request.user = user →
        let shown := EnricherOutcome.contributed
          { context := none, history := if limit = 0 then none else some window }
        let memory := happenings.foldl Happening.change ({} : Memory)
        let database := happenings.foldl Happening.change ({} : Database)
        memory.conversation user = exchanges.flatten ∧
        (Enricher.history limit).enrich ⟨minute, Conversations.recent memory⟩ request = shown ∧
        ((∀ h ∈ happenings, h.operation.IsStorable) →
          (happenings.map (·.operation.rows)).sum ≤ Database.maxLimit →
          (Enricher.history limit).enrich ⟨minute, Conversations.recent database⟩ request =
            shown) := by
  intro exchanges
  have hexchanges : ∀ turns ∈ exchanges, IsExchange turns := by
    intro turns hturns
    obtain ⟨h, hh, hexchange⟩ := List.mem_filterMap.mp hturns
    exact Happening.isExchange (hfair h hh) hexchange
  have hwindow := isWindow_lastOf exchanges.flatten limit
  obtain ⟨n, hwhole⟩ := hwindow.whole hexchanges
  refine ⟨_, hwindow, ⟨n, hwhole⟩, hwhole ▸ resolved_drop hexchanges n, ?_⟩
  rintro minute request rfl shown memory database
  have hmemory : memory.conversation request.user = exchanges.flatten :=
    Happening.conversation_memory hfair
  refine ⟨hmemory, Enricher.enrich_history ?_ minute, ?_⟩
  · exact congrArg (fun turns => Except.ok (lastOf limit turns)) hmemory
  · intro hstorable hrows
    exact Enricher.enrich_history (Happening.recent_database hfair hstorable hrows limit) minute

/-! ### A limit that falls between a call and its result -/

namespace Store

def keptFor (user message : String) (turns : List Turn) : Happening :=
  .kept ⟨{ id := "assistant", systemPrompt := "Be brief." }, ⟨message, user, "chat", none, none⟩,
    none, false⟩ message ⟨"", turns⟩

/-- Two exchanges of one user, the first of them with a call, and one of another. -/
def chatting : List Happening := [
  keptFor "ann" "What time is it?"
    [askingForTime, .toolResult "call" "noon", .assistant "It is noon."],
  .elsewhere (.mark "ann" ["m1"]),
  keptFor "ben" "Hello." [.assistant "Hello, Ben."],
  keptFor "ann" "Thank you." [.assistant "You are welcome."]]

theorem chatting_fair : ∀ h ∈ chatting, h.IsFair "ann" := by
  have hasking : Answering
      (askingForTime :: ([.toolResult "call" "noon"] ++ [.assistant "It is noon."])) :=
    .round rfl (.cons ⟨rfl, rfl⟩ .nil) (.last rfl rfl)
  have hreply (text : String) : Answering [.assistant text] := .last rfl rfl
  simpa [chatting, keptFor, Happening.IsFair, hreply] using hasking

theorem chatting_storable : ∀ h ∈ chatting, h.operation.IsStorable := by
  have hplain {t : Turn} (h : t.toolCalls = []) : t.IsStorable := Turn.isStorable_of_no_calls h
  simp [chatting, keptFor, Happening.operation, Operation.IsStorable, turnsToKeep,
    askingForTime_storable, hplain, Turn.user, Turn.assistant, Turn.toolResult]

/-- The four last turns begin with a result; the first two of them are dropped. -/
theorem chatting_shows_last_exchange :
    let shown := [Turn.user "Thank you.", .assistant "You are welcome."]
    let request : Request := ⟨"Bye.", "ann", "chat", none, none⟩
    (∀ h ∈ chatting, h.IsFair "ann") ∧
      IsWindow (chatting.filterMap (Happening.exchange? "ann")).flatten 4 shown ∧ Resolved shown ∧
      (Enricher.history 4).enrich ⟨"12:00",
        Conversations.recent (chatting.foldl Happening.change ({} : Memory))⟩ request =
          .contributed { context := none, history := some shown } ∧
      (Enricher.history 4).enrich ⟨"12:00",
        Conversations.recent (chatting.foldl Happening.change ({} : Database))⟩ request =
          .contributed { context := none, history := some shown } := by
  intro shown request
  obtain ⟨window, hwindow, -, hresolved, hshown⟩ := history_shows_whole_exchanges chatting_fair 4
  obtain ⟨-, hmemory, hdatabase⟩ := hshown "12:00" request rfl
  have heval : (Enricher.history 4).enrich ⟨"12:00",
      Conversations.recent (chatting.foldl Happening.change ({} : Memory))⟩ request =
        .contributed { context := none, history := some shown } := by decide +kernel
  obtain rfl : window = shown := by simpa using hmemory.symm.trans heval
  exact ⟨chatting_fair, hwindow, hresolved, heval, hdatabase chatting_storable (by decide)⟩

end Store

end ChatRelay
