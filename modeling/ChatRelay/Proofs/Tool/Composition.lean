import ChatRelay.Provider.ToolLoop
import ChatRelay.Table
import Mathlib.Data.List.Forall2
import Mathlib.Data.List.Induction
import Mathlib.Data.List.Sort
import Mathlib.Data.String.Basic

/-!
# Composed tools

A set of tools is a table of tools by their names. Sets that have every name once are told apart by
what is found in them, not by the order in which their tools are gone through: what overriding and
composing them gives depends on that alone, and so do the definitions that the model is told, which
are sorted by names that differ.
-/

namespace ChatRelay

/-! ## Sets of tools -/

namespace ToolSet
variable {tools later : ToolSet} {name : String} {tool : Tool}

def HasUniqueNames (tools : ToolSet) : Prop := (tools.map (·.1)).Nodup

theorem hasUniqueNames_nil : HasUniqueNames [] := List.nodup_nil

/-- Every name stands once, and is the tool's own. -/
structure IsKeyed (tools : ToolSet) : Prop where
  unique : tools.HasUniqueNames
  own : ∀ p ∈ tools, p.1 = p.2.name

theorem find?_cons (p : String × Tool) (tools : ToolSet) (name : String) :
    find? (p :: tools) name = if p.1 = name then some p.2 else tools.find? name := by
  rw [find?, List.lookup_cons]
  by_cases h : p.1 = name
  · simp [h]
  · simp [h, beq_false_of_ne (Ne.symm h), find?]

theorem find?_isSome_iff (tools : ToolSet) (name : String) :
    (tools.find? name).isSome ↔ name ∈ tools.map (·.1) := by
  induction tools with
  | nil => simp [find?]
  | cons p tools ih =>
    rw [find?_cons, List.map_cons, List.mem_cons]
    by_cases h : p.1 = name <;> simp [h, ih, Ne.symm]

theorem find?_eq_get? (tools : ToolSet) (name : String) :
    tools.find? name = Table.get? tools name := by
  induction tools with
  | nil => rfl
  | cons p tools ih => rw [find?_cons, Table.get?_cons, ih]

theorem find?_insert (tools : ToolSet) (key name : String) (tool : Tool) :
    (tools.insert key tool).find? name = if name = key then some tool else tools.find? name := by
  rw [find?_eq_get?, find?_eq_get?]
  exact Table.get?_put tools key name tool

theorem HasUniqueNames.insert (h : tools.HasUniqueNames) (name : String) (tool : Tool) :
    (tools.insert name tool).HasUniqueNames :=
  Table.nodup_keys_put h name tool

theorem HasUniqueNames.perm {set : ToolSet} (h : tools.HasUniqueNames) (hperm : set.Perm tools) :
    set.HasUniqueNames :=
  (hperm.map _).nodup_iff.mpr h

theorem HasUniqueNames.find?_eq_some_iff (h : tools.HasUniqueNames) :
    tools.find? name = some tool ↔ (name, tool) ∈ tools := by
  rw [find?_eq_get?]
  exact Table.get?_eq_some_iff h

theorem HasUniqueNames.find?_of_perm {set : ToolSet} (h : tools.HasUniqueNames)
    (hperm : set.Perm tools) (name : String) : set.find? name = tools.find? name := by
  apply Option.ext
  intro tool
  rw [(h.perm hperm).find?_eq_some_iff, h.find?_eq_some_iff, hperm.mem_iff]

/-- Two sets in which the same is found have the same tools. -/
theorem HasUniqueNames.perm_of_find? {set : ToolSet} (h : tools.HasUniqueNames)
    (hset : set.HasUniqueNames) (hfind : ∀ name, set.find? name = tools.find? name) :
    set.Perm tools := by
  refine (List.perm_ext_iff_of_nodup hset.of_map h.of_map).mpr fun p => ?_
  rw [← hset.find?_eq_some_iff, ← h.find?_eq_some_iff, hfind]

/-! ### Overriding -/

theorem HasUniqueNames.override (h : tools.HasUniqueNames) (later : ToolSet) :
    (tools.override later).HasUniqueNames := by
  induction later generalizing tools with
  | nil => exact h
  | cons p later ih => exact ih (h.insert p.1 p.2)

theorem find?_override (tools : ToolSet) (hlater : later.HasUniqueNames) (name : String) :
    (tools.override later).find? name = (later.find? name).or (tools.find? name) := by
  induction later generalizing tools with
  | nil => rfl
  | cons p later ih =>
    obtain ⟨hp, hlater⟩ := List.nodup_cons.mp hlater
    refine (ih (tools.insert p.1 p.2) hlater).trans ?_
    rw [find?_insert, find?_cons]
    by_cases hname : p.1 = name
    · have hnone : ToolSet.find? later name = none := by
        rw [← Option.not_isSome_iff_eq_none, find?_isSome_iff, ← hname]
        exact hp
      simp [hname, hnone]
    · simp [hname, Ne.symm hname]

theorem override_perm {tools' later' : ToolSet} (htools : tools'.Perm tools)
    (hlater : later'.Perm later) (hunique : tools.HasUniqueNames)
    (hlaterUnique : later.HasUniqueNames) :
    (tools'.override later').Perm (tools.override later) := by
  have hunique' : (tools'.override later').HasUniqueNames := (hunique.perm htools).override later'
  refine (hunique.override later).perm_of_find? hunique' fun name => ?_
  rw [find?_override _ (hlaterUnique.perm hlater), find?_override _ hlaterUnique,
    hlaterUnique.find?_of_perm hlater, hunique.find?_of_perm htools]

/-! ### Tools under their own names -/

theorem isKeyed_foldl_insert {tools : ToolSet} (h : tools.IsKeyed) (items : List Tool) :
    IsKeyed (items.foldl (fun set tool => set.insert tool.name tool) tools) := by
  induction items generalizing tools with
  | nil => exact h
  | cons tool items ih =>
    refine ih ⟨h.unique.insert tool.name tool, ?_⟩
    intro p hp
    rcases List.mem_append.mp hp with hold | hnew
    · exact h.own p (List.mem_of_mem_filter hold)
    · rw [List.mem_singleton.mp hnew]

theorem isKeyed_ofList (items : List Tool) : (ofList items).IsKeyed :=
  isKeyed_foldl_insert ⟨hasUniqueNames_nil, by simp⟩ items

theorem find?_ofList (items : List Tool) (name : String) :
    (ofList items).find? name = items.reverse.find? (·.name = name) := by
  induction items using List.reverseRecOn with
  | nil => rfl
  | append_singleton items tool ih =>
    rw [ofList, List.foldl_append, List.foldl_cons, List.foldl_nil]
    refine (find?_insert (ofList items) tool.name name tool).trans ?_
    rw [ih, List.reverse_append, List.reverse_singleton, List.singleton_append, List.find?_cons]
    by_cases hname : tool.name = name
    · simp [hname]
    · simp [hname, Ne.symm hname]

/-! ### Definitions -/

theorem insertByName_perm (d : ToolDefinition) (sorted : List ToolDefinition) :
    (insertByName d sorted).Perm (d :: sorted) := by
  induction sorted with
  | nil => exact .refl _
  | cons e sorted ih =>
    rw [insertByName]
    split
    · exact (ih.cons e).trans (.swap d e sorted)
    · exact .refl _

theorem definitions_eq_foldl (tools : ToolSet) : tools.definitions =
    tools.foldl (fun sorted p => insertByName p.2.definition sorted) [] := rfl

theorem definitions_perm (tools : ToolSet) :
    tools.definitions.Perm (tools.map (·.2.definition)) := by
  have hfold (sorted : List ToolDefinition) :
      (tools.foldl (fun sorted p => insertByName p.2.definition sorted) sorted).Perm
        (tools.map (·.2.definition) ++ sorted) := by
    induction tools generalizing sorted with
    | nil => exact .refl _
    | cons p tools ih =>
      refine (ih (insertByName p.2.definition sorted)).trans ?_
      refine ((insertByName_perm p.2.definition sorted).append_left _).trans ?_
      exact List.perm_middle
  rw [definitions_eq_foldl]
  exact (hfold []).trans (.of_eq (List.append_nil _))

theorem pairwise_insertByName {d : ToolDefinition} {sorted : List ToolDefinition}
    (h : sorted.Pairwise (·.name ≤ ·.name)) :
    (insertByName d sorted).Pairwise (·.name ≤ ·.name) := by
  induction sorted with
  | nil => simp [insertByName]
  | cons e sorted ih =>
    obtain ⟨he, hsorted⟩ := List.pairwise_cons.mp h
    rw [insertByName]
    split
    · next hlt =>
      refine List.pairwise_cons.mpr ⟨fun f hf => ?_, ih hsorted⟩
      rcases List.mem_cons.mp ((insertByName_perm d sorted).mem_iff.mp hf) with rfl | hf
      · exact le_of_lt hlt
      · exact he f hf
    · next hlt =>
      have hde : d.name ≤ e.name := le_of_not_gt hlt
      refine List.pairwise_cons.mpr ⟨fun f hf => ?_, h⟩
      rcases List.mem_cons.mp hf with rfl | hf
      · exact hde
      · exact hde.trans (he f hf)

theorem pairwise_definitions (tools : ToolSet) :
    tools.definitions.Pairwise (·.name ≤ ·.name) := by
  have hfold {sorted : List ToolDefinition} (h : sorted.Pairwise (·.name ≤ ·.name)) :
      (tools.foldl (fun sorted p => insertByName p.2.definition sorted) sorted).Pairwise
        (·.name ≤ ·.name) := by
    induction tools generalizing sorted with
    | nil => exact h
    | cons p tools ih => exact ih (pairwise_insertByName h)
  rw [definitions_eq_foldl]
  exact hfold .nil

namespace IsKeyed

theorem perm {set : ToolSet} (h : tools.IsKeyed) (hperm : set.Perm tools) : set.IsKeyed :=
  ⟨h.unique.perm hperm, fun p hp => h.own p (hperm.mem_iff.mp hp)⟩

theorem names_definitions (h : tools.IsKeyed) :
    (tools.definitions.map (·.name)).Perm (tools.map (·.1)) := by
  refine (tools.definitions_perm.map _).trans (.of_eq ?_)
  rw [List.map_map]
  exact List.map_congr_left fun p hp => (h.own p hp).symm

theorem strictly_sorted (h : tools.IsKeyed) :
    tools.definitions.Pairwise (·.name < ·.name) := by
  have hnodup : tools.definitions.Pairwise (·.name ≠ ·.name) :=
    List.pairwise_map.mp (h.names_definitions.nodup_iff.mpr h.unique)
  exact (tools.pairwise_definitions.and hnodup).imp fun ⟨hle, hne⟩ => lt_of_le_of_ne hle hne

/-- The definitions do not depend on the order in which the tools are gone through. -/
theorem definitions_of_perm {set : ToolSet} (h : tools.IsKeyed) (hperm : set.Perm tools) :
    set.definitions = tools.definitions := by
  have hdefinitions : set.definitions.Perm tools.definitions :=
    set.definitions_perm.trans ((hperm.map _).trans tools.definitions_perm.symm)
  refine hdefinitions.eq_of_pairwise ?_ (h.perm hperm).strictly_sorted h.strictly_sorted
  intro a b _ _ hab hba
  exact absurd hba (lt_asymm hab)

theorem mem_definitions (h : tools.IsKeyed) {d : ToolDefinition} (hd : d ∈ tools.definitions) :
    ∃ tool, tools.find? d.name = some tool ∧ tool.definition = d := by
  obtain ⟨p, hp, rfl⟩ := List.mem_map.mp (tools.definitions_perm.mem_iff.mp hd)
  refine ⟨p.2, h.unique.find?_eq_some_iff.mpr ?_, rfl⟩
  have hname : p.2.definition.name = p.1 := (h.own p hp).symm
  rwa [hname]

theorem mem_names_definitions (h : tools.IsKeyed) {name : String} :
    name ∈ tools.definitions.map (·.name) ↔ (tools.find? name).isSome := by
  rw [h.names_definitions.mem_iff, find?_isSome_iff]

end IsKeyed

open Provider in
/-- What the model is told about the tools of a set agrees with what is run when it calls them. -/
structure IsAdvertised (tools : ToolSet) : Prop where
  /-- The definitions stand in the order of their names, each name once. -/
  sorted : tools.definitions.Pairwise (·.name < ·.name)
  complete : ∀ name, name ∈ tools.definitions.map (·.name) ↔ (tools.find? name).isSome
  /-- A call by the name of a definition runs the tool that the definition is of. -/
  runs : ∀ d ∈ tools.definitions, ∃ tool, tools.find? d.name = some tool ∧ tool.definition = d ∧
    ∀ (clock : WallClock) (c : ToolCall), c.name = d.name →
      Generation.callOutcome clock tools c = tool.run clock c.arguments
  /-- A call by any other name runs none. -/
  refuses : ∀ (clock : WallClock) (c : ToolCall), c.name ∉ tools.definitions.map (·.name) →
    Generation.callOutcome clock tools c = { result := .error (.notFound c.name) }

theorem IsKeyed.isAdvertised (h : tools.IsKeyed) : tools.IsAdvertised where
  sorted := h.strictly_sorted
  complete _ := h.mem_names_definitions
  runs := by
    intro d hd
    obtain ⟨tool, hfind, hdefinition⟩ := h.mem_definitions hd
    refine ⟨tool, hfind, hdefinition, fun clock c hc => ?_⟩
    simp only [Provider.Generation.callOutcome, hc, hfind]
  refuses := by
    intro clock c hc
    rw [h.mem_names_definitions, Option.not_isSome_iff_eq_none] at hc
    simp only [Provider.Generation.callOutcome, hc]

end ToolSet

/-! ## Composed factories -/

namespace ToolFactory
variable {factories reordered : List ToolFactory} {scope : ToolScope}

theorem compose_concat (factories : List ToolFactory) (f : ToolFactory) (scope : ToolScope) :
    compose (factories ++ [f]) scope = (compose factories scope).override (f.create scope) := by
  simp [compose]

theorem hasUniqueNames_compose (factories : List ToolFactory) (scope : ToolScope) :
    (compose factories scope).HasUniqueNames := by
  induction factories using List.reverseRecOn with
  | nil => exact ToolSet.hasUniqueNames_nil
  | append_singleton factories f ih => exact compose_concat .. ▸ ih.override _

/-- What is found is what the last factory made that made any tool of the name. -/
theorem find?_compose (h : ∀ f ∈ factories, (f.create scope).HasUniqueNames) (name : String) :
    (compose factories scope).find? name =
      factories.reverse.findSome? fun f => (f.create scope).find? name := by
  induction factories using List.reverseRecOn with
  | nil => rfl
  | append_singleton factories f ih =>
    have hf := h f (by simp)
    have hfactories := ih fun g hg => h g (by simp [hg])
    rw [compose_concat, ToolSet.find?_override _ hf, hfactories, List.reverse_append,
      List.reverse_singleton, List.singleton_append, List.findSome?_cons]
    cases (f.create scope).find? name <;> rfl

theorem mem_names_compose (h : ∀ f ∈ factories, (f.create scope).HasUniqueNames) {name : String} :
    ((compose factories scope).find? name).isSome ↔
      ∃ f ∈ factories, ((f.create scope).find? name).isSome := by
  simp [find?_compose h]

theorem isKeyed_compose (h : ∀ f ∈ factories, (f.create scope).IsKeyed) :
    (compose factories scope).IsKeyed := by
  have hunique := hasUniqueNames_compose factories scope
  refine ⟨hunique, fun p hp => ?_⟩
  have hfind := hunique.find?_eq_some_iff.mpr hp
  rw [find?_compose fun f hf => (h f hf).unique] at hfind
  obtain ⟨f, hf, hmade⟩ := List.exists_of_findSome?_eq_some hfind
  have hkeyed := h f (List.mem_reverse.mp hf)
  exact hkeyed.own p (hkeyed.unique.find?_eq_some_iff.mp hmade)

/-- The order in which the tools of each factory are gone through makes no difference. -/
theorem compose_perm (h : ∀ f ∈ factories, (f.create scope).HasUniqueNames)
    (horder :
      List.Forall₂ (fun f g => (f.create scope).Perm (g.create scope)) reordered factories) :
    (compose reordered scope).Perm (compose factories scope) := by
  have hfold {set set' : ToolSet} (hset : set'.Perm set) (hunique : set.HasUniqueNames) :
      (reordered.foldl (fun (s : ToolSet) f => s.override (f.create scope)) set').Perm
        (factories.foldl (fun (s : ToolSet) f => s.override (f.create scope)) set) := by
    induction horder generalizing set set' with
    | nil => exact hset
    | @cons f g _ _ hmade _ ih =>
      obtain ⟨hg, h⟩ := List.forall_mem_cons.mp h
      exact ih h (ToolSet.override_perm hset hmade hunique hg) (hunique.override _)
  exact hfold (.refl _) ToolSet.hasUniqueNames_nil

theorem compose_append {more : List ToolFactory}
    (h : ∀ f ∈ factories ++ more, (f.create scope).HasUniqueNames) :
    (compose (factories ++ more) scope).Perm
      ((compose factories scope).override (compose more scope)) := by
  obtain ⟨hfactories, hmore⟩ := List.forall_mem_append.mp h
  have hunique := (hasUniqueNames_compose factories scope).override (compose more scope)
  refine hunique.perm_of_find? (hasUniqueNames_compose _ scope) fun name => ?_
  rw [find?_compose h, ToolSet.find?_override _ (hasUniqueNames_compose more scope),
    find?_compose hfactories, find?_compose hmore, List.reverse_append, List.findSome?_append]

/-- The tools that are composed from factories, in whatever order the factories' sets and the set of
all are gone through. Every name that a factory makes a tool for is there and no other, with the
tool of the last such factory; the tools of the first factories are overridden by those of the rest.
A fixed factory makes the last of its tools with a name. The model is told of exactly these tools,
in the order of their names, and a call runs the tool whose definition has its name. -/
theorem composed_tools_advertised {tools : ToolSet}
    (hkeyed : ∀ f ∈ factories, (f.create scope).IsKeyed)
    (horder : List.Forall₂ (fun f g => (f.create scope).Perm (g.create scope)) reordered factories)
    (htools : tools.Perm (compose reordered scope)) :
    (∀ name, (tools.find? name).isSome ↔
      ∃ f ∈ factories, ((f.create scope).find? name).isSome) ∧
    (∀ name, tools.find? name =
      factories.reverse.findSome? fun f => (f.create scope).find? name) ∧
    (∀ (label : String) (items : List Tool),
      ((fixed label items).create scope).IsKeyed ∧
      ∀ name, ((fixed label items).create scope).find? name =
        items.reverse.find? (·.name = name)) ∧
    (∀ first rest, factories = first ++ rest →
      tools.Perm ((compose first scope).override (compose rest scope))) ∧
    tools.definitions = (compose factories scope).definitions ∧
    tools.IsAdvertised := by
  have hunique : ∀ f ∈ factories, (f.create scope).HasUniqueNames :=
    fun f hf => (hkeyed f hf).unique
  have hcomposed : (compose factories scope).IsKeyed := isKeyed_compose hkeyed
  have hperm : tools.Perm (compose factories scope) := htools.trans (compose_perm hunique horder)
  have hfind (name : String) : tools.find? name = (compose factories scope).find? name :=
    hcomposed.unique.find?_of_perm hperm name
  refine ⟨?names, ?last, ?fixed, ?concatenation, hcomposed.definitions_of_perm hperm,
    (hcomposed.perm hperm).isAdvertised⟩
  case names =>
    intro name
    rw [hfind, mem_names_compose hunique]
  case last =>
    intro name
    rw [hfind, find?_compose hunique]
  case fixed =>
    intro label items
    exact ⟨ToolSet.isKeyed_ofList items, ToolSet.find?_ofList items⟩
  case concatenation =>
    rintro first rest rfl
    exact hperm.trans (compose_append hunique)

/-! ### A factory for everyone and one for each user -/

section Personal

/-- A tool that gives the same answer to every call. -/
def answering (name answer : String) : Tool where
  name
  description := "says " ++ answer
  parameters := .null
  run _ _ := { result := .ok answer }

/-- The tools for everyone, one of them given twice. -/
def common : ToolFactory :=
  fixed "common" [answering "greet" "Hi!", answering "time" "noon", answering "greet" "Hello!"]

/-- Tools that know the user, in the order of their names or the other way round. -/
def personal (ascending : Bool) : ToolFactory where
  name := "personal"
  create scope :=
    let tools := [("greet", answering "greet" ("Hello, " ++ scope.user ++ "!")),
      ("whoami", answering "whoami" scope.user)]
    if ascending then tools else tools.reverse

def annAtHome : ToolScope := ⟨"ann", "home"⟩

/-- Ann is greeted by her name, whichever of her tools comes first. -/
theorem personal_over_common :
    (∀ f ∈ [common, personal true], (f.create annAtHome).IsKeyed) ∧
      ((compose [common, personal false] annAtHome).definitions.map (·.description)) =
        ["says Hello, ann!", "says noon", "says ann"] ∧
      (compose [common, personal false] annAtHome).IsAdvertised := by
  have hcommon : (common.create annAtHome).IsKeyed := ToolSet.isKeyed_ofList _
  have hpersonal : ((personal true).create annAtHome).IsKeyed :=
    ⟨by unfold ToolSet.HasUniqueNames; decide, by simp [personal, answering]⟩
  have hkeyed : ∀ f ∈ [common, personal true], (f.create annAtHome).IsKeyed := by
    simp [hcommon, hpersonal]
  have horder : List.Forall₂ (fun f g => (f.create annAtHome).Perm (g.create annAtHome))
      [common, personal false] [common, personal true] :=
    .cons (.refl _) (.cons (List.reverse_perm _) .nil)
  obtain ⟨-, -, -, -, hdefinitions, hadvertised⟩ :=
    composed_tools_advertised hkeyed horder (.refl (compose [common, personal false] annAtHome))
  refine ⟨hkeyed, ?_, hadvertised⟩
  rw [hdefinitions]
  decide

end Personal

end ToolFactory
end ChatRelay
