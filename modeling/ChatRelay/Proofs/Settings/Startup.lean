import ChatRelay.Startup
import Mathlib.Data.List.Sort
import Mathlib.Data.String.Basic

/-!
# What a start leaves behind

A start makes the directory of its log before it reads its settings, and the file of its database,
or the directory that file was to lie in, once the settings are accepted and its key is found. It
makes nothing else, so that a start that is refused leaves the directory of its log at most.
-/

namespace ChatRelay

namespace ChannelRegistry

theorem insertName_eq (name : String) (names : List String) :
    insertName name names = names.orderedInsert (· ≤ ·) name := by
  induction names with
  | nil => rfl
  | cons other rest ih =>
    by_cases h : other < name
    · simp [insertName, h, ih]
    · simp [insertName, h, not_lt.mp h]

theorem mem_insertName {name other : String} {names : List String} :
    other ∈ insertName name names ↔ other = name ∨ other ∈ names := by
  rw [insertName_eq, List.mem_orderedInsert]

theorem pairwise_insertName {name : String} {names : List String}
    (h : names.Pairwise (· < ·)) (hname : name ∉ names) :
    (insertName name names).Pairwise (· < ·) := by
  have hsorted : (insertName name names).Pairwise (· ≤ ·) := by
    rw [insertName_eq]
    exact (h.imp le_of_lt).orderedInsert _ _
  have hnodup : (insertName name names).Nodup := by
    rw [insertName_eq, (List.perm_orderedInsert _ _ _).nodup_iff]
    exact List.nodup_cons.mpr ⟨hname, h.imp ne_of_lt⟩
  exact (hsorted.and hnodup).imp fun ⟨hle, hne⟩ => lt_of_le_of_ne hle hne

end ChannelRegistry

namespace Startup
variable {s : Startup} {settings : Settings} {lookup : Settings.Lookup} {path : String}

/-! ## Names in the present directory -/

theorem insert_if_new {names : List String} (h : names.Pairwise (· < ·)) (name : String) :
    let more := if names.contains name then names else ChannelRegistry.insertName name names
    more.Pairwise (· < ·) ∧ ∀ other, other ∈ more ↔ other = name ∨ other ∈ names := by
  by_cases hname : name ∈ names
  · rw [if_pos (by simpa using hname)]
    exact ⟨h, fun other => (or_iff_right_of_imp fun hother => hother ▸ hname).symm⟩
  · rw [if_neg (by simpa using hname)]
    exact ⟨ChannelRegistry.pairwise_insertName h hname, fun _ => ChannelRegistry.mem_insertName⟩

/-- The names are those of the paths, in order, and each once. -/
theorem files_spec (s : Startup) :
    s.files.Pairwise (· < ·) ∧
      ∀ name, name ∈ s.files ↔ ∃ path ∈ s.paths, topName? path = some name := by
  have hfold (added names : List String) (h : names.Pairwise (· < ·)) :
      let files := added.foldl (fun names name =>
        if names.contains name then names else ChannelRegistry.insertName name names) names
      files.Pairwise (· < ·) ∧ ∀ name, name ∈ files ↔ name ∈ added ∨ name ∈ names := by
    induction added generalizing names with
    | nil => simpa using h
    | cons first added ih =>
      obtain ⟨hinserted, hfirst⟩ := insert_if_new h first
      obtain ⟨hsorted, hmem⟩ := ih _ hinserted
      refine ⟨hsorted, fun name => (hmem name).trans ?_⟩
      rw [hfirst, List.mem_cons]
      tauto
  obtain ⟨hsorted, hmem⟩ := hfold (s.paths.filterMap topName?) [] .nil
  refine ⟨hsorted, fun name => (hmem name).trans ?_⟩
  simp [List.mem_filterMap]

/-! ## Paths -/

@[simp] theorem paths_tell (s : Startup) (text : String) : (s.tell text).paths = s.paths := rfl

@[simp] theorem paths_fail (s : Startup) (cause : ConfigError) : (s.fail cause).paths = s.paths :=
  rfl

@[simp] theorem paths_failAt (s : Startup) (attempt cause : String) :
    (s.failAt attempt cause).paths = s.paths := rfl

@[simp] theorem paths_announce (s : Startup) (settings : Settings) (registry : ChannelRegistry) :
    (s.announce settings registry).paths = s.paths := rfl

theorem mem_paths_openStore (h : path ∈ (s.openStore settings).paths) :
    path ∈ s.paths ∨ ∃ database, settings.databasePath = some database ∧ database ≠ memoryPath ∧
      (path = database ∨ path = parent database) := by
  unfold openStore at h
  split at h
  · exact .inl h
  · rename_i database hdatabase
    dsimp only at h
    split_ifs at h with hmemory hdirectory
    · exact .inl h
    · simp only [paths_failAt, create, List.mem_append, List.mem_singleton] at h
      exact h.imp_right fun heq => ⟨database, hdatabase, hmemory, .inr heq⟩
    · simp only [paths_tell, create, List.mem_append, List.mem_singleton] at h
      exact h.imp_right fun heq => ⟨database, hdatabase, hmemory, .inl heq⟩

theorem paths_serve (s : Startup) (settings : Settings) :
    (s.serve settings).paths = ((s.tell (banner settings)).openStore settings).paths := by
  unfold serve
  grind [paths_announce, paths_fail]

/-- What comes before the settings are read. -/
def logged (lookup : Settings.Lookup) : Startup :=
  (lookup.value? logVariable).elim {} (create {})

theorem mem_paths_logged :
    path ∈ (logged lookup).paths ↔ lookup.value? logVariable = some path := by
  cases hlog : lookup.value? logVariable <;> simp [logged, hlog, create, eq_comm]

theorem run_of_refused {cause : ConfigError} (h : Settings.ofLookup lookup = .error cause) :
    run lookup = (logged lookup).failAt "invalid RELAY_* configuration" cause.message := by
  cases hlog : lookup.value? logVariable <;> simp [run, logged, hlog, h]

theorem run_of_no_key {cause : ConfigError} (h : Settings.ofLookup lookup = .ok settings)
    (hkey : Provider.Credentials.ofLookup lookup settings.model = .error cause) :
    run lookup = (logged lookup).fail cause := by
  cases hlog : lookup.value? logVariable <;> simp [run, logged, hlog, h, hkey]

theorem run_of_accepted {credentials : Provider.Credentials}
    (h : Settings.ofLookup lookup = .ok settings)
    (hkey : Provider.Credentials.ofLookup lookup settings.model = .ok credentials) :
    run lookup = (logged lookup).serve settings := by
  cases hlog : lookup.value? logVariable <;> simp [run, logged, hlog, h, hkey]

/-- All that a start makes. -/
theorem mem_paths_run (h : path ∈ (run lookup).paths) :
    lookup.value? logVariable = some path ∨
      ∃ settings credentials database, Settings.ofLookup lookup = .ok settings ∧
        Provider.Credentials.ofLookup lookup settings.model = .ok credentials ∧
        settings.databasePath = some database ∧ database ≠ memoryPath ∧
        (path = database ∨ path = parent database) := by
  cases hsettings : Settings.ofLookup lookup with
  | error cause =>
    rw [run_of_refused hsettings, paths_failAt, mem_paths_logged] at h
    exact .inl h
  | ok settings =>
    cases hkey : Provider.Credentials.ofLookup lookup settings.model with
    | error cause =>
      rw [run_of_no_key hsettings hkey, paths_fail, mem_paths_logged] at h
      exact .inl h
    | ok credentials =>
      rw [run_of_accepted hsettings hkey, paths_serve] at h
      rcases mem_paths_openStore h with hlog | ⟨database, hdatabase⟩
      · exact .inl (mem_paths_logged.mp hlog)
      · exact .inr ⟨settings, credentials, database, rfl, hkey, hdatabase⟩

/-- A start whose settings are refused leaves the directory of its log at most. -/
theorem files_of_refused {cause : ConfigError} (h : Settings.ofLookup lookup = .error cause)
    {name : String} (hname : name ∈ (run lookup).files) :
    ∃ directory, lookup.value? logVariable = some directory ∧ topName? directory = some name := by
  obtain ⟨path, hpath, htop⟩ := ((files_spec _).2 name).mp hname
  rcases mem_paths_run hpath with hlog | ⟨settings, -, -, hsettings, -⟩
  · exact ⟨path, hlog, htop⟩
  · cases h.symm.trans hsettings

end Startup
end ChatRelay
