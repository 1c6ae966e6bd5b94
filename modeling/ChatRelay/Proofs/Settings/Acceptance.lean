import ChatRelay.Proofs.Settings.Reading
import ChatRelay.Proofs.Tool.Offset

/-!
# Which settings are accepted

Settings are accepted exactly when every number that is set is a number of its word and the values,
defaults included, keep to the constraints; each of them is then what its variable says. Otherwise
there is a complaint about the first number that cannot be read, in the order of reading, or, when
all can be read, about the first constraint that is violated.
-/

namespace ChatRelay

/-! ## Numbers in texts -/

namespace Numeral
open CurrentTime (Decimal)

/-- Digits, maybe with a plus sign in front, that stand for a number below `bound`. -/
inductive Unsigned (bound : Nat) : List Char → Nat → Prop
  | bare {cs : List Char} {n : Nat} (h : Decimal cs n) (hn : n < bound) : Unsigned bound cs n
  | plus {cs : List Char} {n : Nat} (h : Decimal cs n) (hn : n < bound) :
      Unsigned bound ('+' :: cs) n

theorem unsigned?_eq_some_iff {bound n : Nat} {cs : List Char} :
    unsigned? bound (.ofList cs) = some n ↔ Unsigned bound cs n := by
  simp only [unsigned?, String.toList_ofList, Option.filter_eq_some_iff, decide_eq_true_eq,
    CurrentTime.natural?_eq_some_iff]
  split
  · next rest =>
    constructor
    · rintro ⟨h, hn⟩
      exact .plus h hn
    · rintro (⟨h, -⟩ | ⟨h, hn⟩)
      · exact absurd (h.isDigit '+' List.mem_cons_self) (by decide)
      · exact ⟨h, hn⟩
  · next hplus =>
    constructor
    · rintro ⟨h, hn⟩
      exact .bare h hn
    · rintro (⟨h, hn⟩ | ⟨-, -⟩)
      · exact ⟨h, hn⟩
      · exact absurd rfl (hplus _)

/-- A numeral neither begins nor ends with white space. -/
theorem Unsigned.edges {bound n : Nat} {cs : List Char} (h : Unsigned bound cs n) :
    (∀ c ∈ cs.head?, Text.isBlank c = false) ∧ ∀ c ∈ cs.getLast?, Text.isBlank c = false := by
  have hdigits {ds : List Char} {m : Nat} (hd : Decimal ds m) {c : Char} (hc : c ∈ ds) :
      Text.isBlank c = false := isBlank_of_isDigit (hd.isDigit c hc)
  have hall : ∀ c ∈ cs, Text.isBlank c = false := by
    cases h with
    | bare hd _ => exact fun c hc => hdigits hd hc
    | plus hd _ => exact List.forall_mem_cons.mpr ⟨by decide, fun c hc => hdigits hd hc⟩
  exact ⟨fun c hc => hall c (List.mem_of_head? hc), fun c hc => hall c (List.mem_of_getLast? hc)⟩

/-- The text is a numeral of a number below `bound`, with any white space around it. -/
def Reads (bound : Nat) (value : String) (n : Nat) : Prop :=
  ∃ lead numeral trail, value.toList = lead ++ numeral ++ trail ∧
    (∀ c ∈ lead, Text.isBlank c = true) ∧ (∀ c ∈ trail, Text.isBlank c = true) ∧
    Unsigned bound numeral n

theorem unsigned?_trim_eq_some_iff {bound n : Nat} {value : String} :
    unsigned? bound (Text.trim value) = some n ↔ Reads bound value n := by
  rw [Text.trim, unsigned?_eq_some_iff]
  constructor
  · intro h
    obtain ⟨lead, trail, hsplit, hlead, htrail⟩ := Text.exists_trimBy Text.isBlank value.toList
    exact ⟨lead, _, trail, hsplit, hlead, htrail, h⟩
  · rintro ⟨lead, numeral, trail, hsplit, hlead, htrail, h⟩
    rwa [hsplit, Text.trimBy_append hlead htrail h.edges.1 h.edges.2]

end Numeral

/-! ## What variables say -/

namespace Settings
open Numeral (Reads values16 values32 values64)

variable {lookup : Lookup} {bound : Nat} {key value : String} {cause : ConfigError}

/-- A variable has this value, and it is not blank. -/
def Lookup.IsSet (lookup : Lookup) (key value : String) : Prop :=
  lookup key = some value ∧ Text.isBlankText value = false

theorem Lookup.value?_eq_some_iff : lookup.value? key = some value ↔ lookup.IsSet key value := by
  simp [Lookup.value?, Lookup.IsSet, Option.filter_eq_some_iff]

theorem Lookup.value?_eq_none_iff :
    lookup.value? key = none ↔ ∀ value, ¬lookup.IsSet key value := by
  simp only [Option.eq_none_iff_forall_ne_some, ne_eq, value?_eq_some_iff]

theorem Lookup.IsSet.unique {value' : String} (h : lookup.IsSet key value)
    (h' : lookup.IsSet key value') : value' = value :=
  Option.some.inj (h'.1.symm.trans h.1)

/-- A setting is what its variable means, or the default if the variable is unset or blank. -/
def Lookup.Gives {α : Type} (lookup : Lookup) (key : String) (means : String → α → Prop)
    (default v : α) : Prop :=
  (∃ value, lookup.IsSet key value ∧ means value v) ∨
    (∀ value, ¬lookup.IsSet key value) ∧ v = default

section
variable {α : Type} {means : String → α → Prop} {default v : α}

theorem Lookup.gives_of_isSet (h : lookup.IsSet key value) :
    lookup.Gives key means default v ↔ means value v := by
  constructor
  · rintro (⟨value', h', hv⟩ | ⟨hno, -⟩)
    · exact h.unique h' ▸ hv
    · exact absurd h (hno value)
  · exact fun hv => .inl ⟨value, h, hv⟩

theorem Lookup.gives_of_unset (h : ∀ value, ¬lookup.IsSet key value) :
    lookup.Gives key means default v ↔ v = default := by
  constructor
  · rintro (⟨value, hset, -⟩ | ⟨-, hv⟩)
    · exact absurd hset (h value)
    · exact hv
  · exact fun hv => .inr ⟨h, hv⟩

end

/-! What a text means is itself. -/

def Verbatim (value text : String) : Prop := text = value

def VerbatimText (value : String) (text : Option String) : Prop := text = some value

theorem Lookup.eq_getD_iff {default v : String} :
    v = (lookup.value? key).getD default ↔ lookup.Gives key Verbatim default v := by
  cases h : lookup.value? key with
  | none => rw [gives_of_unset (value?_eq_none_iff.mp h), Option.getD_none]
  | some value => rw [gives_of_isSet (value?_eq_some_iff.mp h), Option.getD_some, Verbatim]

theorem Lookup.eq_value?_iff {v : Option String} :
    v = lookup.value? key ↔ lookup.Gives key VerbatimText none v := by
  cases h : lookup.value? key with
  | none => rw [gives_of_unset (value?_eq_none_iff.mp h)]
  | some value => rw [gives_of_isSet (value?_eq_some_iff.mp h), VerbatimText]

/-- What is said of a value that should have been a number. -/
def notANumber (key value : String) : ConfigError :=
  .invalidValue key ("expected a number, got '" ++ value ++ "'")

theorem number_eq_ok_iff {n : Nat} : number bound key value = .ok n ↔ Reads bound value n := by
  rw [← Numeral.unsigned?_trim_eq_some_iff, number]
  cases Numeral.unsigned? bound (Text.trim value) <;> simp

theorem number_eq_error_iff : number bound key value = .error cause ↔
    (∀ n, ¬Reads bound value n) ∧ cause = notANumber key value := by
  simp only [← Numeral.unsigned?_trim_eq_some_iff, number, notANumber]
  cases Numeral.unsigned? bound (Text.trim value) <;> simp [eq_comm]

/-- A variable that holds a number, and how many values its word has. -/
structure NumberVariable where
  key : String
  bound : Nat

/-- They are read in this order. -/
def numberVariables : List NumberVariable := [
  ⟨"RELAY_DEBOUNCE_MS", values64⟩, ⟨"RELAY_RETRY_MAX_ATTEMPTS", values32⟩,
  ⟨"RELAY_RETRY_BASE_MS", values64⟩, ⟨"RELAY_RETRY_MAX_MS", values64⟩,
  ⟨"RELAY_HISTORY_LIMIT", values64⟩, ⟨"RELAY_HTTP_PORT", values16⟩]

/-- The variable has this value, which is not blank and no number of its word. -/
def Lookup.Garbles (lookup : Lookup) (v : NumberVariable) (value : String) : Prop :=
  lookup.IsSet v.key value ∧ ∀ n, ¬Reads v.bound value n

theorem Lookup.number_eq_ok_iff {default n : Nat} : lookup.number bound key default = .ok n ↔
    lookup.Gives key (Reads bound) default n := by
  unfold Lookup.number
  split
  · next value h => rw [gives_of_isSet (value?_eq_some_iff.mp h), Settings.number_eq_ok_iff]
  · next h => rw [gives_of_unset (value?_eq_none_iff.mp h), Except.ok.injEq, eq_comm]

theorem Lookup.number_eq_error_iff {default : Nat} :
    lookup.number bound key default = .error cause ↔
      ∃ value, lookup.Garbles ⟨key, bound⟩ value ∧ cause = notANumber key value := by
  unfold Lookup.number
  split
  · next value h =>
    have hset := value?_eq_some_iff.mp h
    rw [Settings.number_eq_error_iff]
    constructor
    · rintro ⟨hno, hcause⟩
      exact ⟨value, ⟨hset, hno⟩, hcause⟩
    · rintro ⟨value', ⟨hset', hno⟩, hcause⟩
      obtain rfl := hset.unique hset'
      exact ⟨hno, hcause⟩
  · next h =>
    simp only [reduceCtorEq, false_iff, not_exists, not_and]
    exact fun value hgarbled => absurd hgarbled.1 (value?_eq_none_iff.mp h value)

def MeansPort (value : String) (port : Option Nat) : Prop :=
  ∃ n, Reads values16 value n ∧ port = some n

theorem Lookup.number?_eq_ok_iff {port : Option Nat} : lookup.number? values16 key = .ok port ↔
    lookup.Gives key MeansPort none port := by
  unfold Lookup.number?
  split
  · next value h =>
    rw [gives_of_isSet (value?_eq_some_iff.mp h), MeansPort]
    simp only [← @Settings.number_eq_ok_iff values16 key value]
    cases Settings.number values16 key value <;> simp [Functor.map, Except.map, eq_comm]
  · next h => rw [gives_of_unset (value?_eq_none_iff.mp h), Except.ok.injEq, eq_comm]

theorem Lookup.number?_eq_error_iff : lookup.number? bound key = .error cause ↔
    ∃ value, lookup.Garbles ⟨key, bound⟩ value ∧ cause = notANumber key value := by
  rw [← @number_eq_error_iff lookup bound key cause 0, Lookup.number?, Lookup.number]
  split
  · next value h => cases Settings.number bound key value <;> simp [Functor.map, Except.map]
  · simp

/-! ## The first complaint -/

def IsFirst {α : Type} (xs : List α) (p : α → Prop) (x : α) : Prop :=
  ∃ before after, xs = before ++ x :: after ∧ (∀ y ∈ before, ¬p y) ∧ p x

section
variable {α : Type} {p q : α → Prop}

theorem IsFirst.mem {x : α} {xs : List α} (h : IsFirst xs p x) : x ∈ xs := by
  obtain ⟨before, after, rfl, -⟩ := h
  simp

theorem IsFirst.holds {x : α} {xs : List α} (h : IsFirst xs p x) : p x := by
  obtain ⟨before, after, -, -, hx⟩ := h
  exact hx

theorem isFirst_cons {a x : α} {xs : List α} :
    IsFirst (a :: xs) p x ↔ p a ∧ x = a ∨ ¬p a ∧ IsFirst xs p x := by
  constructor
  · rintro ⟨_ | ⟨b, before⟩, after, hsplit, hbefore, hx⟩
    · obtain ⟨rfl, rfl⟩ := List.cons.inj hsplit
      exact .inl ⟨hx, rfl⟩
    · obtain ⟨rfl, rfl⟩ := List.cons.inj hsplit
      obtain ⟨hb, hbefore⟩ := List.forall_mem_cons.mp hbefore
      exact .inr ⟨hb, before, after, rfl, hbefore, hx⟩
  · rintro (⟨hx, rfl⟩ | ⟨ha, before, after, rfl, hbefore, hx⟩)
    · exact ⟨[], xs, rfl, by simp, hx⟩
    · exact ⟨a :: before, after, rfl, List.forall_mem_cons.mpr ⟨ha, hbefore⟩, hx⟩

theorem exists_isFirst_cons {a : α} {xs : List α} : (∃ x, IsFirst (a :: xs) p x ∧ q x) ↔
    p a ∧ q a ∨ ¬p a ∧ ∃ x, IsFirst xs p x ∧ q x := by
  simp only [isFirst_cons, or_and_right, exists_or, and_assoc, exists_and_left, exists_eq_left]

/-- Where the property holds of something, it holds of a first one. -/
theorem exists_isFirst {xs : List α} (h : ∃ x ∈ xs, p x) : ∃ x, IsFirst xs p x := by
  induction xs with
  | nil => simp at h
  | cons a xs ih =>
    by_cases ha : p a
    · exact ⟨a, isFirst_cons.mpr (.inl ⟨ha, rfl⟩)⟩
    · obtain ⟨x, hx, hpx⟩ := h
      have hmem : x ∈ xs := (List.mem_cons.mp hx).resolve_left fun heq => ha (heq ▸ hpx)
      obtain ⟨y, hy⟩ := ih ⟨x, hmem, hpx⟩
      exact ⟨y, isFirst_cons.mpr (.inr ⟨ha, hy⟩)⟩

theorem not_exists_isFirst_nil : ¬∃ x, IsFirst ([] : List α) p x ∧ q x := by
  rintro ⟨x, ⟨before, after, hsplit, -⟩, -⟩
  simp at hsplit

end

/-! ## Reading all variables -/

/-- A computation fails with the complaint about the first of the variables whose value should be a
number and is none, and only with that. -/
def Lookup.Reports {α : Type} (lookup : Lookup) (vs : List NumberVariable)
    (x : Except ConfigError α) : Prop :=
  ∀ cause, x = .error cause ↔
    ∃ v, IsFirst vs (fun v => ∃ value, lookup.Garbles v value) v ∧
      ∃ value, lookup.Garbles v value ∧ cause = notANumber v.key value

theorem Lookup.Reports.pure {α : Type} (a : α) : lookup.Reports [] (.ok a) := by
  intro cause
  simp [not_exists_isFirst_nil]

/-- A number is read before all that comes behind it. -/
theorem Lookup.Reports.bind {α β : Type} {v : NumberVariable} {vs : List NumberVariable}
    {x : Except ConfigError α} {f : α → Except ConfigError β}
    (hx : ∀ {cause}, x = .error cause ↔
      ∃ value, lookup.Garbles v value ∧ cause = notANumber v.key value)
    (hf : ∀ a, lookup.Reports vs (f a)) : lookup.Reports (v :: vs) (x >>= f) := by
  intro cause
  rw [exists_isFirst_cons]
  cases h : x with
  | error e =>
    -- the variable has one value only, and so there is one complaint about it
    obtain ⟨value, hgarbled, rfl⟩ := hx.mp h
    have hvalue : ∀ {value'}, lookup.Garbles v value' → value' = value :=
      fun h' => hgarbled.1.unique h'.1
    change Except.error _ = _ ↔ _
    constructor
    · intro hcause
      exact .inl ⟨⟨value, hgarbled⟩, value, hgarbled, (Except.error.inj hcause).symm⟩
    · rintro (⟨-, value', h', rfl⟩ | ⟨hno, -⟩)
      · rw [hvalue h']
      · exact absurd ⟨value, hgarbled⟩ hno
  | ok a =>
    have hread : ¬∃ value, lookup.Garbles v value := by
      rintro ⟨value, hgarbled⟩
      have := hx.mpr ⟨value, hgarbled, rfl⟩
      rw [h] at this
      cases this
    change f a = _ ↔ _
    rw [hf a cause]
    exact ⟨fun hlater => .inr ⟨hread, hlater⟩, fun h => h.elim (fun h => absurd h.1 hread) (·.2)⟩

theorem reports_read (lookup : Lookup) : lookup.Reports numberVariables (read lookup) :=
  .bind Lookup.number_eq_error_iff fun _ => .bind Lookup.number_eq_error_iff fun _ =>
    .bind Lookup.number_eq_error_iff fun _ => .bind Lookup.number_eq_error_iff fun _ =>
      .bind Lookup.number_eq_error_iff fun _ => .bind Lookup.number?_eq_error_iff fun _ => .pure _

/-- The settings as the variables give them, each by itself. -/
structure Lookup.Describes (lookup : Lookup) (s : Settings) : Prop where
  debounce : lookup.Gives "RELAY_DEBOUNCE_MS" (Reads values64) standard.debounceMillis
    s.debounceMillis
  maxAttempts : lookup.Gives "RELAY_RETRY_MAX_ATTEMPTS" (Reads values32) standard.retry.maxAttempts
    s.retry.maxAttempts
  baseMillis : lookup.Gives "RELAY_RETRY_BASE_MS" (Reads values64) standard.retry.baseMillis
    s.retry.baseMillis
  maxMillis : lookup.Gives "RELAY_RETRY_MAX_MS" (Reads values64) standard.retry.maxMillis
    s.retry.maxMillis
  historyLimit : lookup.Gives "RELAY_HISTORY_LIMIT" (Reads values64) standard.historyLimit
    s.historyLimit
  httpPort : lookup.Gives "RELAY_HTTP_PORT" MeansPort none s.httpPort
  primaryChannel : lookup.Gives "RELAY_PRIMARY_CHANNEL" Verbatim standard.primaryChannel
    s.primaryChannel
  systemPrompt : lookup.Gives "RELAY_SYSTEM_PROMPT" Verbatim standard.systemPrompt s.systemPrompt
  fallbackMessage : lookup.Gives "RELAY_FALLBACK_MESSAGE" Verbatim standard.fallbackMessage
    s.fallbackMessage
  databasePath : lookup.Gives "RELAY_DB_PATH" VerbatimText none s.databasePath
  model : lookup.Gives "RELAY_MODEL" Verbatim standard.model s.model
  mentionName : lookup.Gives "RELAY_MENTION_NAME" VerbatimText none s.mentionName

theorem read_eq_ok_iff_describes {s : Settings} : read lookup = .ok s ↔ lookup.Describes s := by
  rw [read_eq_ok_iff]
  simp only [Lookup.number_eq_ok_iff, Lookup.number?_eq_ok_iff, Lookup.eq_getD_iff,
    Lookup.eq_value?_iff]
  constructor
  · rintro ⟨h1, h2, h3, h4, h5, h6, h7, h8, h9, h10, h11, h12⟩
    exact ⟨h1, h2, h3, h4, h5, h6, h7, h8, h9, h10, h11, h12⟩
  · rintro ⟨h1, h2, h3, h4, h5, h6, h7, h8, h9, h10, h11, h12⟩
    exact ⟨h1, h2, h3, h4, h5, h6, h7, h8, h9, h10, h11, h12⟩

/-- Whatever the variables hold, they describe settings exactly if each number can be read. -/
theorem Lookup.exists_describes_iff :
    (∃ s, lookup.Describes s) ↔ ∀ v ∈ numberVariables, ∀ value, ¬lookup.Garbles v value := by
  simp only [← read_eq_ok_iff_describes]
  constructor
  · rintro ⟨s, hs⟩ v hv value hgarbled
    obtain ⟨u, hu⟩ :=
      exists_isFirst (p := fun v => ∃ value, lookup.Garbles v value) ⟨v, hv, value, hgarbled⟩
    obtain ⟨value', h'⟩ := hu.holds
    have := (reports_read lookup _).mpr ⟨u, hu, value', h', rfl⟩
    rw [hs] at this
    cases this
  · intro hall
    cases h : read lookup with
    | ok s => exact ⟨s, rfl⟩
    | error cause =>
      obtain ⟨v, hfirst, value, hgarbled, -⟩ := (reports_read lookup _).mp h
      exact absurd hgarbled (hall v hfirst.mem value)

/-! ## Texts -/

def texts (s : Settings) : List String :=
  [s.primaryChannel, s.systemPrompt, s.fallbackMessage, s.model] ++ s.databasePath.toList ++
    s.mentionName.toList

theorem Lookup.Gives.notBlank {default text : String} (h : lookup.Gives key Verbatim default text)
    (hdefault : Text.isBlankText default = false) : Text.isBlankText text = false := by
  rcases h with ⟨value, hset, rfl⟩ | ⟨-, rfl⟩
  · exact hset.2
  · exact hdefault

theorem Lookup.Gives.notBlank_of_mem {text : Option String}
    (h : lookup.Gives key VerbatimText none text) {t : String} (ht : t ∈ text.toList) :
    Text.isBlankText t = false := by
  rcases h with ⟨value, hset, rfl⟩ | ⟨-, rfl⟩
  · obtain rfl := List.mem_singleton.mp ht
    exact hset.2
  · cases ht

theorem notBlank_append {s t : String} (h : Text.isBlankText s = false) :
    Text.isBlankText (s ++ t) = false := by
  have hs : s.toList.all Text.isBlank = false := h
  rw [Text.isBlankText, String.toList_append, List.all_append, hs, Bool.false_and]

theorem Lookup.Describes.texts_notBlank {s : Settings} (h : lookup.Describes s) :
    ∀ t ∈ s.texts, Text.isBlankText t = false := by
  simp only [texts, List.mem_append, List.mem_cons, List.not_mem_nil, or_false]
  rintro t (((rfl | rfl | rfl | rfl) | ht) | ht)
  · exact h.primaryChannel.notBlank (by decide)
  · exact h.systemPrompt.notBlank (notBlank_append (notBlank_append (by decide)))
  · exact h.fallbackMessage.notBlank (by decide)
  · exact h.model.notBlank (by decide)
  · exact h.databasePath.notBlank_of_mem ht
  · exact h.mentionName.notBlank_of_mem ht

/-! ## Constraints -/

/-- What the values have to satisfy, and the variable and the words of the complaint otherwise. -/
structure Constraint where
  key : String
  reason : String
  Holds : Settings → Prop

/-- They are checked in this order. -/
def constraints : List Constraint := [
  ⟨"RELAY_DEBOUNCE_MS", "must be > 0", fun s => 0 < s.debounceMillis⟩,
  ⟨"RELAY_RETRY_MAX_ATTEMPTS", "must be >= 1", fun s => 1 ≤ s.retry.maxAttempts⟩,
  ⟨"RELAY_RETRY_BASE_MS", "must not exceed RELAY_RETRY_MAX_MS",
    fun s => s.retry.baseMillis ≤ s.retry.maxMillis⟩,
  ⟨"RELAY_HTTP_PORT", "must be > 0", fun s => ∀ port, s.httpPort = some port → 0 < port⟩]

theorem ite_some_eq_some_iff {α : Type} {c : Prop} [Decidable c] {a b : α} {x : Option α} :
    (if c then some a else x) = some b ↔ c ∧ b = a ∨ ¬c ∧ x = some b := by
  by_cases hc : c <;> simp [hc, eq_comm]

/-- Settings whose channel has a name are refused for the first constraint that they violate. -/
theorem violation?_eq_some_iff {s : Settings}
    (hchannel : Text.isBlankText s.primaryChannel = false) :
    s.violation? = some cause ↔ ∃ c, IsFirst constraints (fun c => ¬c.Holds s) c ∧
      cause = .invalidValue c.key c.reason := by
  have hdebounce : s.debounceMillis = 0 ↔ ¬0 < s.debounceMillis := by omega
  have hattempts : s.retry.maxAttempts = 0 ↔ ¬1 ≤ s.retry.maxAttempts := by omega
  have hport : s.httpPort = some 0 ↔ ¬∀ port, s.httpPort = some port → 0 < port := by
    cases s.httpPort <;> simp
  simp only [violation?, hchannel, Bool.false_eq_true, if_false, ite_some_eq_some_iff, hdebounce,
    hattempts, hport, ← Nat.not_le, reduceCtorEq, constraints, exists_isFirst_cons,
    not_exists_isFirst_nil]

theorem violation?_eq_none_iff {s : Settings}
    (hchannel : Text.isBlankText s.primaryChannel = false) :
    s.violation? = none ↔ ∀ c ∈ constraints, c.Holds s := by
  rw [Option.eq_none_iff_forall_ne_some]
  constructor
  · intro hnone c hc
    by_contra hno
    obtain ⟨d, hd⟩ := exists_isFirst (p := fun c => ¬c.Holds s) ⟨c, hc, hno⟩
    exact hnone _ ((violation?_eq_some_iff hchannel).mpr ⟨d, hd, rfl⟩)
  · intro hall cause hcause
    obtain ⟨c, hfirst, -⟩ := (violation?_eq_some_iff hchannel).mp hcause
    exact hfirst.holds (hall c hfirst.mem)

theorem ofLookup_eq_error_iff : ofLookup lookup = .error cause ↔
    read lookup = .error cause ∨ ∃ s, read lookup = .ok s ∧ s.violation? = some cause := by
  rw [ofLookup]
  cases h : read lookup with
  | error e => simp [bind, Except.bind]
  | ok s =>
    cases hv : s.violation? <;>
      simp [bind, Except.bind, hv, pure, Except.pure, throw, throwThe, MonadExceptOf.throw]

theorem Lookup.Describes.channel_notBlank {s : Settings} (h : lookup.Describes s) :
    Text.isBlankText s.primaryChannel = false :=
  h.texts_notBlank _ (by simp [texts])

theorem Lookup.Describes.unique {s t : Settings} (hs : lookup.Describes s)
    (ht : lookup.Describes t) : s = t := by
  rw [← read_eq_ok_iff_describes] at hs ht
  exact Except.ok.inj (hs.symm.trans ht)

/-- Where nothing is set, everything is as by default, and the defaults pass all checks. -/
theorem ofLookup_of_unset (h : ∀ key ∈ variableNames, ∀ value, ¬lookup.IsSet key value) :
    ofLookup lookup = .ok standard := by
  have hunset {α : Type} {means : String → α → Prop} {default : α} {key : String}
      (hkey : key ∈ variableNames) : lookup.Gives key means default default :=
    .inr ⟨h key hkey, rfl⟩
  have hstandard : lookup.Describes standard := by
    constructor <;> exact hunset (by decide)
  rw [ofLookup_eq_ok_iff, read_eq_ok_iff_describes]
  exact ⟨hstandard, by decide⟩

/-- Settings are accepted exactly when all numbers that are set can be read, so that the variables
describe settings, and these keep to all constraints; what is accepted is what the variables
describe, and none of its texts is blank. Otherwise the complaint is about the first number that
cannot be read or, if all can, about the first constraint that is violated; it is never about the
channel. -/
theorem accepted_or_first_complaint (lookup : Lookup) :
    ((∀ v ∈ numberVariables, ∀ value, ¬lookup.Garbles v value) ↔ ∃! s, lookup.Describes s) ∧
    (∀ s, ofLookup lookup = .ok s ↔ lookup.Describes s ∧ ∀ c ∈ constraints, c.Holds s) ∧
    (∀ s, ofLookup lookup = .ok s → ∀ t ∈ s.texts, Text.isBlankText t = false) ∧
    (∀ cause, ofLookup lookup = .error cause ↔
      (∃ v, IsFirst numberVariables (fun v => ∃ value, lookup.Garbles v value) v ∧
        ∃ value, lookup.Garbles v value ∧ cause = notANumber v.key value) ∨
      ∃ s, lookup.Describes s ∧ ∃ c, IsFirst constraints (fun c => ¬c.Holds s) c ∧
        cause = .invalidValue c.key c.reason) ∧
    ∀ reason, ofLookup lookup ≠ .error (.invalidValue "RELAY_PRIMARY_CHANNEL" reason) := by
  have hok : ∀ s, ofLookup lookup = .ok s ↔
      lookup.Describes s ∧ ∀ c ∈ constraints, c.Holds s := fun s => by
    rw [ofLookup_eq_ok_iff, read_eq_ok_iff_describes]
    exact and_congr_right fun h => violation?_eq_none_iff h.channel_notBlank
  have herror : ∀ cause, ofLookup lookup = .error cause ↔
      (∃ v, IsFirst numberVariables (fun v => ∃ value, lookup.Garbles v value) v ∧
        ∃ value, lookup.Garbles v value ∧ cause = notANumber v.key value) ∨
      ∃ s, lookup.Describes s ∧ ∃ c, IsFirst constraints (fun c => ¬c.Holds s) c ∧
        cause = .invalidValue c.key c.reason := fun cause => by
    simp only [ofLookup_eq_error_iff, read_eq_ok_iff_describes]
    refine or_congr (reports_read lookup cause) (exists_congr fun s => and_congr_right fun h => ?_)
    exact violation?_eq_some_iff h.channel_notBlank
  refine ⟨?_, hok, fun s hs => ((hok s).mp hs).1.texts_notBlank, herror, fun reason h => ?_⟩
  · rw [← Lookup.exists_describes_iff]
    exact ⟨fun ⟨s, hs⟩ => ⟨s, hs, fun t ht => ht.unique hs⟩, fun ⟨s, hs, _⟩ => ⟨s, hs⟩⟩
  · have hnumber : ∀ v ∈ numberVariables, "RELAY_PRIMARY_CHANNEL" ≠ v.key := by decide
    have hconstraint : ∀ c ∈ constraints, "RELAY_PRIMARY_CHANNEL" ≠ c.key := by
      simp [constraints]
    rcases (herror _).mp h with ⟨v, hfirst, value, -, hcause⟩ | ⟨s, -, c, hfirst, hcause⟩
    · exact hnumber v hfirst.mem (ConfigError.invalidValue.inj hcause).1
    · exact hconstraint c hfirst.mem (ConfigError.invalidValue.inj hcause).1

/-- Two delays are set and the limit of the history, and nothing else. -/
def delays (base longest limit : String) : Lookup
  | "RELAY_RETRY_BASE_MS" => some base
  | "RELAY_RETRY_MAX_MS" => some longest
  | "RELAY_HISTORY_LIMIT" => some limit
  | _ => none

/-- A base beyond the longest delay by default is refused, unless a longer one is set with it; what
cannot be read is complained about first. -/
theorem delays_answered :
    ofLookup (delays " +60000 " "60000" "") =
        .ok { standard with retry := ⟨3, 60000, 60000⟩ } ∧
      ofLookup (delays " +60000 " " " "7") = .error (.invalidValue "RELAY_RETRY_BASE_MS"
        "must not exceed RELAY_RETRY_MAX_MS") ∧
      ofLookup (delays "60000" "1.5" "many") = .error (.invalidValue "RELAY_RETRY_MAX_MS"
        "expected a number, got '1.5'") := by
  refine ⟨?_, ?_, ?_⟩
  · obtain ⟨-, hok, -⟩ := accepted_or_first_complaint (delays " +60000 " "60000" "")
    refine (hok _).mpr ⟨read_eq_ok_iff_describes.mp (by decide +kernel), ?_⟩
    simp [constraints, standard]
  · obtain ⟨-, -, -, herror, -⟩ := accepted_or_first_complaint (delays " +60000 " " " "7")
    have hdescribes : (delays " +60000 " " " "7").Describes
        { standard with retry := ⟨3, 60000, 30000⟩, historyLimit := 7 } :=
      read_eq_ok_iff_describes.mp (by decide +kernel)
    have hfirst : IsFirst constraints (fun c => ¬c.Holds
        { standard with retry := ⟨3, 60000, 30000⟩, historyLimit := 7 }) _ :=
      ⟨constraints.take 2, constraints.drop 3, rfl, by simp [constraints, standard], by simp⟩
    exact (herror _).mpr (.inr ⟨_, hdescribes, _, hfirst, rfl⟩)
  · obtain ⟨-, -, -, herror, -⟩ := accepted_or_first_complaint (delays "60000" "1.5" "many")
    have hgarbled :
        (delays "60000" "1.5" "many").Garbles ⟨"RELAY_RETRY_MAX_MS", values64⟩ "1.5" := by
      refine ⟨⟨rfl, by decide⟩, fun n h => ?_⟩
      have hnone : Numeral.unsigned? values64 (Text.trim "1.5") = none := by decide
      rw [← Numeral.unsigned?_trim_eq_some_iff, hnone] at h
      cases h
    have hbefore : ∀ v ∈ numberVariables.take 3,
        ¬∃ value, (delays "60000" "1.5" "many").Garbles v value := by
      rintro v hv ⟨value, h⟩
      have hread : ∀ v ∈ numberVariables.take 3,
          ((delays "60000" "1.5" "many").number v.bound v.key 0).isOk := by decide +kernel
      have := hread v hv
      rw [(@Lookup.number_eq_error_iff _ v.bound v.key _ 0).mpr ⟨value, h, rfl⟩] at this
      cases this
    refine (herror _).mpr (.inl ⟨_, ⟨_, numberVariables.drop 4, rfl, hbefore, _, hgarbled⟩, ?_⟩)
    exact ⟨_, hgarbled, rfl⟩

end Settings
end ChatRelay
