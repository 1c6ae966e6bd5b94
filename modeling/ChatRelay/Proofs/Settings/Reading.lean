import ChatRelay.Proofs.Json.ReadBack
import ChatRelay.Proofs.Text.Gaps
import ChatRelay.Settings

/-!
# Reading settings

Settings are read from variables one by one; each number that is read is below the bound of its
word. A number that is written in digits is read back, so every retry policy whose numbers fit their
words and keep to the constraints comes from some settings, and no other does.
-/

namespace ChatRelay

namespace Numeral

theorem lt_of_unsigned? {bound n : Nat} {s : String} (h : unsigned? bound s = some n) :
    n < bound := by
  simpa using (Option.filter_eq_some_iff.mp h).2

theorem natural?_digits (n : Nat) : natural? (digits n) = some n := by
  obtain ⟨c, ds, hc, -⟩ := Json.digits_eq_cons n
  have hne : (digits n).isEmpty = false := by simp [hc]
  have hall : (digits n).all Char.isDigit = true := by
    simpa using Json.isDigit_of_mem_digits n
  simp [natural?, hne, hall, Json.ofDigits_digits]

theorem unsigned?_naturalText {bound n : Nat} (h : n < bound) :
    unsigned? bound (naturalText n) = some n := by
  have hsign : ∀ rest, digits n ≠ '+' :: rest := by
    intro rest hrest
    have hdigit := Json.isDigit_of_mem_digits n '+' (by simp [hrest])
    exact absurd hdigit (by decide)
  simp [unsigned?, naturalText, natural?_digits, h]

theorem isBlank_of_isDigit {c : Char} (h : c.isDigit) : Text.isBlank c = false := by
  have hrange : 48 ≤ c.toNat ∧ c.toNat ≤ 57 := by
    simpa [Char.isDigit, UInt32.le_iff_toNat_le] using h
  simp only [Text.isBlank, Bool.or_eq_false_iff, Bool.and_eq_false_iff, decide_eq_false_iff_not,
    beq_eq_false_iff_ne]
  omega

theorem not_blank_of_mem_digits (n : Nat) : ∀ c ∈ digits n, Text.isBlank c = false :=
  fun c hc => isBlank_of_isDigit (Json.isDigit_of_mem_digits n c hc)

theorem trim_naturalText (n : Nat) : Text.trim (naturalText n) = naturalText n := by
  have hblank := not_blank_of_mem_digits n
  rw [Text.trim, naturalText, String.toList_ofList, Text.trimBy_eq_self]
  · exact fun c hc => hblank c (List.mem_of_head? hc)
  · exact fun c hc => hblank c (List.mem_of_getLast? hc)

theorem isBlankText_naturalText (n : Nat) : Text.isBlankText (naturalText n) = false := by
  obtain ⟨c, ds, hc, -⟩ := Json.digits_eq_cons n
  have hblank := not_blank_of_mem_digits n c (by simp [hc])
  simp [Text.isBlankText, naturalText, hc, hblank]

end Numeral

/-! ## Numbers under keys -/

namespace Settings
variable {lookup : Lookup} {bound : Nat} {key : String}

theorem number_lt {value : String} {n : Nat} (h : number bound key value = .ok n) : n < bound := by
  unfold number at h
  split at h
  · next hread => exact Except.ok.inj h ▸ Numeral.lt_of_unsigned? hread
  · cases h

/-- What a number is read as fits its word if the default does. -/
theorem Lookup.number_lt {default n : Nat} (hdefault : default < bound)
    (h : lookup.number bound key default = .ok n) : n < bound := by
  unfold Lookup.number at h
  split at h
  · exact Settings.number_lt h
  · exact Except.ok.inj h ▸ hdefault

theorem Lookup.number_unset {default : Nat} (h : lookup key = none) :
    lookup.number bound key default = .ok default := by
  simp [Lookup.number, Lookup.value?, h]

theorem Lookup.number_digits {default n : Nat} (h : lookup key = some (Numeral.naturalText n))
    (hn : n < bound) : lookup.number bound key default = .ok n := by
  have hvalue : lookup.value? key = some (Numeral.naturalText n) := by
    rw [Lookup.value?, h, Option.filter_some, Numeral.isBlankText_naturalText]
    rfl
  simp only [Lookup.number, hvalue, Settings.number, Numeral.trim_naturalText,
    Numeral.unsigned?_naturalText hn]

theorem bind_eq_ok_iff {ε α β : Type} {x : Except ε α} {f : α → Except ε β} {b : β} :
    x >>= f = .ok b ↔ ∃ a, x = .ok a ∧ f a = .ok b := by
  cases x <;> simp [bind, Except.bind]

theorem read_eq_ok_iff {s : Settings} : read lookup = .ok s ↔
    lookup.number Numeral.values64 "RELAY_DEBOUNCE_MS" standard.debounceMillis =
        .ok s.debounceMillis ∧
      lookup.number Numeral.values32 "RELAY_RETRY_MAX_ATTEMPTS" standard.retry.maxAttempts =
        .ok s.retry.maxAttempts ∧
      lookup.number Numeral.values64 "RELAY_RETRY_BASE_MS" standard.retry.baseMillis =
        .ok s.retry.baseMillis ∧
      lookup.number Numeral.values64 "RELAY_RETRY_MAX_MS" standard.retry.maxMillis =
        .ok s.retry.maxMillis ∧
      lookup.number Numeral.values64 "RELAY_HISTORY_LIMIT" standard.historyLimit =
        .ok s.historyLimit ∧
      lookup.number? Numeral.values16 "RELAY_HTTP_PORT" = .ok s.httpPort ∧
      s.primaryChannel = (lookup.value? "RELAY_PRIMARY_CHANNEL").getD standard.primaryChannel ∧
      s.systemPrompt = (lookup.value? "RELAY_SYSTEM_PROMPT").getD standard.systemPrompt ∧
      s.fallbackMessage = (lookup.value? "RELAY_FALLBACK_MESSAGE").getD standard.fallbackMessage ∧
      s.databasePath = lookup.value? "RELAY_DB_PATH" ∧
      s.model = (lookup.value? "RELAY_MODEL").getD standard.model ∧
      s.mentionName = lookup.value? "RELAY_MENTION_NAME" := by
  simp only [read, bind_eq_ok_iff, pure, Except.pure, Except.ok.injEq]
  constructor
  · rintro ⟨_, h1, _, h2, _, h3, _, h4, _, h5, _, h6, rfl⟩
    exact ⟨h1, h2, h3, h4, h5, h6, rfl, rfl, rfl, rfl, rfl, rfl⟩
  · rintro ⟨h1, h2, h3, h4, h5, h6, h7, h8, h9, h10, h11, h12⟩
    refine ⟨_, h1, _, h2, _, h3, _, h4, _, h5, _, h6, ?_⟩
    rw [← h7, ← h8, ← h9, ← h10, ← h11, ← h12]

theorem ofLookup_eq_ok_iff {s : Settings} :
    ofLookup lookup = .ok s ↔ read lookup = .ok s ∧ s.violation? = none := by
  rw [ofLookup, bind_eq_ok_iff]
  constructor
  · rintro ⟨settings, hread, h⟩
    split at h
    · cases h
    · next hnone =>
      obtain rfl := Except.ok.inj h
      exact ⟨hread, hnone⟩
  · rintro ⟨hread, hnone⟩
    refine ⟨s, hread, ?_⟩
    rw [hnone]
    rfl

/-- The constraints on the numbers hold of what passes all checks. -/
theorem of_violation?_eq_none {s : Settings} (h : s.violation? = none) :
    s.debounceMillis ≠ 0 ∧ s.retry.maxAttempts ≠ 0 ∧ s.retry.baseMillis ≤ s.retry.maxMillis ∧
      Text.isBlankText s.primaryChannel = false ∧ s.httpPort ≠ some 0 := by
  unfold violation? at h
  split_ifs at h with h1 h2 h3 h4 h5
  exact ⟨h1, h2, Nat.not_lt.mp h3, Bool.eq_false_iff.mpr h4, h5⟩

end Settings

/-! ## Retry policies -/

/-- The policy comes from some settings. -/
def RetryPolicy.IsConfigured (p : RetryPolicy) : Prop :=
  ∃ lookup s, Settings.ofLookup lookup = .ok s ∧ s.retry = p

/-- Variables that hold the numbers of a policy, and nothing else. -/
def RetryPolicy.variables (p : RetryPolicy) : Settings.Lookup
  | "RELAY_RETRY_MAX_ATTEMPTS" => some (Numeral.naturalText p.maxAttempts)
  | "RELAY_RETRY_BASE_MS" => some (Numeral.naturalText p.baseMillis)
  | "RELAY_RETRY_MAX_MS" => some (Numeral.naturalText p.maxMillis)
  | _ => Option.none

theorem RetryPolicy.ofLookup_variables {p : RetryPolicy} (hpositive : 1 ≤ p.maxAttempts)
    (hattempts : p.maxAttempts < Numeral.values32) (hordered : p.baseMillis ≤ p.maxMillis)
    (hmax : p.maxMillis < Numeral.values64) :
    Settings.ofLookup p.variables = .ok { Settings.standard with retry := p } := by
  refine Settings.ofLookup_eq_ok_iff.mpr ⟨Settings.read_eq_ok_iff.mpr ⟨?_, ?_, ?_, ?_, ?_⟩, ?_⟩
  · exact Settings.Lookup.number_unset rfl
  · exact Settings.Lookup.number_digits rfl hattempts
  · exact Settings.Lookup.number_digits rfl (Nat.lt_of_le_of_lt hordered hmax)
  · exact Settings.Lookup.number_digits rfl hmax
  · exact ⟨Settings.Lookup.number_unset rfl, rfl, rfl, rfl, rfl, rfl, rfl, rfl⟩
  · have hzero : p.maxAttempts ≠ 0 := by omega
    have hchannel : Text.isBlankText "assistant" = false := by decide
    simp [Settings.violation?, Settings.standard, hzero, hordered, hchannel]

theorem RetryPolicy.isConfigured_iff {p : RetryPolicy} : p.IsConfigured ↔
    1 ≤ p.maxAttempts ∧ p.maxAttempts < Numeral.values32 ∧ p.baseMillis ≤ p.maxMillis ∧
      p.maxMillis < Numeral.values64 := by
  constructor
  · rintro ⟨lookup, s, hs, rfl⟩
    obtain ⟨hread, hviolation⟩ := Settings.ofLookup_eq_ok_iff.mp hs
    obtain ⟨-, hattempts, -, hmax, -⟩ := Settings.read_eq_ok_iff.mp hread
    obtain ⟨-, hpositive, hordered, -⟩ := Settings.of_violation?_eq_none hviolation
    exact ⟨Nat.one_le_iff_ne_zero.mpr hpositive, Settings.Lookup.number_lt (by decide) hattempts,
      hordered, Settings.Lookup.number_lt (by decide) hmax⟩
  · rintro ⟨hpositive, hattempts, hordered, hmax⟩
    exact ⟨p.variables, _, ofLookup_variables hpositive hattempts hordered hmax, rfl⟩

end ChatRelay
