import ChatRelay.Proofs.Conversation.Window

/-!
# Writes that break off

A database stores turns one statement at a time. When a statement fails, the turns before it have
been stored and stay, so that a conversation can end with a call that has no result.
-/

namespace ChatRelay

theorem Resolved.calls_of_last {before : List Turn} {t : Turn} (h : Resolved (before ++ [t]))
    (hrole : t.role = .assistant) : t.toolCalls = [] := by
  cases hcalls : t.toolCalls with
  | nil => rfl
  | cons c rest =>
    obtain ⟨result, hresult, -⟩ :=
      h.answered before.length t (by simp) hrole 0 c (by simp [hcalls])
    rw [List.getElem?_eq_none (by simp)] at hresult
    cases hresult

namespace Database

/-- A write succeeds if no statement of it fails. -/
theorem addRows_fails_iff (d : Database) (user : String) (failing : Option Nat)
    (turns : List Turn) :
    (addRows user turns failing d).2 = false ↔ ∃ k < turns.length, failing = some k := by
  induction turns generalizing failing d with
  | nil => simp [addRows]
  | cons t turns ih =>
    rcases failing with _ | _ | k
    · simpa [addRows] using ih (d.addPayload user t.encode) none
    · simp [addRows]
    · simpa [addRows] using ih (d.addPayload user t.encode) (some k)

/-- A write that fails leaves the turns before the statement that failed. The conversation is as it
was only if this is the first one; if it follows a call, that call stays without a result. -/
theorem failed_write_leaves_earlier_turns {d : Database} {user : String} {failing : Option Nat}
    {turns : List Turn} (h : (addRows user turns failing d).2 = false) :
    ∃ k < turns.length, failing = some k ∧
      (addRows user turns failing d).1.payloads user =
        d.payloads user ++ (turns.take k).map Turn.encode ∧
      ((addRows user turns failing d).1.payloads user = d.payloads user ↔ k = 0) ∧
      ∀ before asking, turns.take k = before ++ [asking] → asking.role = .assistant →
        asking.toolCalls ≠ [] → ¬Resolved (turns.take k) := by
  obtain ⟨k, hk, rfl⟩ := (addRows_fails_iff d user failing turns).mp h
  have hpayloads : (addRows user turns (some k) d).1.payloads user =
      d.payloads user ++ (turns.take k).map Turn.encode := by
    simp [payloads_addRows, storedBefore]
  refine ⟨k, hk, rfl, hpayloads, ?_, ?_⟩
  · have hnonempty : turns ≠ [] := List.ne_nil_of_length_pos (Nat.zero_lt_of_lt hk)
    simp [hpayloads, hnonempty]
  · intro before asking hlast hrole hcalls hresolved
    exact hcalls ((hlast ▸ hresolved).calls_of_last hrole)

end Database

end ChatRelay
