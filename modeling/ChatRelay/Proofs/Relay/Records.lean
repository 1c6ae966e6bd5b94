import ChatRelay.Proofs.Batch.Record
import ChatRelay.Proofs.Relay.Occurrences

/-!
# The records of the runs

Whatever happens to a relay, each of its runs goes by its record.
-/

namespace ChatRelay.Relay

def Transition.noted? (i : Nat) (t : Transition) : Option BatchRun.Entry :=
  match t.event with
  | .run j e => if j = i then t.before.runs[i]?.bind (·.noted? e) else none
  | _ => none

def record (i : Nat) : History → List BatchRun.Entry
  | [] => []
  | t :: h => record i h ++ (t.noted? i).toList

section
variable {σ : Type} [Store σ] [LawfulStore σ] {setup : Setup} {s₀ s : σ} {policy : RetryPolicy}
  {h : History} {relay : Relay}

/-- Runs go by their records, and a run that has not started has none. -/
theorem Occurs.records (ho : Occurs setup s₀ policy h s relay) (i : Nat) :
    (∀ {r : BatchRun}, relay.runs[i]? = some r → r.Records setup (record i h)) ∧
      (relay.runs[i]? = none → record i h = []) := by
  induction ho with
  | fresh => exact ⟨by simp [Relay.fresh], fun _ => rfl⟩
  | @step h s relay e ho ih =>
    obtain ⟨ih, ihnone⟩ := ih
    have hquiet : (∀ re, e ≠ .run i re) →
        record i (⟨relay, e, (relay.step setup s e).2⟩ :: h) = record i h := by
      intro he
      have hnone : Transition.noted? i ⟨relay, e, (relay.step setup s e).2⟩ = none := by
        unfold Transition.noted?
        split
        · next j re heq =>
          have hji : j ≠ i := fun hji => he re (hji ▸ heq)
          simp [hji]
        · rfl
      simp [record, hnone]
    constructor
    · intro r' hr'
      cases onward hr' with
      | @turned r re c he hr hc hs heq =>
        subst he heq
        have hentry : record i (⟨relay, .run i re, (relay.step setup s (.run i re)).2⟩ :: h) =
            record i h ++ (r.noted? re).toList := by
          simp [record, Transition.noted?, hr]
        rw [hentry]
        exact (BatchRun.turns_turn c (ho.steady hr) re).records (ho.steady hr) (ih hr)
      | stayed he hr => exact hquiet he ▸ ih hr
      | started payload attempt firing he hr heq =>
        rw [hquiet (he i), ihnone hr, heq]
        exact BatchRun.records_ofPayload ..
    · intro hnone
      have hold : relay.runs[i]? = none := by
        cases hr : relay.runs[i]? with
        | none => rfl
        | some r =>
          obtain ⟨r', hr', -⟩ := run_stays setup s ho.steady e hr
          rw [hr'] at hnone
          cases hnone
      have hentry : Transition.noted? i ⟨relay, e, (relay.step setup s e).2⟩ = none := by
        unfold Transition.noted?
        split <;> simp [hold]
      simp [record, ihnone hold, hentry]

end

end ChatRelay.Relay
