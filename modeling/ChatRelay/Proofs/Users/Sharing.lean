import ChatRelay.Proofs.Relay.Revocation
import ChatRelay.Proofs.Users.Runs
import ChatRelay.Proofs.Users.Bystanders

/-!
# A relay that users share

What is numbered for all users together is still somebody's: the firing of a run is one of its user,
and so is the request that it executes; a lease is that of one run, and a lock that of one dedup id.
This holds of every relay to which tasks come as those of tickets, whatever else happens.
-/

namespace ChatRelay.Relay
open Timer

/-- What goes without saying for a relay that users share. -/
structure Shared (relay : Relay) : Prop where
  queue : relay.queue.Sound
  apart : relay.queue.Apart
  ticketed : relay.Ticketed
  steady : relay.Steady
  leased : relay.Leased
  backed : relay.Backed
  course : ∃ es, relay.leases = Leases.course es
  housed : ∀ {i : Nat} {r : BatchRun} {g : Nat}, relay.runs[i]? = some r → r.firing = some g →
    ∃ f, relay.queue.firing? g = some f ∧ f.task.dedupId = Ticket.dedupId r.ticket.user
  addressed : ∀ {i : Nat} {r : BatchRun}, relay.runs[i]? = some r → r.Addressed

section
variable {σ : Type} [Store σ] (setup : Setup) (s : σ) {relay : Relay}

theorem apart_step (h : relay.queue.Apart) (e : Event) :
    (relay.step setup s e).2.queue.Apart := by
  rw [queue_step]
  cases relay.queueEvent? setup e with
  | none => exact h
  | some qe => exact h.step qe

theorem leases_course_step (h : ∃ es, relay.leases = Leases.course es) (e : Event) :
    ∃ es, (relay.step setup s e).2.leases = Leases.course es := by
  obtain ⟨es, hes⟩ := h
  rw [leases_step, hes]
  cases relay.leaseEvent? e with
  | none => exact ⟨es, rfl⟩
  | some le => exact ⟨es ++ [le], (Leases.course_concat es le).symm⟩

/-- A firing keeps its task. -/
theorem firing_stays {g : Nat} {f : Firing} (hf : relay.queue.firing? g = some f) (e : Event) :
    ∃ f', (relay.step setup s e).2.queue.firing? g = some f' ∧ f'.task = f.task := by
  rw [queue_step]
  cases relay.queueEvent? setup e with
  | none => exact ⟨f, hf, rfl⟩
  | some qe =>
    obtain ⟨p, hp, -⟩ := (Queue.changes_step relay.queue qe).follows hf
    exact ⟨_, hp, rfl⟩

variable [LawfulStore σ]

theorem Shared.housed_step (h : relay.Shared) {e : Event} {i : Nat} {r' : BatchRun} {g : Nat}
    (hr' : (relay.step setup s e).2.runs[i]? = some r') (hg : r'.firing = some g) :
    ∃ f, (relay.step setup s e).2.queue.firing? g = some f ∧
      f.task.dedupId = Ticket.dedupId r'.ticket.user := by
  have hstays : ∀ {r : BatchRun}, relay.runs[i]? = some r → r.firing = some g →
      r.ticket = r'.ticket → ∃ f, (relay.step setup s e).2.queue.firing? g = some f ∧
        f.task.dedupId = Ticket.dedupId r'.ticket.user := by
    intro r hr hfiring hticket
    obtain ⟨f, hf, hid⟩ := h.housed hr hfiring
    obtain ⟨f', hf', htask⟩ := firing_stays setup s hf e
    exact ⟨f', hf', by rw [htask, hid, hticket]⟩
  cases onward hr' with
  | @turned r re c he hr hc hs heq =>
    subst heq
    have hturn : r.Turns setup s re _ _ := BatchRun.turns_turn c (h.steady hr) re
    exact hstays hr (hturn.frame.2.1.symm.trans hg) hturn.frame.1.symm
  | stayed he hr => exact hstays hr hg rfl
  | started payload attempt firing hne hr heq =>
    rcases step_runs setup s hne with hruns | ⟨hstarts, -⟩
    · rw [hruns, hr] at hr'
      cases hr'
    · cases e with
      | handle payload attempt =>
        simp only [Relay.step] at hr'
        rw [List.getElem?_append_right (List.getElem?_eq_none_iff.mp hr)] at hr'
        have hnone : (BatchRun.ofPayload payload attempt none).firing = none := by
          unfold BatchRun.ofPayload
          split <;> rfl
        rw [List.mem_singleton.mp (List.mem_of_getElem? hr'), hnone] at hg
        cases hg
      | timer e =>
        cases e with
        | acquire k =>
          obtain ⟨-, k', f, lock, ticket, delay, hf, -, htask, -, -, rfl⟩ :=
            starts_of_acquire h.ticketed hr hr'
          obtain rfl := Option.some.inj hg
          obtain ⟨f', hf', htask'⟩ := firing_stays setup s hf (.timer (.acquire k))
          exact ⟨f', hf', by rw [htask', htask]; rfl⟩
        | _ => cases hstarts
      | _ => cases hstarts

theorem Shared.addressed_step (h : relay.Shared) {e : Event} {i : Nat} {r' : BatchRun}
    (hr' : (relay.step setup s e).2.runs[i]? = some r') : r'.Addressed := by
  cases onward hr' with
  | turned c he hr hc hs heq =>
    subst heq
    exact (h.addressed hr).turn (h.steady hr) c _
  | stayed he hr => exact h.addressed hr
  | started payload attempt firing hne hr heq =>
    subst heq
    exact BatchRun.addressed_ofPayload payload attempt firing

theorem Shared.step (h : relay.Shared) {e : Event} (he : e.isPosted) :
    (relay.step setup s e).2.Shared where
  queue := sound_step setup s h.queue e
  apart := apart_step setup s h.apart e
  ticketed := h.ticketed.step setup s he
  steady := Steady.step h.steady
  leased := h.leased.step h.steady e
  backed := Backed.step h.backed h.steady e
  course := leases_course_step setup s h.course e
  housed := h.housed_step setup s
  addressed := h.addressed_step setup s

end

theorem shared_fresh (policy : RetryPolicy) : (Relay.fresh policy).Shared where
  queue := Queue.sound_of_no_firings rfl rfl
  apart := Queue.apart_of_no_firings rfl rfl
  ticketed := ⟨rfl, by simp [Relay.fresh, Queue.firing?]⟩
  steady := by simp [Steady, Relay.fresh]
  leased := ⟨by simp [Relay.fresh], by simp [Relay.fresh]⟩
  backed := by simp [Backed, Relay.fresh]
  course := ⟨[], rfl⟩
  housed := by simp [Relay.fresh]
  addressed := by simp [Relay.fresh]

/-! ## Whose leases they are -/

section
variable {relay : Relay} {i : Nat} {r : BatchRun} {lease : Nat}

theorem Shared.keys (h : relay.Shared) : (relay.leases.live.map (·.1)).Nodup := by
  obtain ⟨es, hes⟩ := h.course
  exact hes ▸ Leases.nodup_course es

theorem Shared.isOf_of_run (h : relay.Shared) (hr : relay.runs[i]? = some r)
    (hl : r.lease? = some lease) : relay.leases.IsOf r.ticket.user lease := by
  refine ⟨h.leased.issued hr hl, fun {other} hlive => ?_⟩
  obtain ⟨j, q, hq, hu, hq'⟩ := h.backed hlive
  obtain rfl := h.leased.single hr hq hl hq'
  obtain rfl := Option.some.inj (hr.symm.trans hq)
  exact hu.symm

theorem Shared.isOf_of_live (h : relay.Shared) {user : String}
    (hlive : Table.get? relay.leases.live user = some lease) : relay.leases.IsOf user lease := by
  obtain ⟨i, r, hr, rfl, hl⟩ := h.backed hlive
  exact h.isOf_of_run hr hl

end
end ChatRelay.Relay
