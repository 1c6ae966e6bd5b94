import ChatRelay.Proofs.Relay.Acceptance
import ChatRelay.Proofs.Users.Sharing

/-!
# What a user has of a relay

`Relay.part` is the relay as it looks to a user: there are only their own firings, deposits and
runs, numbered among themselves, and of leases only what matters. An event that concerns the user
means the same to the queue, to leases and to runs of the part.
-/

namespace ChatRelay

def Deposit.isOf (user : String) (d : Deposit) : Bool := d.ticket.user = user

def BatchRun.isOf (user : String) (r : BatchRun) : Bool := r.ticket.user = user

namespace Relay
open Timer

/-- A run of a user as it is seen: firings are numbered among those of the user. -/
def seen (relay : Relay) (user : String) (r : BatchRun) : BatchRun :=
  r.renamed (relay.queue.place (Ticket.dedupId user)) (relay.leases.code user)

/-- The relay as it looks to a user. -/
def part (relay : Relay) (user : String) : Relay where
  queue := relay.queue.part (Ticket.dedupId user)
  leases := relay.leases.part user
  deposits := Places.share (Deposit.isOf user) id relay.deposits
  runs := Places.share (BatchRun.isOf user) (relay.seen user) relay.runs
  handedOver := relay.handedOver.filter (·.dedupId = Ticket.dedupId user)
  combines := relay.combines

/-- Whether an event concerns a user. Time, and the end of everything, concern all of them. -/
def Event.concerns (relay : Relay) (user : String) : Event → Bool
  | .enqueue ticket _ _ _ | .requeue ticket _ => ticket.user = user
  | .push i _ | .arm i => (relay.deposits[i]?).any (·.isOf user)
  | .notice u => u = user
  | .timer e => e.concerns relay.queue (Ticket.dedupId user)
  | .handle payload attempt => (BatchRun.ofPayload payload attempt none).isOf user
  | .run i _ | .return i => (relay.runs[i]?).any (·.isOf user)
  | .cancelAll => true

/-- An event as it is told to a user: it names what belongs to them as they number it. -/
def Event.relative (relay : Relay) (user : String) : Event → Event
  | .push i fault => .push (Places.rank (Deposit.isOf user) relay.deposits i) fault
  | .arm i => .arm (Places.rank (Deposit.isOf user) relay.deposits i)
  | .timer e => .timer (e.renamed (relay.queue.place (Ticket.dedupId user)))
  | .run i e => .run (Places.rank (BatchRun.isOf user) relay.runs i) e
  | .return i => .return (Places.rank (BatchRun.isOf user) relay.runs i)
  | e => e

section
variable {relay : Relay} {user : String}

theorem deposit_part {i : Nat} {d : Deposit} (hd : relay.deposits[i]? = some d)
    (hof : d.isOf user) :
    (relay.part user).deposits[Places.rank (Deposit.isOf user) relay.deposits i]? = some d :=
  Places.getElem?_share hd hof

theorem run_part {i : Nat} {r : BatchRun} (hr : relay.runs[i]? = some r) (hof : r.isOf user) :
    (relay.part user).runs[Places.rank (BatchRun.isOf user) relay.runs i]? =
      some (relay.seen user r) := Places.getElem?_share hr hof

theorem of_any {α : Type} {o : Option α} {p : α → Bool} (h : o.any p) : ∃ a, o = some a ∧ p a :=
  (Option.any_eq_true ..).mp h

theorem dedupId_eq_iff {u v : String} : Ticket.dedupId u = Ticket.dedupId v ↔ u = v :=
  ⟨Ticket.dedupId_injective, congrArg Ticket.dedupId⟩

/-! ## What happens to the queue -/

theorem arming?_renamed (setup : Setup) (ticket : Ticket) (place : Nat → Nat) :
    (arming? setup ticket).map (·.renamed place) = arming? setup ticket := by
  unfold arming?
  split <;> rfl

theorem isRunning_coded {code : Nat → Nat} (p : Phase) :
    (p.coded code).isRunning = p.isRunning := by
  cases p with
  | «over» ending => cases ending <;> rfl
  | _ => rfl

theorem isBatch_part (h : relay.Shared) {g : Nat} {f : Firing}
    (hf : relay.queue.firing? g = some f) (hid : f.task.dedupId = Ticket.dedupId user) :
    (relay.part user).isBatch (relay.queue.place (Ticket.dedupId user) g) = relay.isBatch g := by
  rw [Bool.eq_iff_iff, isBatch, isBatch, List.any_eq_true, List.any_eq_true]
  constructor
  · rintro ⟨r', hmem, hg⟩
    obtain ⟨r, hr, rfl⟩ := List.mem_map.mp hmem
    obtain ⟨k, hk, hplace⟩ := Option.map_eq_some_iff.mp (of_decide_eq_true hg)
    have hof := (List.mem_filter.mp hr).2
    obtain ⟨i, hi⟩ := List.mem_iff_getElem?.mp (List.mem_filter.mp hr).1
    obtain ⟨fk, hfk, hkid⟩ := h.housed hi hk
    have hmine : fk.task.dedupId = Ticket.dedupId user := by rw [hkid, of_decide_eq_true hof]
    obtain rfl := Places.rank_inj hfk hf (Queue.isOf_iff.mpr hmine) (Queue.isOf_iff.mpr hid) hplace
    exact ⟨r, List.mem_of_getElem? hi, decide_eq_true hk⟩
  · rintro ⟨r, hmem, hg⟩
    obtain ⟨i, hi⟩ := List.mem_iff_getElem?.mp hmem
    have hg : r.firing = some g := of_decide_eq_true hg
    obtain ⟨f', hf', hid'⟩ := h.housed hi hg
    obtain rfl := Option.some.inj (hf'.symm.trans hf)
    have hof : r.isOf user := decide_eq_true (Ticket.dedupId_injective (hid'.symm.trans hid))
    refine ⟨relay.seen user r, List.mem_map_of_mem (List.mem_filter.mpr ⟨hmem, hof⟩), ?_⟩
    exact decide_eq_true (congrArg (Option.map _) hg)

theorem phase?_part {q : Queue} {id : String} {g : Nat} {f : Firing} (hf : q.firing? g = some f)
    (hid : f.task.dedupId = id) :
    (q.part id).phase? (q.place id g) = some (f.phase.coded (q.lockCode id)) := by
  rw [Queue.phase?, Queue.firing?_part hf hid]
  rfl

/-- The ticket whose task is armed is one of the user, and they see it armed. -/
theorem arms?_part {e : Event} (he : e.concerns relay user) :
    (relay.part user).arms? (e.relative relay user) = relay.arms? e := by
  cases e with
  | arm i =>
    obtain ⟨d, hd, hof⟩ := of_any he
    simp only [arms?, Event.relative, deposit_part hd hof, hd]
  | run i e =>
    obtain ⟨r, hr, hof⟩ := of_any he
    cases e with
    | arm =>
      simp only [arms?, Event.relative, run_part hr hof, hr, Option.bind_some, seen,
        BatchRun.isArming_renamed]
      rfl
    | _ => rfl
  | _ => rfl

theorem arms?_concerns {e : Event} {ticket : Ticket} (h : relay.arms? e = some ticket) :
    decide (ticket.user = user) = e.concerns relay user := by
  cases e with
  | arm i =>
    obtain ⟨d, hd, h⟩ := Option.bind_eq_some_iff.mp h
    split at h
    · obtain rfl := Option.some.inj h
      rw [Event.concerns, hd]
      rfl
    · cases h
  | run i e =>
    cases e with
    | arm =>
      obtain ⟨r, hr, h⟩ := Option.bind_eq_some_iff.mp h
      split at h
      · obtain rfl := Option.some.inj h
        rw [Event.concerns, hr]
        rfl
      · cases h
    | _ => cases h
  | _ => cases h

theorem queueEvent?_part (setup : Setup) (h : relay.Shared) {e : Event}
    (he : e.concerns relay user) :
    (relay.part user).queueEvent? setup (e.relative relay user) =
      (relay.queueEvent? setup e).map (·.renamed (relay.queue.place (Ticket.dedupId user))) := by
  have harmed : ((relay.part user).arms? (e.relative relay user)).bind (arming? setup) =
      ((relay.arms? e).bind (arming? setup)).map
        (·.renamed (relay.queue.place (Ticket.dedupId user))) := by
    rw [arms?_part he]
    cases relay.arms? e with
    | none => rfl
    | some ticket => exact (arming?_renamed ..).symm
  cases e with
  | arm i => exact harmed
  | timer e =>
    cases e with
    | acquire g =>
      obtain ⟨f, hf, hof⟩ := of_any he
      have hid := Queue.isOf_iff.mp hof
      have hphase : relay.queue.phase? g = some f.phase := by rw [Queue.phase?, hf]; rfl
      have hpart : (relay.part user).queue.phase? (relay.queue.place (Ticket.dedupId user) g) = _ :=
        phase?_part hf hid
      simp only [queueEvent?, Event.relative, Queue.Event.renamed, hphase, hpart, Option.any_some,
        isRunning_coded]
      split <;> rfl
    | finish g o =>
      obtain ⟨f, hf, hof⟩ := of_any he
      simp only [queueEvent?, Event.relative, Queue.Event.renamed,
        isBatch_part h hf (Queue.isOf_iff.mp hof)]
      split <;> rfl
    | _ => rfl
  | run i e => exact harmed
  | «return» i =>
    obtain ⟨r, hr, hof⟩ := of_any he
    have hfiring : (relay.seen user r).firing =
        r.firing.map (relay.queue.place (Ticket.dedupId user)) := rfl
    have hresult : (relay.seen user r).result? = r.result? := BatchRun.result?_renamed
    simp only [queueEvent?, Event.relative, run_part hr hof, hr, Option.bind_some, hfiring, hresult]
    cases r.firing with
    | none => rfl
    | some g => cases r.result? <;> rfl
  | _ => rfl

/-- The queue is concerned with the user whom the event concerns. -/
theorem queueEvent?_concerns (setup : Setup) (h : relay.Shared) {e : Event} {qe : Queue.Event}
    (hqe : relay.queueEvent? setup e = some qe) :
    qe.concerns relay.queue (Ticket.dedupId user) = e.concerns relay user := by
  have harmed : (relay.arms? e).bind (arming? setup) = some qe →
      qe.concerns relay.queue (Ticket.dedupId user) = e.concerns relay user := by
    intro h
    obtain ⟨ticket, harms, rfl⟩ := eq_of_arming? setup h
    exact (decide_eq_decide.mpr dedupId_eq_iff).trans (arms?_concerns harms)
  cases e with
  | arm i => exact harmed hqe
  | timer e =>
    cases e with
    | acquire g =>
      simp only [queueEvent?] at hqe
      split at hqe
      · cases hqe
      · obtain rfl := Option.some.inj hqe
        rfl
    | finish g o =>
      simp only [queueEvent?] at hqe
      split at hqe
      · cases hqe
      · obtain rfl := Option.some.inj hqe
        rfl
    | _ =>
      obtain rfl := Option.some.inj hqe
      rfl
  | run i e => exact harmed hqe
  | «return» i =>
    obtain ⟨r, hr, hqe⟩ := Option.bind_eq_some_iff.mp hqe
    obtain ⟨g, hg, hqe⟩ := Option.bind_eq_some_iff.mp hqe
    obtain ⟨o, -, rfl⟩ := Option.map_eq_some_iff.mp hqe
    obtain ⟨f, hf, hid⟩ := h.housed hr hg
    rw [Queue.Event.concerns, Event.concerns, hf, hr, Option.any_some, Option.any_some, Queue.isOf,
      BatchRun.isOf, hid]
    exact decide_eq_decide.mpr dedupId_eq_iff
  | _ => cases hqe

/-! ## What happens to the leases -/

theorem leaseEvent?_part {e : Event} (he : e.concerns relay user) :
    (relay.part user).leaseEvent? (e.relative relay user) =
      (relay.leaseEvent? e).map (·.renamed (relay.leases.code user)) := by
  cases e with
  | run i e =>
    obtain ⟨r, hr, hof⟩ := of_any he
    simp only [leaseEvent?, Event.relative, run_part hr hof, hr, Option.bind_some]
    exact BatchRun.leaseEvent?_renamed e
  | _ => rfl

theorem leaseEvent?_concerns {e : Event} {le : Leases.Event} (hle : relay.leaseEvent? e = some le) :
    le.concerns user = e.concerns relay user := by
  cases e with
  | notice u =>
    obtain rfl := Option.some.inj hle
    rfl
  | run i e =>
    obtain ⟨r, hr, hle⟩ := Option.bind_eq_some_iff.mp hle
    rw [Event.concerns, hr]
    rcases leaseEvent?_of_run hle with ⟨batch, -, rfl⟩ | ⟨own, rfl⟩ <;> rfl
  | cancelAll =>
    obtain rfl := Option.some.inj hle
    rfl
  | _ => cases hle

/-! ## Runs that start -/

theorem started?_part (h : relay.Shared) {e : Event} (he : e.concerns relay user)
    (code : Nat → Nat) :
    (relay.part user).started? (e.relative relay user) = (relay.started? e).map
      (·.renamed (relay.queue.place (Ticket.dedupId user)) code) := by
  cases e with
  | handle payload attempt =>
    exact congrArg some (BatchRun.renamed_ofPayload payload attempt none).symm
  | timer e =>
    cases e with
    | acquire g =>
      obtain ⟨f, hf, hof⟩ := of_any he
      have hid := Queue.isOf_iff.mp hof
      obtain ⟨p, hp, -⟩ := (Queue.changes_step relay.queue (.acquire g)).follows hf
      let f' : Firing := { f with phase := p }
      have hf' : (relay.queue.acquire g).firing? g = some f' := hp
      have hqueue : (relay.part user).queue.acquire (relay.queue.place (Ticket.dedupId user) g) =
          (relay.queue.acquire g).part (Ticket.dedupId user) :=
        (Queue.part_acquire hf hid h.queue h.apart).symm
      have hseat : ((relay.queue.acquire g).part (Ticket.dedupId user)).firing? _ = _ :=
        Queue.firing?_part hf' hid
      rw [show (relay.queue.acquire g).place (Ticket.dedupId user) g = _ from
        Queue.place_step hf (.acquire g)] at hseat
      have hbefore : (relay.part user).queue.firing? (relay.queue.place (Ticket.dedupId user) g) =
          some (Queue.seat _ f) := Queue.firing?_part hf hid
      have hcombines : (relay.part user).combines = relay.combines := rfl
      simp only [started?, Event.relative, Queue.Event.renamed, hqueue, Queue.phase?, hbefore, hf,
        hf', hseat, Option.map_some, Option.any_some, isRunning_coded, Option.bind_some, Queue.seat,
        hcombines]
      split
      · rfl
      · split
        · split
          · exact congrArg some (BatchRun.renamed_ofPayload f.task.payload
              ((relay.queue.acquire g).attempt f') (some g)).symm
          · rfl
        · rfl
    | _ => rfl
  | _ => rfl

end
end Relay
end ChatRelay
