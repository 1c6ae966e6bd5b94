import ChatRelay.Proofs.Relay.Unfolding

/-!
# One request for each group of messages

The messages of a user who is served in time gather in groups, each message within the debounce
window of the one before it. Of each group one request is executed, just when the window has passed
after its last message, and of nothing else, whatever other users do meanwhile. It is made of those
messages of the group that have not been answered with an earlier one; a group of which none is left
makes no request.
-/

namespace ChatRelay

theorem Timer.Phase.Leads.outcome_of {g : Nat} {e : Timer.Queue.Event} {p p' : Timer.Phase}
    (h : Leads g e p p') {o : Except RelayError Unit} (ho : p'.outcome? = some o) :
    p.outcome? = some o ∨ e = .finish g o := by
  cases h <;> simp_all [Timer.Phase.outcome?]

theorem BatchRun.result_of_isOnTrack {r : BatchRun} (h : r.phase.isOnTrack)
    {o : Except RelayError Unit} (ho : r.result? = some o) : o = .ok () := by
  cases hp : r.phase with
  | finished ending => cases ending <;> simp_all [Phase.isOnTrack, result?, Ending.result]
  | _ => simp [result?, hp] at ho

namespace Relay
open Timer AnsweredIds Batch

def arrivals (user : String) : History → List Arrival
  | [] => []
  | t :: h => arrivals user h ++ (t.arrival? user).toList

def executions (user : String) : History → List (Nat × String)
  | [] => []
  | t :: h => executions user h ++ (t.execution? user).toList

variable {σ : Type} [Store σ] [LawfulStore σ] {setup : Setup} {s₀ s : σ} {policy : RetryPolicy}
  {h : History} {relay : Relay} {user : String}

namespace Comes

theorem regular (hc : Comes setup s₀ policy h s relay) : relay.queue.Regular := by
  refine hc.invariant (P := fun _ _ relay => relay.queue.Regular) (Queue.regular_fresh ..) ?_
  intro h s relay d s' relay' t hc ih _ _ _ hap
  obtain ⟨e, hq | hq, -⟩ := hap.keeps
  · exact hq ▸ ih
  · exact hq ▸ ih.step e

/-- A user whose runs are on track has firings that report success, if anything. -/
theorem outcomes (hc : Comes setup s₀ policy h s relay) (ht : ∀ t ∈ h, t.InTime user) {g : Nat}
    {f : Firing} {o : Except RelayError Unit} (hf : relay.queue.firing? g = some f)
    (hid : f.task.dedupId = Ticket.dedupId user) (ho : f.phase.outcome? = some o) : o = .ok () := by
  induction hc generalizing g f with
  | fresh => simp [Relay.fresh, Queue.firing?] at hf
  | @step h s relay e hc ha ih =>
    have ih := @ih fun t hmem => ht t (List.mem_cons_of_mem _ hmem)
    obtain ⟨e', hq, -, -, hfinish⟩ := (happens_step setup s hc.tended ha).keeps
    have hch := changes_of_eq hq
    cases hold : relay.queue.firing? g with
    | none =>
      simp [(hch.arises hold hf).sleeping, Phase.outcome?] at ho
    | some f₀ =>
      obtain ⟨p, hp, hl⟩ := hch.follows hold
      obtain rfl := Option.some.inj (hp.symm.trans hf)
      rcases hl with rfl | hl
      · exact ih hold hid ho
      · rcases hl.outcome_of ho with hbefore | rfl
        · exact ih hold hid hbefore
        · -- the firing reports what its run has come to
          obtain ⟨i, r, hr, hg, hres⟩ := hfinish g o rfl
          obtain ⟨g', f', delay, hg', hf', htask, -⟩ := hc.matched.owned hr
          obtain rfl := Option.some.inj (hg.symm.trans hg')
          obtain rfl := Option.some.inj (hold.symm.trans hf')
          have hu : r.ticket.user = user := by
            refine Ticket.dedupId_injective (Eq.trans ?_ hid)
            exact (congrArg (·.dedupId) htask).symm
          have htrack := (ht _ List.mem_cons_self).answers r (List.mem_of_getElem? hr) hu
          exact BatchRun.result_of_isOnTrack htrack hres

theorem serving (hs : IsEmptied s₀) (hc : Comes setup s₀ policy h s relay)
    (ht : ∀ t ∈ h, t.InTime user) : relay.Serving s user where
  sound := hc.sound hs.sound
  tended := hc.tended
  matched := hc.matched
  queue := hc.queue_sound
  regular := hc.regular
  steady := hc.occurs.steady
  deposits := (hc.balanced hs).deposits
  outcomes := hc.outcomes ht

/-- A user who is served in time is in the round, with what has come in from them and what has been
executed. -/
theorem round (hs : IsEmptied s₀) (hc : Comes setup s₀ policy h s relay)
    (hsched : setup.scheduler = .timers) (hwindow : 0 < setup.debounceMillis)
    {answered : List String} (hanswered : ∀ id, Marked s₀ user id ↔ id ∈ answered)
    (ht : ∀ t ∈ h, t.InTime user)
    (hgap : (arrivals user h).IsChain fun a b => b.1 ≠ a.1 + setup.debounceMillis) :
    Scene.Round setup.debounceMillis answered (arrivals user h) (executions user h)
      (relay.scene s user) := by
  induction hc with
  | fresh =>
    have hnone : ¬ (Relay.fresh policy |>.scene s₀ user).arming := by
      simp [scene, Relay.fresh]
    refine ⟨.quiet ?_, fun harming => absurd harming hnone⟩
    exact {
      alarm := rfl
      starting := by simp [scene, Relay.fresh, Queue.Starting, Queue.firing?]
      requests := rfl
      marked := hanswered
      waiting := congrArg Pending.decodeAll (hs.texts user)
      work := rfl
      past := by simp [arrivals] }
  | @step h s relay e hc ha ih =>
    have ht' : ∀ t ∈ h, t.InTime user := fun t hmem => ht t (List.mem_cons_of_mem _ hmem)
    rw [arrivals, List.isChain_append] at hgap
    have hmoves := moves_step (hc.serving hs ht') hsched ha (ht _ List.mem_cons_self)
    refine (ih ht' hgap.1).step hwindow hmoves fun b hb b₀ hb₀ => ?_
    exact hgap.2.2 b₀ hb₀ b (by simpa using hb)

end Comes

/-- The executions for a user who is served in time are those planned for the groups of their
messages, and none of these is overdue. -/
theorem executions_as_planned (hs : IsEmptied s₀) (hc : Comes setup s₀ policy h s relay)
    (user : String) (hsched : setup.scheduler = .timers) (hwindow : 0 < setup.debounceMillis)
    {answered : List String} (hanswered : ∀ id, Marked s₀ user id ↔ id ∈ answered)
    (ht : ∀ t ∈ h, t.InTime user)
    (hgap : (arrivals user h).IsChain fun a b => b.1 ≠ a.1 + setup.debounceMillis) :
    ∃ later, plan setup.debounceMillis answered (groups setup.debounceMillis (arrivals user h)) =
      executions user h ++ later ∧ ∀ e ∈ later, relay.queue.now ≤ e.1 :=
  (hc.round hs hsched hwindow hanswered ht hgap).stage.requests_plan

/-- Two groups of a user, and then a message that has been answered; another user writes in
between. -/
def bursting : List Event :=
  let ticket : Ticket := ⟨"u", "chat", "A"⟩
  accepting 0 ticket "one" "m1" 1 ++ [.timer (.wait 50)] ++
    accepting 1 ⟨"v", "chat", "A"⟩ "hello" "n1" 2 ++ accepting 2 ticket "two" "m2" 3 ++
    starting 2 ++ (starting 1).tail ++ asking 0 ++ asking 1 ++
    concluding 0 (.ok ⟨"reply", []⟩) ++ returning 0 2 ++ [.timer (.wait 100)] ++
    accepting 3 ticket "one" "m1" 4 ++ accepting 4 ticket "three" "m3" 5 ++ starting 4 ++
    asking 2 ++ concluding 2 (.ok ⟨"reply", []⟩) ++ returning 2 4 ++ [.timer (.wait 50)] ++
    accepting 5 ticket "three" "m3" 6 ++ starting 5 ++ asking 3 ++ returning 3 5 ++
    [.timer (.wait 100)]

theorem bursting_executed_as_planned :
    let last := course plain ({} : Memory) .none bursting
    (∀ t ∈ last.1, t.InTime "u") ∧
      ∃ later, plan 100 [] (groups 100 (arrivals "u" last.1)) =
        [(150, "[A]: one\n\n[Follow-up]: two"), (350, "[A]: three")] ++ later ∧
          ∀ e ∈ later, 600 ≤ e.1 := by
  let last := course plain ({} : Memory) .none bursting
  have hfacts : admitsAll plain bursting ({} : Memory) (Relay.fresh .none) ∧
      (∀ t ∈ last.1, t.InTime "u") ∧
      ((arrivals "u" last.1).IsChain fun a b => b.1 ≠ a.1 + plain.debounceMillis) ∧
      executions "u" last.1 =
        [(150, "[A]: one\n\n[Follow-up]: two"), (350, "[A]: three")] ∧
      last.2.2.queue.now = 600 := by decide +kernel
  obtain ⟨hadmits, htime, hgap, hexecutions, hnow⟩ := hfacts
  have hnone : ∀ id, Marked ({} : Memory) "u" id ↔ id ∈ ([] : List String) := fun id =>
    Memory.marked_iff {} "u" id
  have h := executions_as_planned isEmptied_memory (comes_course plain ({} : Memory) .none bursting
    hadmits) "u" rfl (by decide) hnone htime hgap
  rw [hexecutions, hnow] at h
  exact ⟨htime, h⟩

end Relay
end ChatRelay
