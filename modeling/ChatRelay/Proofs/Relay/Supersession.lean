import ChatRelay.Proofs.Relay.Revocation
import Mathlib.Combinatorics.Enumerative.DoubleCounting

/-!
# Supersession

A batch that is called off goes back into the list, and its task is armed again, which starts
another run. This comes to an end unless the user writes again: each run that is superseded has
been called off by a notice while it held its lease, a notice calls off one run at most, each call
sends one notice, and a run that takes its lease calls off nobody. Notices may be late, and call off
a run whose batch has the message in it that they announce.
-/

namespace ChatRelay

/-- Whether the batch is on its way back, or has gone back, because it was called off. -/
def BatchRun.Phase.isSuperseded : BatchRun.Phase → Bool
  | .requeuing _ _ | .finished (.superseded _ _) => true
  | _ => false

def BatchRun.Phase.isGenerating : BatchRun.Phase → Bool
  | .executing _ _ (.generating _ _ _) => true
  | _ => false

namespace Relay

/-! ## What happens in a history -/

def Event.isCallOf (user : String) : Event → Bool
  | .enqueue ticket _ _ _ => ticket.user = user
  | _ => false

def Event.isNoticeOf (user : String) : Event → Bool
  | .notice u => u = user
  | _ => false

def Event.isCancelAll : Event → Bool
  | .cancelAll => true
  | _ => false

/-- How many calls there have been to accept a message of a user. -/
def calls (user : String) (h : History) : Nat := h.countP (·.event.isCallOf user)

/-- How many notices of a user have been heard. -/
def heard (user : String) (h : History) : Nat := h.countP (·.event.isNoticeOf user)

/-- How many runs of a user have been superseded. -/
def superseded (relay : Relay) (user : String) : Nat :=
  relay.runs.countP fun r => r.ticket.user = user && r.phase.isSuperseded

/-- The users of the notices that are on their way, or lost: each call sends one. There is no such
list if a notice was heard that no call had sent. -/
def unheard : History → Option (List String)
  | [] => some []
  | t :: h =>
    (unheard h).bind fun waiting =>
      match t.event with
      | .enqueue ticket _ _ _ => some (ticket.user :: waiting)
      | .notice user => if user ∈ waiting then some (waiting.erase user) else none
      | _ => some waiting

/-- The engine says that it was called off only when it was. -/
def Transition.isHonest (t : Transition) : Bool :=
  match t.event with
  | .run i (.generated (.error .cancelled)) =>
    (t.before.runs[i]?).all fun r => !r.phase.isGenerating || t.before.isCalledOff r
  | _ => true

/-- No transformer says that a request was called off. -/
def Setup.IsHonest (setup : Setup) : Prop :=
  ∀ c ∈ setup.channels, ∀ t ∈ c.transformers, ∀ request message,
    t.apply request message ≠ .error .cancelled

/-- At some time the lease of the run in this place was live, and a notice of its user called it
off, or all was called off. -/
def WasCalledOff (h : History) (i : Nat) (user : String) : Prop :=
  ∃ t ∈ h, ∃ r lease, t.CallsOff i r lease ∧ r.ticket.user = user ∧
    Table.get? t.before.leases.live user = some lease ∧
    (t.event = .notice user ∨ t.event = .cancelAll)

theorem WasCalledOff.cons {h : History} {i : Nat} {user : String} (hoff : WasCalledOff h i user)
    (t : Transition) : WasCalledOff (t :: h) i user := by
  obtain ⟨t₀, ht₀, hrest⟩ := hoff
  exact ⟨t₀, List.mem_cons_of_mem t ht₀, hrest⟩

end Relay

/-! ## What executions say -/

theorem Channel.transform_ne_cancelled {c : Channel}
    (hc : ∀ t ∈ c.transformers, ∀ request message, t.apply request message ≠ .error .cancelled)
    (request : Request) : c.transform request ≠ .error .cancelled := by
  unfold transform
  generalize request.message = message
  generalize c.transformers = ts at hc
  induction ts generalizing message with
  | nil => simp [pure, Except.pure]
  | cons t ts ih =>
    obtain ⟨ht, hts⟩ := List.forall_mem_cons.mp hc
    rw [List.foldlM_cons]
    cases happly : t.apply request message with
    | ok m => exact ih m hts
    | error cause =>
      intro heq
      obtain rfl : cause = .cancelled := Except.error.inj heq
      exact ht request message happly

namespace Execution

theorem begin_ne_cancelled {setup : Relay.Setup} (hsetup : setup.IsHonest) (request : Request) :
    begin setup.channels setup.primary request none false ≠ .finished (.error .cancelled) := by
  unfold begin
  cases hget : setup.channels.get setup.primary with
  | error cause => simp
  | ok channel =>
    have hmem : channel ∈ setup.channels := by
      unfold ChannelRegistry.get at hget
      split at hget
      · next c hfind =>
        obtain rfl := Except.ok.inj hget
        exact List.mem_of_find?_eq_some hfind
      · cases hget
    have htransform := Channel.transform_ne_cancelled (hsetup channel hmem) request
    simp only [start]
    split
    · simp
    · next cause hcause =>
      intro heq
      obtain rfl : cause = .cancelled := by simpa using heq
      exact htransform hcause

theorem deliver_ne_error (p : Passage) (reply : Provider.Reply) (slots : List (Option Bool))
    (cause : PipelineError) : deliver p reply slots ≠ .finished (.error cause) := by
  unfold deliver
  split <;> simp

end Execution

/-- An execution comes to be cancelled when it has been called off or the engine says so. -/
theorem BatchRun.advance_eq_cancelled {σ : Type} [Store σ] {calledOff : Bool} {s : σ}
    {x : Execution} {e : Relay.RunEvent}
    (h : advance calledOff s x e = .finished (.error .cancelled)) :
    x = .finished (.error .cancelled) ∨ calledOff ∨ e = .generated (.error .cancelled) ∧
      ∃ passage message prompt, x = .generating passage message prompt := by
  cases e with
  | access fault =>
    cases x with
    | keeping p message reply => exact (Execution.deliver_ne_error _ _ _ _ h).elim
    | _ => exact .inl h
  | enriched slot outcome =>
    cases x with
    | enriching p message slots => cases h
    | _ => exact .inl h
  | compose =>
    cases x with
    | enriching p message slots =>
      simp only [advance, Execution.compose] at h
      split at h
      · cases h
      · split at h
        · next hoff => exact .inr (.inl hoff)
        · cases h
    | _ => exact .inl h
  | generated outcome =>
    cases x with
    | generating p message prompt =>
      cases outcome with
      | error cause =>
        cases cause with
        | cancelled => exact .inr (.inr ⟨rfl, p, message, prompt, rfl⟩)
        | _ => cases h
      | ok reply =>
        simp only [advance, Execution.generated] at h
        split at h
        · next hoff => exact .inr (.inl hoff)
        · cases h
    | _ => exact .inl h
  | delivered slot success =>
    cases x with
    | delivering p reply slots => exact (Execution.deliver_ne_error _ _ _ _ h).elim
    | _ => exact .inl h
  | _ => exact .inl h

namespace BatchRun

theorem isSuperseded_ofFresh (r : BatchRun) (answered drained fresh : List Pending) :
    (r.ofFresh answered drained fresh).phase.isSuperseded = false := by
  unfold ofFresh
  cases Batch.normalize fresh <;> rfl

theorem isSuperseded_ofNotice (slots : List (Option Bool)) {ending : Ending}
    (he : ending.mayTell) : (Phase.ofNotice slots ending).isSuperseded = false := by
  unfold Phase.ofNotice
  cases filled? slots with
  | none => rfl
  | some _ => cases ending <;> first | rfl | cases he

/-- A run is superseded if it was before, or its execution came to be cancelled. -/
theorem Turns.isSuperseded_of {σ : Type} [Store σ] [LawfulStore σ] {setup : Relay.Setup} {s s' : σ}
    {r r' : BatchRun} {e : Relay.RunEvent} (h : r.Turns setup s e s' r') (hr : r.Steady)
    (hs : r'.phase.isSuperseded) :
    r.phase.isSuperseded ∨
      ∃ batch lease, r.phase = .executing batch lease (.finished (.error .cancelled)) := by
  cases h with
  | unmoved hd he => exact .inl hs
  | drained hp =>
    unfold ofDrained at hs
    split at hs
    · cases hs
    · split at hs
      · rw [isSuperseded_ofFresh] at hs
        cases hs
      · cases hs
  | undrained cause hp =>
    dsimp only at hs
    split at hs
    · rw [Phase.notify, isSuperseded_ofNotice _ rfl] at hs
      cases hs
    · cases hs
  | checked hp =>
    rw [isSuperseded_ofFresh] at hs
    cases hs
  | unchecked cause hp =>
    rw [isSuperseded_ofFresh] at hs
    cases hs
  | @concluded batch lease result hp =>
    refine .inr ⟨batch, lease, ?_⟩
    unfold Phase.concluded at hs
    dsimp only at hs
    split at hs
    · split at hs <;> cases hs
    · exact hp
    · split at hs
      · cases hs
      · rw [Phase.notify, isSuperseded_ofNotice _ rfl] at hs
        cases hs
  | requeued hp hd => exact .inl (by rw [hp]; rfl)
  | unrequeued cause hp hd => exact .inl (by rw [hp]; rfl)
  | rearmed outcome hp hd => exact .inl (by rw [hp]; rfl)
  | @restored batch left m cause hp => cases left <;> cases hs
  | unrestored cause hp =>
    rw [Phase.notify, isSuperseded_ofNotice _ rfl] at hs
    cases hs
  | notified slot success hp =>
    rw [Steady, hp] at hr
    rw [isSuperseded_ofNotice _ hr] at hs
    cases hs
  | _ => cases hs

end BatchRun

namespace Relay

section
variable {σ : Type} [Store σ] {setup : Setup} {s₀ s : σ} {policy : RetryPolicy} {h : History}
  {relay : Relay}

/-! ## What is superseded -/

section
variable [LawfulStore σ] {i : Nat} {r : BatchRun} {lease : Nat}

/-- An execution that came to be cancelled is that of a run whose lease is cancelled. -/
theorem Occurs.prompted (ho : Occurs setup s₀ policy h s relay) (hsetup : setup.IsHonest)
    (hengine : ∀ t ∈ h, t.isHonest) {batch : List Pending} (hr : relay.runs[i]? = some r)
    (hp : r.phase = .executing batch lease (.finished (.error .cancelled))) :
    relay.leases.isCancelled lease := by
  induction ho generalizing r batch lease with
  | fresh => simp [Relay.fresh] at hr
  | @step h s relay e ho ih =>
    obtain ⟨hhonest, hengine⟩ := List.forall_mem_cons.mp hengine
    cases onward hr with
    | @turned r₀ re c he hr₀ hc hs heq =>
      subst heq
      rcases (BatchRun.turns_turn c (ho.steady hr₀) re).executing_of hp with ⟨rfl, hp₀⟩ | ⟨x₀, hp₀⟩
      · -- an execution that has just begun is not called off yet
        simp only [BatchRun.turn, BatchRun.leased, hp₀] at hp
        exact absurd (BatchRun.Phase.executing.inj hp).2.2 (Execution.begin_ne_cancelled hsetup _)
      · have hoff : c.calledOff = relay.leases.isCancelled lease := by
          rw [hc, isCalledOff_eq hp₀]
        have hx := (BatchRun.turn_executing c hp₀ hp).symm
        apply keeps_leases e lease
        rcases BatchRun.advance_eq_cancelled hx with rfl | hcalled | ⟨rfl, p, message, prompt, rfl⟩
        · exact ih hengine hr₀ hp₀
        · exact hoff ▸ hcalled
        · -- the engine says so, which it does only if the lease is cancelled
          subst he
          simpa [Transition.isHonest, hr₀, hp₀, BatchRun.Phase.isGenerating,
            isCalledOff_eq hp₀] using hhonest
    | stayed he hr₀ => exact keeps_leases e lease (ih hengine hr₀ hp)
    | started payload attempt firing he hr₀ heq =>
      rw [heq, BatchRun.ofPayload] at hp
      split at hp <;> cases hp

/-- Whatever is superseded, or about to be, has been called off. -/
theorem Occurs.wasCalledOff (ho : Occurs setup s₀ policy h s relay)
    (hown : ∀ t ∈ h, t.event.isOwn) (hsetup : setup.IsHonest) (hengine : ∀ t ∈ h, t.isHonest)
    (hr : relay.runs[i]? = some r) (hoff : relay.isCalledOff r ∨ r.phase.isSuperseded) :
    WasCalledOff h i r.ticket.user := by
  induction ho generalizing r with
  | fresh => simp [Relay.fresh] at hr
  | @step h s relay e ho ih =>
    obtain ⟨hownE, hownH⟩ := List.forall_mem_cons.mp hown
    obtain ⟨hhonest, hengineH⟩ := List.forall_mem_cons.mp hengine
    have hbefore : ∀ {r₀ : BatchRun}, relay.runs[i]? = some r₀ → r₀.ticket = r.ticket →
        relay.isCalledOff r₀ ∨ r₀.phase.isSuperseded →
        WasCalledOff (⟨relay, e, (relay.step setup s e).2⟩ :: h) i r.ticket.user := by
      intro r₀ hr₀ hticket hoff₀
      rw [← hticket]
      exact (ih hownH hengineH hr₀ hoff₀).cons _
    -- a lease that the run had before is cancelled already, or by this event
    have hlease : ∀ {r₀ : BatchRun} {lease : Nat}, relay.runs[i]? = some r₀ →
        r₀.ticket = r.ticket → r₀.lease? = some lease →
        (relay.step setup s e).2.leases.isCancelled lease →
        WasCalledOff (⟨relay, e, (relay.step setup s e).2⟩ :: h) i r.ticket.user := by
      intro r₀ lease hr₀ hticket hl hafter
      cases hc : relay.leases.isCancelled lease with
      | true => exact hbefore hr₀ hticket (.inl (by simp [isCalledOff, hl, hc]))
      | false =>
        have hcalls : Transition.CallsOff ⟨relay, e, (relay.step setup s e).2⟩ i r₀ lease :=
          ⟨hr₀, hl, hc, hafter⟩
        obtain ⟨hlive, hevent⟩ := ho.calledOff_by hownH hcalls
        rw [hticket] at hlive hevent
        exact ⟨_, List.mem_cons_self, r₀, lease, hcalls, by rw [hticket], hlive, hevent⟩
    rcases hoff with hcalled | hsuper
    · obtain ⟨lease, hl, hafter⟩ : ∃ lease, r.lease? = some lease ∧
          (relay.step setup s e).2.leases.isCancelled lease := by
        unfold isCalledOff at hcalled
        split at hcalled
        · next lease hl => exact ⟨lease, hl, hcalled⟩
        · cases hcalled
      rcases lease?_from ho.steady hr hl with ⟨r₀, hr₀, hticket, hl₀⟩ |
        ⟨-, rfl, user, hnext⟩
      · exact hlease hr₀ hticket hl₀ hafter
      · rw [hnext, ho.next_lease user] at hafter
        cases hafter
    · cases onward hr with
      | @turned r₀ re c he hr₀ hc hs heq =>
        have hturn : r₀.Turns setup s re _ _ := BatchRun.turns_turn c (ho.steady hr₀) re
        have hticket : r₀.ticket = r.ticket := by rw [heq, hturn.frame.1]
        rcases hturn.isSuperseded_of (ho.steady hr₀) (heq ▸ hsuper) with hold | ⟨batch, lease, hp⟩
        · exact hbefore hr₀ hticket (.inr hold)
        · refine hbefore hr₀ hticket (.inl ?_)
          rw [isCalledOff_eq hp]
          exact ho.prompted hsetup hengineH hr₀ hp
      | stayed he hr₀ => exact hbefore hr₀ rfl (.inr hsuper)
      | started payload attempt firing he hr₀ heq =>
        rw [heq, BatchRun.ofPayload] at hsuper
        split at hsuper <;> cases hsuper

end

/-! ## Counting -/

theorem card_places {α : Type} (p : α → Bool) (l : List α) :
    ((Finset.range l.length).filter fun i => (l[i]?).any p).card = l.countP p := by
  induction l using List.reverseRecOn with
  | nil => rfl
  | append_singleton l a ih =>
    have hold : (Finset.range l.length).filter (fun i => ((l ++ [a])[i]?).any p) =
        (Finset.range l.length).filter fun i => (l[i]?).any p := by
      refine Finset.filter_congr fun i hi => ?_
      rw [List.getElem?_append_left (Finset.mem_range.mp hi)]
    rw [List.length_append, List.length_singleton, Finset.range_add_one, Finset.filter_insert,
      List.getElem?_concat_length, Option.any_some, hold, List.countP_append,
      List.countP_singleton, ← ih]
    split
    · rw [Finset.card_insert_of_notMem (by simp)]
    · rfl

/-- What holds at no more places than something else does. -/
theorem countP_le_countP {α β : Type} {l : List α} {m : List β} {p : α → Bool} {q : β → Bool}
    (R : Nat → β → Prop)
    (htotal : ∀ {i : Nat} {a : α}, l[i]? = some a → p a → ∃ b ∈ m, q b ∧ R i b)
    (hsingle : ∀ {i j : Nat} {b : β}, b ∈ m → q b → R i b → R j b → i = j) :
    l.countP p ≤ m.countP q := by
  classical
  calc l.countP p
      = ((Finset.range l.length).filter fun i => (l[i]?).any p).card := (card_places p l).symm
    _ ≤ (m.filter q).toFinset.card := by
      apply Finset.card_le_card_of_forall_subsingleton R
      · intro i hi
        obtain ⟨a, ha, hp⟩ := (Option.any_eq_true ..).mp (Finset.mem_filter.mp hi).2
        obtain ⟨b, hb, hq, hR⟩ := htotal ha hp
        exact ⟨b, List.mem_toFinset.mpr (List.mem_filter.mpr ⟨hb, hq⟩), hR⟩
      · rintro b hb i ⟨-, hi⟩ j ⟨-, hj⟩
        obtain ⟨hm, hq⟩ := List.mem_filter.mp (List.mem_toFinset.mp hb)
        exact hsingle hm hq hi hj
    _ ≤ (m.filter q).length := List.toFinset_card_le _
    _ = m.countP q := List.countP_eq_length_filter.symm

theorem unheard_of_append {after before : History} {waiting : List String}
    (h : unheard (after ++ before) = some waiting) :
    ∃ waiting', unheard before = some waiting' := by
  induction after generalizing waiting with
  | nil => exact ⟨waiting, h⟩
  | cons t after ih =>
    obtain ⟨waiting', h', -⟩ := Option.bind_eq_some_iff.mp h
    exact ih h'

theorem heard_cons (user : String) (t : Transition) (h : History) :
    heard user (t :: h) = heard user h + if t.event.isNoticeOf user then 1 else 0 :=
  List.countP_cons

theorem calls_cons (user : String) (t : Transition) (h : History) :
    calls user (t :: h) = calls user h + if t.event.isCallOf user then 1 else 0 :=
  List.countP_cons

/-- Every call has sent a notice, which is heard or not. -/
theorem heard_add_count {h : History} {waiting : List String} (hw : unheard h = some waiting)
    (user : String) : heard user h + waiting.count user = calls user h := by
  induction h generalizing waiting with
  | nil =>
    obtain rfl : [] = waiting := Option.some.inj hw
    rfl
  | cons t h ih =>
    obtain ⟨waiting', hw', hstep⟩ := Option.bind_eq_some_iff.mp hw
    have hold := ih hw'
    rw [heard_cons, calls_cons]
    split at hstep
    · next ticket text sourceId enqueuedAt he =>
      obtain rfl := Option.some.inj hstep
      simp only [he, Event.isNoticeOf, Event.isCallOf, List.count_cons, decide_eq_true_eq,
        beq_iff_eq, Bool.false_eq_true, if_false]
      omega
    · next u he =>
      split at hstep
      · next hmem =>
        obtain rfl := Option.some.inj hstep
        have hpos := List.count_pos_iff.mpr hmem
        simp only [he, Event.isNoticeOf, Event.isCallOf, List.count_erase, decide_eq_true_eq,
          beq_iff_eq, Bool.false_eq_true, if_false]
        by_cases hu : u = user
        · subst hu
          simp only [if_true]
          omega
        · simp only [hu, if_false]
          omega
      · cases hstep
    · next hcall hnotice =>
      obtain rfl := Option.some.inj hstep
      have hnone : t.event.isNoticeOf user = false ∧ t.event.isCallOf user = false := by
        cases he : t.event with
        | enqueue ticket text sourceId enqueuedAt => exact absurd he (hcall _ _ _ _)
        | notice u => exact absurd he (hnotice _)
        | _ => exact ⟨rfl, rfl⟩
      simp only [hnone.1, hnone.2, Bool.false_eq_true, if_false]
      omega

theorem Occurs.superseded_le_heard [LawfulStore σ] (ho : Occurs setup s₀ policy h s relay)
    (hown : ∀ t ∈ h, t.event.isOwn) (hsetup : setup.IsHonest) (hengine : ∀ t ∈ h, t.isHonest)
    (hopen : ∀ t ∈ h, t.event.isCancelAll = false) (user : String) :
    relay.superseded user ≤ heard user h := by
  apply countP_le_countP fun i (t : Transition) => ∃ r lease, t.CallsOff i r lease
  · intro i r hr hp
    obtain ⟨hu, hsuper⟩ := Bool.and_eq_true_iff.mp hp
    obtain ⟨t, ht, r₀, lease, hoff, -, -, hevent⟩ :=
      ho.wasCalledOff hown hsetup hengine hr (.inr hsuper)
    refine ⟨t, ht, ?_, r₀, lease, hoff⟩
    rcases hevent with hnotice | hall
    · rw [hnotice, of_decide_eq_true hu]
      exact decide_eq_true rfl
    · have hnot := hopen t ht
      rw [hall] at hnot
      cases hnot
  · rintro i j ⟨before, event, after⟩ ht hnotice ⟨r, lease, hi⟩ ⟨r', lease', hj⟩
    obtain ⟨later, earlier, s', rfl, hbefore, hafter⟩ := ho.of_mem ht
    cases event with
    | notice u =>
      dsimp only at hafter hbefore
      subst hafter
      have hownBefore : ∀ t ∈ earlier, t.event.isOwn := fun t ht =>
        hown t (List.mem_append_right _ (List.mem_cons_of_mem _ ht))
      exact (hbefore.notice_calls_off_one hownBefore hi hj).1
    | _ => cases hnotice

end

/-- A run of a user is superseded only if a notice of the user, which one of their earlier calls has
sent, was heard while the lease was live under which the run executed its batch, or if all leases
were cancelled. Each notice calls off one run at most, and that is one of its user; a run that takes
its lease cancels no other. So, as long as not all leases are cancelled, the runs of a user that are
superseded are no more than the notices that have been heard, and these no more than the calls: for
each call a notice has been heard or is on its way. Stores may fail at every access. The engine says
that it was called off only when it was, no transformer says so, and runs are left to the timer
queue. -/
theorem superseded_by_own_input {σ : Type} [Store σ] [LawfulStore σ] {setup : Setup} {s₀ s : σ}
    {policy : RetryPolicy} {h : History} {relay : Relay} (ho : Occurs setup s₀ policy h s relay)
    (hown : ∀ t ∈ h, t.event.isOwn) (hsetup : setup.IsHonest) (hengine : ∀ t ∈ h, t.isHonest)
    {waiting : List String} (hsent : unheard h = some waiting) :
    (∀ i r, relay.runs[i]? = some r → r.phase.isSuperseded →
      ∃ after t before r₀ lease, h = after ++ t :: before ∧ t.CallsOff i r₀ lease ∧
        r₀.ticket.user = r.ticket.user ∧
        Table.get? t.before.leases.live r.ticket.user = some lease ∧
        (t.event = .notice r.ticket.user ∧
            (∃ call ∈ before, call.event.isCallOf r.ticket.user) ∨
          t.event = .cancelAll)) ∧
    (∀ t ∈ h, ∀ user, t.event = .notice user → ∀ i j r r' lease lease',
      t.CallsOff i r lease → t.CallsOff j r' lease' → i = j ∧ r.ticket.user = user) ∧
    (∀ t ∈ h, ∀ i, t.event = .run i .lease →
      t.after.leases.cancelled = t.before.leases.cancelled) ∧
    ∀ user, (∀ t ∈ h, t.event.isCancelAll = false) →
      relay.superseded user ≤ heard user h ∧
        heard user h + waiting.count user = calls user h := by
  have hbefore : ∀ {after before : History} {t : Transition}, h = after ++ t :: before →
      ∀ t' ∈ before, t'.event.isOwn := by
    rintro after before t rfl t' ht'
    exact hown t' (List.mem_append_right _ (List.mem_cons_of_mem _ ht'))
  refine ⟨fun i r hr hsuper => ?_, ?_, ?_, fun user hopen => ⟨?_, heard_add_count hsent user⟩⟩
  · obtain ⟨t, ht, r₀, lease, hoff, hu, hlive, hevent⟩ :=
      ho.wasCalledOff hown hsetup hengine hr (.inr hsuper)
    obtain ⟨after, before, s', heq, -, -⟩ := ho.of_mem ht
    refine ⟨after, t, before, r₀, lease, heq, hoff, hu, hlive, hevent.imp_left fun hnotice => ?_⟩
    refine ⟨hnotice, ?_⟩
    -- the notice was on its way, so a call had sent it
    rw [heq] at hsent
    obtain ⟨waiting', hw'⟩ := unheard_of_append hsent
    obtain ⟨waiting'', hw'', hstep⟩ := Option.bind_eq_some_iff.mp hw'
    rw [hnotice] at hstep
    dsimp only at hstep
    split at hstep
    · next hmem =>
      have hpos : 0 < calls r.ticket.user before := by
        rw [← heard_add_count hw'']
        exact Nat.lt_of_lt_of_le (List.count_pos_iff.mpr hmem) (Nat.le_add_left _ _)
      exact List.countP_pos_iff.mp hpos
    · cases hstep
  · rintro ⟨prior, event, next⟩ ht user hevent i j r r' lease lease' hi hj
    obtain ⟨after, before, s', heq, hprior, hnext⟩ := ho.of_mem ht
    dsimp only at hevent hnext
    subst hevent hnext
    exact hprior.notice_calls_off_one (hbefore heq) hi hj
  · intro t ht i hevent
    obtain ⟨after, before, s', heq, hprior, hnext⟩ := ho.of_mem ht
    rw [hnext, hevent]
    exact hprior.cancelled_lease (hbefore heq) i
  · exact ho.superseded_le_heard hown hsetup hengine hopen user

/-- A user writes again while the engine is at work, and the notice calls the run off. -/
def writingAgain : List Event :=
  accepting 0 ⟨"u", "chat", "A"⟩ "one" "m1" 5 ++ starting 0 ++ asking 0 ++
    accepting 1 ⟨"u", "chat", "A"⟩ "two" "m2" 6 ++ superseding 0 "u"

theorem writingAgain_superseded_once :
    let c := course plain ({} : Memory) .standard writingAgain
    c.2.2.superseded "u" = 1 ∧ c.2.2.superseded "u" ≤ heard "u" c.1 ∧
      heard "u" c.1 + ["u"].count "u" = calls "u" c.1 := by
  have hsetup : plain.IsHonest := by simp [Setup.IsHonest, plain]
  have hsent : unheard (course plain ({} : Memory) .standard writingAgain).1 = some ["u"] := by
    decide +kernel
  obtain ⟨-, -, -, hbound⟩ := superseded_by_own_input
    (occurs_course plain ({} : Memory) .standard writingAgain) (by decide +kernel) hsetup
    (by decide +kernel) hsent
  exact ⟨by decide +kernel, hbound "u" (by decide +kernel)⟩

/-- A setup whose transformer says of every request that it was called off. -/
def disclaiming : Setup where
  channels := [{
    id := "assistant", systemPrompt := "Be brief."
    transformers := [⟨"filter", fun _ _ => .error .cancelled⟩] }]
  fallback := "Sorry."
  debounceMillis := 100

/-- A firing starts its run, whose execution is over at once, and the batch goes back. -/
def disclaimed (g : Nat) : List Event :=
  starting g ++ [.run g (.access none), .run g (.access none), .run g .lease, .run g .release,
    .run g (.access none), .run g .arm] ++ returning g g

/-- Somebody other than the timer queue runs the handler, and again while the engine is at work. -/
def handledTwice : List Event :=
  let ticket : Ticket := ⟨"u", "chat", "A"⟩
  [.enqueue ticket "one" "m1" 5, .push 0 none, .handle ticket.payload ⟨"combine:u", 1, 1⟩] ++
    asking 0 ++
    [.enqueue ticket "two" "m2" 6, .push 1 none, .handle ticket.payload ⟨"combine:u", 1, 1⟩] ++
    asking 1 ++ [.run 0 (.generated (.error .cancelled)), .run 0 .release]

/-- One message is enough for two runs that are superseded, without any notice, if a transformer
says so; and a run supersedes another one if it is not left to the timer queue. -/
theorem superseded_without_notice :
    (let c := course disclaiming ({} : Memory) .none
      (accepting 0 ⟨"u", "chat", "A"⟩ "one" "m1" 5 ++ disclaimed 0 ++ disclaimed 1)
    Occurs disclaiming ({} : Memory) .none c.1 c.2.1 c.2.2 ∧
      (∀ t ∈ c.1, t.event.isOwn ∧ t.isHonest ∧ t.event.isCancelAll = false) ∧
      unheard c.1 = some ["u"] ∧ heard "u" c.1 = 0 ∧ calls "u" c.1 = 1 ∧
      c.2.2.superseded "u" = 2) ∧
    let c := course plain ({} : Memory) .none handledTwice
    Occurs plain ({} : Memory) .none c.1 c.2.1 c.2.2 ∧ plain.IsHonest ∧
      (∀ t ∈ c.1, t.isHonest ∧ t.event.isCancelAll = false) ∧ heard "u" c.1 = 0 ∧
      c.2.2.superseded "u" = 1 := by
  refine ⟨⟨occurs_course .., by decide +kernel⟩, occurs_course .., ?_, by decide +kernel⟩
  simp [Setup.IsHonest, plain]

end Relay
end ChatRelay
