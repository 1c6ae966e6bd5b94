import ChatRelay.Proofs.Fleet.Basic
import ChatRelay.Proofs.Fleet.Pursuit
import ChatRelay.Proofs.Relay.Firings

/-!
# Messages that are delivered again

A message may be delivered again, to the same relay or to another one. Runs look their ids up before
they execute a batch, and mark them afterwards; so an id is answered again only by a run that looked
it up while the run that answers it first had not marked it yet.
-/

namespace ChatRelay.Fleet
open AnsweredIds

section
variable (fleet : Fleet) (user id : String) (p : Place)

/-- Whether a run is at work on an id of a user. -/
def Pursues : Prop :=
  ∃ r ∈ fleet.run? p, r.ticket.user = user ∧ id ∈ Batch.sourceIds r.pursued

/-- Whether a run has answered a batch with an id of a user. -/
def Answers : Prop :=
  ∃ r ∈ fleet.run? p, r.ticket.user = user ∧ id ∈ Batch.sourceIds r.answered

/-- Whether a run has made a batch with an id of a user, whatever became of it. -/
def Holds : Prop :=
  ∃ r ∈ fleet.run? p, r.ticket.user = user ∧ id ∈ Batch.sourceIds r.batch

def Replies : Prop := ∃ r ∈ fleet.run? p, r.answered ≠ []

instance : Decidable (fleet.Pursues user id p) := inferInstanceAs (Decidable (∃ r ∈ _, _))

instance : Decidable (fleet.Answers user id p) := inferInstanceAs (Decidable (∃ r ∈ _, _))

end

def Moment.sparesIds (t : Moment) : Bool :=
  match t.event with
  | .run i e => (t.fleet.run? ⟨t.relay, i⟩).all (·.sparesIds e)
  | _ => true

def Moment.admits (t : Moment) : Bool := t.fleet[t.relay]?.all (·.relay.admits t.event)

section
variable {σ : Type} [Store σ] [LawfulStore σ] {s : σ} {fleet : Fleet} {k : Nat} {e : Relay.Event}
  {user id : String} {p : Place}

/-- What a run pursues after an event, it pursued before, or the id is not marked. -/
theorem Pursues.before (hst : fleet.Steady) (hs : Moment.sparesIds ⟨fleet, k, e⟩)
    (hp : (fleet.step s k e).2.Pursues user id p) :
    fleet.Pursues user id p ∨ ¬ Marked (fleet.step s k e).1 user id := by
  obtain ⟨r', hr', rfl, hid⟩ := hp
  cases onward hst hr' with
  | @turned r re setup hk he hr ht =>
    subst hk he
    have hspare : r.sparesIds re := by simpa [Moment.sparesIds, hr] using hs
    rw [ht.frame.1]
    exact (ht.pursues_of hspare hid).imp_left fun hold => ⟨r, hr, rfl, hold⟩
  | stayed hr => exact .inl ⟨r', hr, rfl, hid⟩
  | started payload attempt firing hr heq =>
    rw [heq, BatchRun.pursued_ofPayload] at hid
    cases hid

/-- What a run has answered after an event, it has pursued before, unless the run stayed as it
was. It pursues it still, or the id is marked. -/
theorem Answers.before (hst : fleet.Steady) (hs : Moment.sparesIds ⟨fleet, k, e⟩)
    (ha : (fleet.step s k e).2.Answers user id p) :
    fleet.Answers user id p ∧ (fleet.step s k e).2.run? p = fleet.run? p ∨
      fleet.Pursues user id p ∧ ((fleet.step s k e).2.Pursues user id p ∨
        Marked (fleet.step s k e).1 user id) := by
  obtain ⟨r', hr', rfl, hid⟩ := ha
  cases onward hst hr' with
  | @turned r re setup hk he hr ht =>
    subst hk he
    have hspare : r.sparesIds re := by simpa [Moment.sparesIds, hr] using hs
    rcases ht.answers_of (hst hr) hspare hid with ⟨rfl, -⟩ | ⟨hpur, hnow⟩
    · exact .inl ⟨⟨r', hr, rfl, hid⟩, hr'.trans hr.symm⟩
    · rw [ht.frame.1]
      exact .inr ⟨⟨r, hr, rfl, hpur⟩, hnow.imp_left fun hid' =>
        ⟨r', hr', congrArg Ticket.user ht.frame.1, hid'⟩⟩
  | stayed hr => exact .inl ⟨⟨r', hr, rfl, hid⟩, hr'.trans hr.symm⟩
  | started payload attempt firing hr heq =>
    rw [heq, BatchRun.answered_ofPayload] at hid
    cases hid

end

/-! ## What becomes of a batch -/

section
variable {σ : Type} [Store σ] [LawfulStore σ] {s₀ s : σ} {fleet : Fleet} {k : Nat}
  {e : Relay.Event} {user id : String} {p : Place}

theorem Pursues.holds (hp : fleet.Pursues user id p) : fleet.Holds user id p := by
  obtain ⟨r, hr, hu, hid⟩ := hp
  have hne : r.pursued ≠ [] := Batch.ne_nil_of_mem_sourceIds hid
  exact ⟨r, hr, hu, BatchRun.batch_of_pursued hne ▸ hid⟩

/-- A run answers all of its batch or nothing. -/
theorem answers_iff : fleet.Answers user id p ↔ fleet.Holds user id p ∧ fleet.Replies p := by
  constructor
  · rintro ⟨r, hr, hu, hid⟩
    have hne : r.answered ≠ [] := Batch.ne_nil_of_mem_sourceIds hid
    exact ⟨⟨r, hr, hu, BatchRun.batch_of_answered hne ▸ hid⟩, r, hr, hne⟩
  · rintro ⟨⟨r, hr, hu, hid⟩, r', hr', hne⟩
    obtain rfl : r = r' := Option.some.inj (hr.symm.trans hr')
    exact ⟨r, hr, hu, (BatchRun.batch_of_answered hne).symm ▸ hid⟩

theorem Holds.step (hst : fleet.Steady) (hp : fleet.Holds user id p) :
    (fleet.step s k e).2.Holds user id p := by
  obtain ⟨r, hr, hu, hid⟩ := hp
  have hne : r.batch ≠ [] := Batch.ne_nil_of_mem_sourceIds hid
  obtain ⟨r', hr'⟩ := run_stays (s := s) (k := k) (e := e) hst hr
  refine ⟨r', hr', ?_⟩
  cases onward hst hr' with
  | @turned r₀ re setup hk he hr₀ ht =>
    obtain rfl : r = r₀ := Option.some.inj (hr.symm.trans hr₀)
    rw [ht.frame.1, ht.batch_stays (hst hr) hne]
    exact ⟨hu, hid⟩
  | stayed hr₀ =>
    obtain rfl : r = r' := Option.some.inj (hr.symm.trans hr₀)
    exact ⟨hu, hid⟩
  | started payload attempt firing hnone heq =>
    rw [hr] at hnone
    cases hnone

theorem Occurs.holds {members : List (Relay.Setup × RetryPolicy)} {past : Past}
    (ho : Occurs members s₀ past s fleet) {f : Fleet} (hf : f ∈ trail past fleet)
    (hp : f.Pursues user id p) : fleet.Holds user id p := by
  induction ho with
  | fresh =>
    obtain rfl : f = Fleet.fresh members := by simpa [trail] using hf
    exact hp.holds
  | step k e ho ih =>
    rcases List.mem_cons.mp hf with rfl | hf
    · exact hp.holds
    · exact (ih hf).step ho.steady

end

/-! ## Runs at work on one id at a time -/

/-- Whether a run is at work on an id, or has answered it. -/
def Engages (fleet : Fleet) (user id : String) (p : Place) : Prop :=
  fleet.Pursues user id p ∨ fleet.Answers user id p

/-- What is so of a fleet over answered ids that do not fail. -/
structure Settled {σ : Type} [Store σ] (s₀ : σ) (past : Past) (s : σ) (fleet : Fleet) : Prop where
  /-- What was marked at first is marked, and nobody is at work on it. -/
  first : ∀ {user id : String}, Marked s₀ user id →
    Marked s user id ∧ ∀ p, ¬ fleet.Engages user id p
  marked : ∀ {user id : String} {p : Place}, fleet.Answers user id p →
    fleet.Pursues user id p ∨ Marked s user id
  together : ∀ {user id : String} {p q : Place}, p ≠ q → fleet.Engages user id p →
    fleet.Engages user id q → ∃ f ∈ trail past fleet, f.Pursues user id p ∧ f.Pursues user id q

theorem settled_fresh {σ : Type} [Store σ] (s₀ : σ) (members : List (Relay.Setup × RetryPolicy)) :
    Settled s₀ [] s₀ (fresh members) where
  first hm := ⟨hm, by simp [Engages, Pursues, Answers, run?_fresh]⟩
  marked ha := by simp [Answers, run?_fresh] at ha
  together _ hp := by simp [Engages, Pursues, Answers, run?_fresh] at hp

section
variable {σ : Type} [Store σ] [LawfulStore σ] {s₀ s : σ} {past : Past} {fleet : Fleet} {k : Nat}
  {e : Relay.Event} {user id : String} {p : Place}

theorem Engages.before (hst : fleet.Steady) (hs : Moment.sparesIds ⟨fleet, k, e⟩)
    (hp : (fleet.step s k e).2.Engages user id p) :
    fleet.Engages user id p ∨
      (fleet.step s k e).2.Pursues user id p ∧ ¬ Marked (fleet.step s k e).1 user id := by
  rcases hp with hp | hp
  · rcases hp.before hst hs with hold | hm
    · exact .inl (.inl hold)
    · exact .inr ⟨hp, hm⟩
  · rcases hp.before hst hs with ⟨hold, -⟩ | ⟨hold, -⟩
    · exact .inl (.inr hold)
    · exact .inl (.inl hold)

theorem Settled.step (h : Settled s₀ past s fleet) (hst : fleet.Steady)
    (hs : Moment.sparesIds ⟨fleet, k, e⟩) :
    Settled s₀ (⟨fleet, k, e⟩ :: past) (fleet.step s k e).1 (fleet.step s k e).2 := by
  have hmarked : ∀ {user id : String} {p : Place}, (fleet.step s k e).2.Answers user id p →
      (fleet.step s k e).2.Pursues user id p ∨ Marked (fleet.step s k e).1 user id := by
    intro user id p ha
    rcases ha.before hst hs with ⟨hold, hsame⟩ | ⟨-, hnow⟩
    · refine (h.marked hold).imp (fun hp => ?_) (marked_stays hst)
      rwa [Pursues, hsame]
    · exact hnow
  -- a run gets to work where the id is not marked, so those that have answered it are at work too
  have hmeet : ∀ {user id : String} {p q : Place}, (fleet.step s k e).2.Pursues user id p →
      ¬ Marked (fleet.step s k e).1 user id → (fleet.step s k e).2.Engages user id q →
      ∃ f ∈ trail (⟨fleet, k, e⟩ :: past) (fleet.step s k e).2,
        f.Pursues user id p ∧ f.Pursues user id q := by
    intro user id p q hp hm hq
    exact ⟨_, List.mem_cons_self, hp, hq.elim (fun hq => hq)
      fun hq => (hmarked hq).resolve_right hm⟩
  refine ⟨fun hm => ?_, hmarked, fun hne hp hq => ?_⟩
  · obtain ⟨hm', hnone⟩ := h.first hm
    have hstays := marked_stays (k := k) (e := e) hst hm'
    refine ⟨hstays, fun p hp => ?_⟩
    rcases hp.before hst hs with hold | ⟨-, hnot⟩
    · exact hnone p hold
    · exact hnot hstays
  · rcases hp.before hst hs with hpold | ⟨hpnew, hm⟩
    · rcases hq.before hst hs with hqold | ⟨hqnew, hm⟩
      · obtain ⟨f, hf, hboth⟩ := h.together hne hpold hqold
        exact ⟨f, List.mem_cons_of_mem _ hf, hboth⟩
      · obtain ⟨f, hf, hq', hp'⟩ := hmeet hqnew hm hp
        exact ⟨f, hf, hp', hq'⟩
    · exact hmeet hpnew hm hq

theorem Occurs.settled {members : List (Relay.Setup × RetryPolicy)}
    (ho : Occurs members s₀ past s fleet) (hs : ∀ t ∈ past, t.sparesIds) :
    Settled s₀ past s fleet := by
  -- the ids are spared at every moment, so the invariant is kept from each to the next
  induction ho with
  | fresh => exact settled_fresh s₀ members
  | step k e ho ih =>
    rw [List.forall_mem_cons] at hs
    exact (ih hs.2).step ho.steady hs.1

end

/-! ## Runs of one relay -/

/-- What goes without saying for a relay over lists that do not fail. -/
structure Member.Tidy (m : Member) : Prop where
  tended : m.relay.Tended
  matched : m.relay.Matched
  queue : m.relay.queue.Sound

section
variable {σ : Type} [Store σ] [LawfulStore σ] {s₀ s : σ} {past : Past} {fleet : Fleet}

theorem tidy_fresh (members : List (Relay.Setup × RetryPolicy)) : ∀ m ∈ fresh members, m.Tidy := by
  intro m hm
  obtain ⟨⟨setup, policy⟩, -, rfl⟩ := List.mem_map.mp hm
  have hc : Relay.Comes setup ({} : Memory) policy [] {} (.fresh policy) := .fresh
  exact ⟨hc.tended, hc.matched, hc.queue_sound⟩

theorem Member.Tidy.step {m : Member} (h : m.Tidy) {e : Relay.Event} (ha : m.relay.admits e) :
    Member.Tidy { m with relay := (m.relay.step m.setup s e).2 } := by
  have hap := Relay.happens_step m.setup s h.tended ha
  refine ⟨hap.tended h.tended, h.matched.step hap, ?_⟩
  obtain ⟨qe, hq | hq, -⟩ := hap.keeps
  · exact hq ▸ h.queue
  · exact hq ▸ h.queue.step qe

theorem Occurs.tidy {members : List (Relay.Setup × RetryPolicy)}
    (ho : Occurs members s₀ past s fleet) (ha : ∀ t ∈ past, t.admits) :
    ∀ f ∈ trail past fleet, ∀ m ∈ f, m.Tidy := by
  induction ho with
  | fresh => simpa [trail] using tidy_fresh members
  | @step past s fleet k e ho ih =>
    rw [List.forall_mem_cons] at ha
    have hall := ih ha.2
    refine List.forall_mem_cons.mpr ⟨fun m' hm' => ?_, hall⟩
    have hnow : ∀ m ∈ fleet, m.Tidy := hall fleet List.mem_cons_self
    unfold Fleet.step at hm'
    split at hm'
    · next m hm =>
      rcases List.mem_or_eq_of_mem_set hm' with hold | rfl
      · exact hnow m' hold
      · refine (hnow m (List.mem_of_getElem? hm)).step ?_
        simpa [Moment.admits, hm] using ha.1
    · exact hnow m' hm'

/-- Of the runs of one relay, one at most is at work on an id. -/
theorem Pursues.eq_of_relay {user id : String} {p q : Place} (ht : ∀ m ∈ fleet, m.Tidy)
    (hp : fleet.Pursues user id p) (hq : fleet.Pursues user id q) (hr : p.relay = q.relay) :
    p = q := by
  obtain ⟨r, hrun, rfl, hid⟩ := hp
  obtain ⟨r', hrun', hu, hid'⟩ := hq
  have hunfinished : ∀ {r : BatchRun}, id ∈ Batch.sourceIds r.pursued → r.result? = none := by
    intro r hid
    cases hphase : r.phase <;>
      simp_all [BatchRun.pursued, BatchRun.result?, Batch.sourceIds]
  cases hm : fleet[p.relay]? with
  | none => simp [run?, hm] at hrun
  | some m =>
    have hi : m.relay.runs[p.run]? = some r := (run?_of_getElem? hm).symm.trans hrun
    have hj : m.relay.runs[q.run]? = some r' := (run?_of_getElem? (hr ▸ hm)).symm.trans hrun'
    obtain ⟨-, hmatched, hqueue⟩ := ht m (List.mem_of_getElem? hm)
    have heq := hmatched.eq_of_unfinished hqueue hi hj hu.symm (hunfinished hid) (hunfinished hid')
    cases p
    cases q
    simp_all

/-- Over answered ids that do not fail, two runs answer an id if and only if they have both been at
work on it at one time and have both come to a reply. An id that was marked at first is not
answered, and of the runs of one relay whose lists do not fail, one at most answers an id. -/
theorem answered_twice_only_together {members : List (Relay.Setup × RetryPolicy)} {s₀ : σ}
    (es : List (Nat × Relay.Event)) (hs : ∀ t ∈ (course members s₀ es).1, t.sparesIds)
    (user id : String) :
    let last := course members s₀ es
    (∀ p q, p ≠ q → (last.2.2.Answers user id p ∧ last.2.2.Answers user id q ↔
      (∃ f ∈ trail last.1 last.2.2, f.Pursues user id p ∧ f.Pursues user id q) ∧
        last.2.2.Replies p ∧ last.2.2.Replies q)) ∧
    (Marked s₀ user id → ∀ p, ¬ last.2.2.Answers user id p) ∧
    ((∀ t ∈ last.1, t.admits) → ∀ p q, p.relay = q.relay → last.2.2.Answers user id p →
      last.2.2.Answers user id q → p = q) := by
  intro last
  have ho := occurs_course members s₀ es
  have hsettled := ho.settled hs
  refine ⟨fun p q hne => ⟨fun ⟨hp, hq⟩ => ?_, fun ⟨⟨f, hf, hp, hq⟩, hrp, hrq⟩ => ?_⟩,
    fun hm p hp => (hsettled.first hm).2 p (.inr hp), fun ha p q hr hp hq => ?_⟩
  · exact ⟨hsettled.together hne (.inr hp) (.inr hq), (answers_iff.mp hp).2, (answers_iff.mp hq).2⟩
  · exact ⟨answers_iff.mpr ⟨ho.holds hf hp, hrp⟩, answers_iff.mpr ⟨ho.holds hf hq, hrq⟩⟩
  · by_contra hne
    obtain ⟨f, hf, hp', hq'⟩ := hsettled.together hne (.inr hp) (.inr hq)
    exact hne (hp'.eq_of_relay (ho.tidy ha f hf) hq' hr)

end

/-! ## Courses of events -/

def pair : List (Relay.Setup × RetryPolicy) := [(Relay.spoken, .none), (Relay.spoken, .none)]

/-- A message comes to both relays, to the second one while the engine is at work for the first. -/
def redelivering : List (Nat × Relay.Event) :=
  (Relay.accepting 0 ⟨"u", "chat", "A"⟩ "one" "m1" 5 ++ Relay.starting 0 ++ Relay.asking 0).map
      (0, ·) ++
    (Relay.accepting 0 ⟨"u", "chat", "A"⟩ "one" "m1" 6).map (1, ·)

/-- The task of the second relay comes up after the answer of the first. -/
def redeliveringLate : List (Nat × Relay.Event) :=
  redelivering ++ (Relay.replying 0 "reply 1").map (0, ·) ++
    (Relay.starting 0 ++ Relay.asking 0).map (1, ·)

theorem redeliveringLate_answered_once :
    let last := course pair ({} : Memory) redeliveringLate
    last.2.2.Answers "u" "m1" ⟨0, 0⟩ ∧ ¬ last.2.2.Answers "u" "m1" ⟨1, 0⟩ := by
  intro last
  have hfacts : (∀ t ∈ last.1, t.sparesIds) ∧ last.2.2.Answers "u" "m1" ⟨0, 0⟩ ∧
      ∀ f ∈ trail last.1 last.2.2,
        ¬ (f.Pursues "u" "m1" ⟨0, 0⟩ ∧ f.Pursues "u" "m1" ⟨1, 0⟩) := by decide +kernel
  obtain ⟨hspare, hfirst, happart⟩ := hfacts
  refine ⟨hfirst, fun hsecond => ?_⟩
  have h := answered_twice_only_together redeliveringLate hspare "u" "m1"
  obtain ⟨⟨f, hf, hboth⟩, -⟩ := (h.1 ⟨0, 0⟩ ⟨1, 0⟩ (by decide)).mp ⟨hfirst, hsecond⟩
  exact happart f hf hboth

/-- The task of the second relay comes up before the answer of the first. -/
def redeliveringEarly : List (Nat × Relay.Event) :=
  redelivering ++ (Relay.starting 0 ++ Relay.asking 0).map (1, ·) ++
    (Relay.replying 0 "reply 2").map (1, ·) ++ (Relay.replying 0 "reply 1").map (0, ·)

/-- Nothing fails, and both relays answer the message. -/
theorem redeliveringEarly_answers_twice :
    let last := course pair ({} : Memory) redeliveringEarly
    (∀ t ∈ last.1, t.sparesIds ∧ t.admits) ∧ last.2.2.Answers "u" "m1" ⟨0, 0⟩ ∧
      last.2.2.Answers "u" "m1" ⟨1, 0⟩ := by decide +kernel

end ChatRelay.Fleet
