import ChatRelay.Proofs.Batch.Ledger
import ChatRelay.Proofs.Relay.Conservation
import ChatRelay.Proofs.Relay.Firings

/-!
# Batches in the order of acceptance

What is executed is made of the open messages of a user as they were accepted, however often they
were taken and put back before, as long as none of them has crossed.
-/

namespace ChatRelay.Relay
open Timer

def atWork (relay : Relay) (user : String) : List BatchRun :=
  relay.runs.filter fun r => r.ticket.user = user && r.result?.isNone

/-- The account of the user's open messages. -/
def ledger (user : String) : History → Ledger
  | [] => {}
  | t :: h =>
    (ledger user h).next user t.deed ((t.before.atWork user).flatMap (·.held))
      ((t.after.atWork user).flatMap (·.held))

def standing {σ : Type} [Store σ] (relay : Relay) (s : σ) (user : String) : Standing :=
  ⟨waiting s user, (relay.atWork user).flatMap (·.held),
    (relay.atWork user).any (·.isReturning)⟩

/-! ## The run at work -/

theorem filter_of_alone {α : Type} {p : α → Bool} {l : List α} {i : Nat} {a : α}
    (ha : l[i]? = some a) (h : ∀ {k b}, l[k]? = some b → k ≠ i → p b = false) :
    l.filter p = if p a then [a] else [] := by
  induction l generalizing i with
  | nil => simp at ha
  | cons c l ih =>
    cases i with
    | zero =>
      obtain rfl : c = a := by simpa using ha
      have hnone : l.filter p = [] := by
        apply List.filter_eq_nil_iff.mpr
        intro b hb
        obtain ⟨k, hk⟩ := List.mem_iff_getElem?.mp hb
        simp [h (k := k + 1) (by simpa using hk) (by omega)]
      rw [List.filter_cons, hnone]
    | succ i =>
      have hc : p c = false := h (k := 0) rfl (by omega)
      rw [List.filter_cons, if_neg (by simp [hc])]
      exact ih (by simpa using ha) fun {k b} hk hne =>
        h (k := k + 1) (by simpa using hk) (by omega)

theorem filter_set_of_alone {α : Type} {p : α → Bool} {l : List α} {i : Nat} {a : α}
    (ha : l[i]? = some a) (h : ∀ {k b}, l[k]? = some b → k ≠ i → p b = false) (b : α) :
    (l.set i b).filter p = if p b then [b] else [] :=
  filter_of_alone (List.getElem?_set_self (List.getElem?_eq_some_iff.mp ha).1) fun hk hne =>
    h ((List.getElem?_set_ne (Ne.symm hne)).symm.trans hk) hne

theorem filter_set_of_neg {α : Type} {p : α → Bool} {l : List α} {i : Nat} {a b : α}
    (ha : l[i]? = some a) (hpa : p a = false) (hpb : p b = false) :
    (l.set i b).filter p = l.filter p := by
  induction l generalizing i with
  | nil => rfl
  | cons c l ih =>
    cases i with
    | zero =>
      obtain rfl : c = a := by simpa using ha
      simp [hpa, hpb]
    | succ i =>
      rw [List.set_cons_succ, List.filter_cons, List.filter_cons, ih (by simpa using ha)]

theorem held_of_finished {r : BatchRun} {o : Except RelayError Unit} (h : r.result? = some o) :
    r.held = [] ∧ r.isReturning = false := by
  cases hp : r.phase <;> simp_all [BatchRun.result?, BatchRun.held, BatchRun.isReturning]

section
variable {σ : Type} [Store σ]

/-- The messages of a user stand as the run has it that is alone at work. -/
theorem standing_of_alone {relay : Relay} (s : σ) {i : Nat} {r : BatchRun}
    (hr : relay.runs[i]? = some r) (h : ∀ {k r₀}, relay.runs[k]? = some r₀ → k ≠ i →
      r₀.ticket.user = r.ticket.user → r₀.result? ≠ none) :
    relay.standing s r.ticket.user = r.standing s := by
  have hwork := filter_of_alone (p := fun r₀ => r₀.ticket.user = r.ticket.user && r₀.result?.isNone)
    hr fun {k r₀} hk hne => by
      by_cases hu : r₀.ticket.user = r.ticket.user
      · simpa [hu] using Option.ne_none_iff_isSome.mp (h hk hne hu)
      · simp [hu]
  cases ho : r.result? with
  | none => simp [standing, BatchRun.standing, atWork, hwork, ho]
  | some o =>
    obtain ⟨hheld, hret⟩ := held_of_finished ho
    simp [standing, BatchRun.standing, atWork, hwork, ho, hheld, hret]

theorem standing_of_runs {relay relay' : Relay} {s s' : σ} (h : relay'.runs = relay.runs)
    {user : String} {ms : List Pending} (hw : waiting s' user = ms) :
    relay'.standing s' user =
      ⟨ms, (relay.standing s user).held, (relay.standing s user).returning⟩ := by
  simp only [standing, atWork, h, hw]

/-- A run that starts holds nothing yet. -/
theorem standing_of_started {relay relay' : Relay} (s : σ) {new : BatchRun}
    (h : relay'.runs = relay.runs ++ [new]) (hp : new.phase = .draining) (user : String) :
    relay'.standing s user = relay.standing s user := by
  have hheld : new.held = [] := by simp [BatchRun.held, hp]
  have hret : new.isReturning = false := by simp [BatchRun.isReturning, hp]
  by_cases hnew : new.ticket.user = user && new.result?.isNone
  · simp only [standing, atWork, h, List.filter_append, List.filter_singleton, hnew]
    simp [hheld, hret]
  · simp only [standing, atWork, h, List.filter_append, List.filter_singleton, hnew]
    simp

end

section
variable {σ : Type} [Store σ] [LawfulStore σ] {setup : Setup} {s s' : σ} {relay relay' : Relay}
  {d : Deed}

theorem progress_concerns {r r' : BatchRun} (h : r.Progress s d s' r') {user : String}
    (hu : r.ticket.user ≠ user) : (∀ m, d ≠ .accepted user m) ∧ ∀ m, d ≠ .putBack user m := by
  cases h <;> simp [hu]

/-- An event in a run of somebody else does not concern a user. -/
theorem moves_of_ne {i : Nat} {r r' : BatchRun} (hr : relay.runs[i]? = some r)
    (hp : r.Progress s d s' r') (hruns : relay'.runs = relay.runs.set i r') {user : String}
    (hu : r.ticket.user ≠ user) (hw : waiting s' user = waiting s user)
    (answered : String → Prop) :
    Standing.Moves answered user d (relay.standing s user) (relay'.standing s' user) := by
  have hwork : relay'.atWork user = relay.atWork user := by
    rw [atWork, atWork, hruns]
    exact filter_set_of_neg hr (by simp [hu]) (by simp [hp.frame.1, hu])
  have hsame : relay'.standing s' user = relay.standing s user := by
    simp only [standing, hwork, hw]
  obtain ⟨hacc, hback⟩ := progress_concerns hp hu
  rw [hsame]
  exact .stays _ hacc hback

/-- The run that gets on is the only one of its user at work, and moves the messages of the user. -/
theorem moves_of_run (hs : LawfulStore.Sound s) (ht : relay.Tended) (hm : relay.Matched)
    (hq : relay.queue.Sound) {h : History} (hb : Balanced h s relay) {i : Nat} {r r' : BatchRun}
    (hr : relay.runs[i]? = some r) (hp : r.Progress s d s' r')
    (hruns : relay'.runs = relay.runs.set i r') :
    Standing.Moves (AnsweredIds.Marked s r.ticket.user) r.ticket.user d
      (relay.standing s r.ticket.user) (relay'.standing s' r.ticket.user) := by
  cases ho : r.result? with
  | some o =>
    obtain ⟨rfl, rfl, rfl⟩ := hp.eq_of_finished ho
    rw [set_of_getElem? hr] at hruns
    rw [standing_of_runs (s := s') hruns rfl]
    exact .stays _ nofun nofun
  | none =>
    have halone : ∀ {k r₀}, relay.runs[k]? = some r₀ → k ≠ i →
        r₀.ticket.user = r.ticket.user → r₀.result? ≠ none := fun hk hne hu ho₀ =>
      hne (hm.eq_of_unfinished hq hk hr hu ho₀ ho)
    have hlen := (List.getElem?_eq_some_iff.mp hr).1
    have hafter : relay'.standing s' r'.ticket.user = r'.standing s' := by
      refine standing_of_alone s' (i := i) (by rw [hruns, List.getElem?_set_self hlen]) ?_
      intro k r₀ hk hne hu
      rw [hruns, List.getElem?_set_ne (Ne.symm hne)] at hk
      exact halone hk hne (hu.trans (congrArg Ticket.user hp.frame.1))
    rw [hp.frame.1] at hafter
    rw [standing_of_alone s hr halone, hafter]
    exact hp.moves hs (ht.orderly hr) (hb.heldStorable hr)

/-- An event moves the messages of a user so, if it concerns them at all. -/
theorem Happens.moves (hap : Happens setup s relay d s' relay') (hs : LawfulStore.Sound s)
    (ht : relay.Tended) (hm : relay.Matched) (hq : relay.queue.Sound) {h : History}
    (hb : Balanced h s relay) (user : String) :
    Standing.Moves (AnsweredIds.Marked s user) user d (relay.standing s user)
      (relay'.standing s' user) := by
  have hsame : ∀ {ms : List Pending}, relay'.runs = relay.runs → waiting s' user = ms →
      relay'.standing s' user =
        ⟨ms, (relay.standing s user).held, (relay.standing s user).returning⟩ :=
    fun h hw => standing_of_runs h hw
  have hstarted : ∀ {new : BatchRun}, relay'.runs = relay.runs ++ [new] →
      new.phase = .draining → relay'.standing s user = relay.standing s user :=
    fun h hp => standing_of_started s h hp user
  have hran : ∀ {i : Nat} {r r' : BatchRun}, relay.runs[i]? = some r → r.Progress s d s' r' →
      relay'.runs = relay.runs.set i r' →
      Standing.Moves (AnsweredIds.Marked s user) user d (relay.standing s user)
        (relay'.standing s' user) := by
    intro i r r' hr hp hruns
    by_cases hu : r.ticket.user = user
    · subst hu
      exact moves_of_run hs ht hm hq hb hr hp hruns
    · have hothers := (hp.messages hs (ht.orderly hr) (hb.heldStorable hr)).2
      exact moves_of_ne hr hp hruns hu (hothers user (Ne.symm hu)) _
  cases hap with
  | @accepted i dep m left hd hp =>
    have hstor : m.IsStorable := hb.deposits hd m (by rw [hp]; exact List.mem_cons_self)
    by_cases hu : dep.ticket.user = user
    · subst hu
      have hw := (waiting_push hs dep.ticket.user dep.ticket.user hstor).trans (if_pos rfl)
      rw [hsame rfl hw]
      exact .arrived m _
    · have hw := (waiting_push hs dep.ticket.user user hstor).trans (if_neg (Ne.symm hu))
      rw [hsame rfl hw]
      exact .stays _ (by simp [hu]) (by simp)
  | started hf hp htask hl =>
    rw [hstarted rfl rfl]
    exact .stays _ nofun nofun
  | ran leases hr hp hne => exact hran hr hp rfl
  | rearmed hr hp hd hq => exact hran hr (.rearmed _ hp hd) rfl
  | _ => exact .stays _ nofun nofun

/-! ## The account of a history -/

theorem Happens.marked_stays (hap : Happens setup s relay d s' relay') {user id : String}
    (hm : AnsweredIds.Marked s user id) : AnsweredIds.Marked s' user id := by
  cases hap with
  | accepted hd hp => exact marked_push.mpr hm
  | ran leases hr hp hne =>
    cases hp with
    | drained hp => exact marked_takeAll.mpr hm
    | executed hp hx hst => exact (hst.marked user id).mpr hm
    | requeued hp hd => exact marked_push.mpr hm
    | restored hp => exact marked_push.mpr hm
    | marked hp => exact LawfulStore.marked_mark.mpr (.inr hm)
    | _ => exact hm
  | _ => exact hm

theorem Comes.keeps {s₀ : σ} {policy : RetryPolicy} {h : History} (hs : IsEmptied s₀)
    (hc : Comes setup s₀ policy h s relay) (user : String) :
    (ledger user h).Keeps (AnsweredIds.Marked s user) (relay.standing s user) := by
  refine hc.invariant (P := fun h s relay =>
    (ledger user h).Keeps (AnsweredIds.Marked s user) (relay.standing s user)) ?_ ?_
  · have hnone : waiting s₀ user = [] := congrArg Pending.decodeAll (hs.texts user)
    rw [standing, hnone]
    exact .opened _ [] false
  · intro h s relay d s' relay' t hc ih hb ha hd hap
    have hmoves := hap.moves (hc.sound hs.sound) hc.tended hc.matched hc.queue_sound
      (hc.balanced hs) user
    rw [ledger, hb, ha, hd]
    exact (ih.step hmoves).mono fun id => hap.marked_stays

/-- The open messages are the last that were accepted. -/
theorem Comes.ledger_suffix {s₀ : σ} {policy : RetryPolicy} {h : History} (hs : IsEmptied s₀)
    (hc : Comes setup s₀ policy h s relay) (user : String) :
    (ledger user h).covered ++ (ledger user h).arrived <:+ accepted user h := by
  refine hc.invariant (P := fun h _ _ =>
    (ledger user h).covered ++ (ledger user h).arrived <:+ accepted user h)
    List.nil_suffix ?_
  intro h s relay d s' relay' t hc ih hb ha hd hap
  have hidle := (hc.keeps hs user).idle
  rw [ledger, accepted, hb, ha, hd]
  exact Ledger.next_suffix ih fun hnone => (hidle hnone).1

/-- A run executes the open messages that it covers just as they were accepted, unless some have
crossed; and if some have, and no two of them are alike, it does not. For any to cross, two must
have a time or a source id in common. -/
theorem executed_as_accepted {s₀ : σ} {policy : RetryPolicy} {h : History} (hs : IsEmptied s₀)
    (hc : Comes setup s₀ policy h s relay) {i : Nat} {r : BatchRun} {batch : List Pending}
    {lease : Nat} {x : Execution} (hr : relay.runs[i]? = some r)
    (hp : r.phase = .executing batch lease x)
    (hu : Ledger.Unanswered (AnsweredIds.Marked s r.ticket.user)
      (ledger r.ticket.user h).covered) :
    let l := ledger r.ticket.user h
    l.covered ++ l.arrived <:+ accepted r.ticket.user h ∧
      (∀ q, x.request? = some q → q.message = Batch.merge batch) ∧
      (l.crossed = false → batch = Batch.normalize l.covered) ∧
      (l.crossed = true → l.covered.Nodup → batch ≠ Batch.normalize l.covered) ∧
      (l.crossed = true → ¬ Batch.Spread l.covered) := by
  have horderly := hc.tended.orderly hr
  simp only [BatchRun.Orderly, hp] at horderly
  obtain ⟨hne, hnormal, hrequest⟩ := horderly
  have hunfinished : r.result? = none := by simp [BatchRun.result?, hp]
  have hstanding := standing_of_alone s hr fun {k r₀} hk hki hsame ho =>
    hki (hc.matched.eq_of_unfinished hc.queue_sound hk hr hsame ho hunfinished)
  have hnow : r.standing s = ⟨waiting s r.ticket.user, batch, false⟩ := by
    simp [BatchRun.standing, BatchRun.held, BatchRun.isReturning, hp]
  have hkeeps := hc.keeps hs r.ticket.user
  rw [hstanding, hnow] at hkeeps
  have htracks := hkeeps.batch rfl hne hu
  refine ⟨hc.ledger_suffix hs _, fun q hq => by rw [hrequest q hq]; rfl, fun hcr => ?_,
    fun hcr hnodup heq => htracks.differs hcr hnodup ?_, htracks.near⟩
  · exact hnormal.symm.trans (htracks.agrees (by simp [hcr]))
  · exact hnormal.trans heq

end

/-- A message is taken, another one comes in, and both are taken after the first is back. -/
def joining : List Event :=
  accepting 0 ⟨"u", "chat", "A"⟩ "one" "m1" 5 ++ starting 0 ++ asking 0 ++
    accepting 1 ⟨"u", "chat", "A"⟩ "two" "m2" 6 ++ superseding 0 "u" ++ returning 0 0 ++
    starting 2 ++ asking 1

theorem joining_executed_as_accepted :
    let last := course plain ({} : Memory) .none joining
    ∃ (r : BatchRun) (batch : List Pending) (lease : Nat) (x : Execution),
      last.2.2.runs[1]? = some r ∧ r.phase = .executing batch lease x ∧
        batch = Batch.normalize (accepted "u" last.1) := by
  let last := course plain ({} : Memory) .none joining
  have hfacts : admitsAll plain joining ({} : Memory) (Relay.fresh .none) ∧
      last.2.2.runs[1]?.map (·.ticket.user) = some "u" ∧
      (last.2.2.runs[1]?.bind (·.execution?)).isSome ∧
      (∀ m ∈ (ledger "u" last.1).covered, m.sourceId ≠ "" →
        m.sourceId ∉ AnsweredIds.seen last.2.1 "u" [m.sourceId]) ∧
      (ledger "u" last.1).crossed = false ∧
      (ledger "u" last.1).covered = accepted "u" last.1 := by decide +kernel
  obtain ⟨hadmits, hticket, hx, hfresh, hcrossed, hcovered⟩ := hfacts
  obtain ⟨r, hr, hu⟩ := Option.map_eq_some_iff.mp hticket
  rw [hr] at hx
  cases hp : r.phase with
  | executing batch lease x =>
    have h := executed_as_accepted isEmptied_memory (comes_course plain ({} : Memory) .none joining
      hadmits) hr hp
    rw [hu] at h
    refine ⟨r, batch, lease, x, hr, hp, ?_⟩
    rw [(h hfresh).2.2.1 hcrossed]
    exact congrArg Batch.normalize hcovered
  | _ => simp [BatchRun.execution?, hp] at hx

/-- A message comes in once more while a run has its first copy, and is taken again after that is
back. -/
def redelivering : List Event :=
  accepting 0 ⟨"u", "chat", "A"⟩ "first copy" "m1" 5 ++ starting 0 ++ asking 0 ++
    accepting 1 ⟨"u", "chat", "A"⟩ "second copy" "m1" 6 ++ superseding 0 "u" ++ returning 0 0 ++
    starting 2 ++ asking 1

theorem redelivering_keeps_second :
    let last := course plain ({} : Memory) .none redelivering
    let answered := course plain ({} : Memory) .none
      (redelivering ++ concluding 1 (.ok ⟨"reply", []⟩))
    accepted "u" last.1 = [⟨"first copy", "m1", 5, "A"⟩, ⟨"second copy", "m1", 6, "A"⟩] ∧
      AnsweredIds.seen last.2.1 "u" ["m1"] = [] ∧
      ((last.2.2.runs[1]?.bind (·.execution?)).bind (·.request?)).map (·.message) =
        some "[A]: second copy" ∧
      answered.2.2.inRuns BatchRun.answered "u" = [⟨"second copy", "m1", 6, "A"⟩] ∧
      Batch.merge (Batch.normalize (accepted "u" last.1)) = "[A]: first copy" := by
  decide +kernel

end ChatRelay.Relay
