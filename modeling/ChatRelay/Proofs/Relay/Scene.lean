import ChatRelay.Batch.Run
import ChatRelay.Proofs.Batch.Groups

/-!
# One user at a time

A scene is what matters of a relay to one user: the messages that wait, the timer that is pending,
and the run at work. Where time passes only when nothing is left to do at once, the scenes follow
each other in a round: messages gather until their group is due, a run takes them and makes its
request then, and the next messages come in when they are answered.
-/

namespace ChatRelay
open Batch

namespace BatchRun.Phase

def isPreparing : Phase → Bool
  | .draining | .checking _ | .leasing _ => true
  | _ => false

def atWork : Phase → List Phase
  | .finished _ => []
  | p => [p]

end BatchRun.Phase

structure Scene where
  now : Nat
  /-- The messages in the list. -/
  waiting : List Pending
  /-- The ids that have been answered. -/
  answered : String → Prop
  /-- When the pending timer is due, if there is one. -/
  alarm : Option Nat
  /-- The firings that have claimed their timers, and whose handlers have not started. -/
  starting : Nat → Prop
  /-- The runs that are not through. -/
  work : List BatchRun.Phase
  /-- Whether a deposit is not through. -/
  busy : Prop
  /-- Whether a deposit is about to arm the task. -/
  arming : Prop

namespace Scene

/-- A run that has left out what has been answered: it makes its request, or is through. -/
def afterChecking (fresh : List Pending) : List BatchRun.Phase :=
  if normalize fresh = [] then [] else [.leasing (normalize fresh)]

/-- A run that has taken the messages that wait. -/
def afterDraining (drained : List Pending) : List BatchRun.Phase :=
  if drained = [] then []
  else if sourceIds drained = [] then afterChecking drained
  else [.checking drained]

/-- What may happen to a user, with the message that comes in and the request that is made. -/
inductive Moves (window : Nat) (c : Scene) :
    Option Arrival → Option (Nat × String) → Scene → Prop
  | stays : Moves window c none none c
  | enqueued (hwork : c.work = []) : Moves window c none none { c with busy := True }
  | arrived {arming : Prop} (m : Pending) (hb : c.busy) :
      Moves window c (some (c.now, m)) none
        { c with waiting := c.waiting ++ [m], busy := True, arming }
  | armed {busy arming : Prop} (ha : c.arming) :
      Moves window c none none { c with alarm := some (c.now + window), busy, arming }
  | waited {now : Nat} (hb : ¬ c.busy) (hr : ¬ c.arming) (hs : ∀ k, c.starting k → c.work ≠ [])
      (ha : ∀ t ∈ c.alarm, now ≤ t) (hw : ∀ p ∈ c.work, p.isPreparing = false)
      (hnow : c.now ≤ now) :
      Moves window c none none { c with now }
  | claimed {t : Nat} (k : Nat) (ha : c.alarm = some t) (ht : t ≤ c.now) :
      Moves window c none none
        { c with alarm := none, starting := fun k' => c.starting k' ∨ k' = k }
  | started {k : Nat} (hk : c.starting k) :
      Moves window c none none
        { c with starting := fun k' => c.starting k' ∧ k' ≠ k, work := c.work ++ [.draining] }
  | drained (hw : c.work = [.draining]) :
      Moves window c none none { c with waiting := [], work := afterDraining c.waiting }
  | checked {drained : List Pending} {ids : List String} (hw : c.work = [.checking drained])
      (hids : ∀ id, id ∈ ids ↔ id ∈ sourceIds drained ∧ c.answered id) :
      Moves window c none none { c with work := afterChecking (dropAnswered ids drained) }
  | leased {batch : List Pending} (lease : Nat) (x : Execution) (hw : c.work = [.leasing batch]) :
      Moves window c none (some (c.now, merge batch))
        { c with work := [.executing batch lease x] }
  | executed {batch : List Pending} {lease : Nat} {x : Execution} (x' : Execution)
      (hw : c.work = [.executing batch lease x]) :
      Moves window c none none { c with work := [.executing batch lease x'] }
  | replied {batch : List Pending} {lease : Nat} {x : Execution}
      (hw : c.work = [.executing batch lease x]) :
      Moves window c none none
        { c with work := if sourceIds batch = [] then [] else [.marking batch] }
  | marked {batch : List Pending} (hw : c.work = [.marking batch]) :
      Moves window c none none
        { c with answered := fun id => id ∈ sourceIds batch ∨ c.answered id, work := [] }

/-! ## The round -/

section
variable (window : Nat) (answered : List String) (as : List Arrival) (es : List (Nat × String))
  (c : Scene) (gs : List (List Arrival)) (g : List Arrival)

/-- Nobody has claimed a timer, and none is pending. -/
structure Calm : Prop where
  alarm : c.alarm = none
  starting : ∀ k, ¬ c.starting k

/-- All requests have been made and answered. -/
structure Quiet : Prop extends c.Calm where
  requests : es = plan window answered (groups window as)
  marked : ∀ id, c.answered id ↔ id ∈ answeredWith answered (groups window as)
  waiting : c.waiting = []
  work : c.work = []
  past : ∀ a ∈ as.getLast?, a.1 + window ≤ c.now

/-- The last group is open: the requests of all groups before it have been made. -/
structure Open : Prop where
  split : groups window as = gs ++ [g]
  requests : es = plan window answered gs
  marked : ∀ id, c.answered id ↔ id ∈ answeredWith answered gs

/-- Its messages gather, and the timer is set to when they are due, or about to be. -/
structure Gathering : Prop extends Open window answered as es c gs g where
  waiting : c.waiting = g.map (·.2)
  starting : ∀ k, ¬ c.starting k
  work : c.work = []
  alarm : c.alarm = some (due window g) ∧ c.now ≤ due window g ∨
    c.busy ∧ due window g = c.now + window ∧ ∀ t ∈ c.alarm, c.now < t

/-- It is due, and a firing has claimed the timer. -/
structure Firing (k : Nat) : Prop extends Open window answered as es c gs g where
  waiting : c.waiting = g.map (·.2)
  alarm : c.alarm = none
  starting : ∀ k', c.starting k' ↔ k' = k
  work : c.work = []
  now : c.now = due window g

/-- How far a run has come with a group of which some ids have been answered before. -/
inductive Progresses (ids : List String) : Prop
  | draining (hwaiting : c.waiting = g.map (·.2)) (hwork : c.work = [.draining])
  | checking (hwaiting : c.waiting = []) (hwork : c.work = [.checking (g.map (·.2))])
  | leasing (hwaiting : c.waiting = []) (hwork : c.work = [.leasing (ofGroup ids g)])
      (hsome : ofGroup ids g ≠ [])

/-- It is due, and a run prepares its request. -/
structure Preparing : Prop extends Open window answered as es c gs g, c.Calm where
  progress : Progresses c g (answeredWith answered gs)
  now : c.now = due window g

/-- Its request has been made, and is being answered. -/
structure Answering : Prop extends c.Calm where
  split : groups window as = gs ++ [g]
  requests : es = plan window answered (groups window as)
  marked : ∀ id, c.answered id ↔ id ∈ answeredWith answered gs
  waiting : c.waiting = []
  work : (∃ lease x, c.work = [.executing (ofGroup (answeredWith answered gs) g) lease x]) ∨
    c.work = [.marking (ofGroup (answeredWith answered gs) g)]
  past : due window g ≤ c.now
  busy : c.busy → c.now = due window g

/-- Where a user is in the round. -/
inductive Stage : Prop
  | quiet (h : Quiet window answered as es c)
  | gathering {gs : List (List Arrival)} {g : List Arrival}
      (h : Gathering window answered as es c gs g)
  | firing {gs : List (List Arrival)} {g : List Arrival} {k : Nat}
      (h : Firing window answered as es c gs g k)
  | preparing {gs : List (List Arrival)} {g : List Arrival}
      (h : Preparing window answered as es c gs g)
  | answering {gs : List (List Arrival)} {g : List Arrival}
      (h : Answering window answered as es c gs g)

/-- The round goes on with what has come in and been requested so far. A deposit arms its task at
the time of its message, which is the last one. -/
structure Round : Prop where
  stage : Stage window answered as es c
  arming : c.arming → ∃ a ∈ as.getLast?, a.1 = c.now

end

variable {window : Nat} {answered : List String} {as : List Arrival} {es : List (Nat × String)}
  {c : Scene} {gs : List (List Arrival)} {g : List Arrival}

theorem due_of_groups (h : groups window as = gs ++ [g]) :
    ∃ a, as.getLast? = some a ∧ due window g = a.1 + window := by
  obtain ⟨hne, hlast⟩ := getLast?_of_groups h
  have ha := List.getLast?_eq_some_getLast hne
  exact ⟨_, hlast.trans ha, due_of_getLast? ha⟩

/-! ## Messages and timers -/

theorem Stage.enqueued (h : Stage window answered as es c) (hwork : c.work = []) :
    Stage window answered as es { c with busy := True } := by
  cases h with
  | quiet h => exact .quiet { h with }
  | gathering h =>
    exact .gathering { h with alarm := h.alarm.imp_right fun halarm => ⟨trivial, halarm.2⟩ }
  | firing h => exact .firing { h with }
  | preparing h => cases h.progress <;> simp_all
  | answering h => rcases h.work with ⟨lease, x, hw⟩ | hw <;> simp [hwork] at hw

/-- Messages come in while others gather, or when all is quiet. -/
theorem Round.arrived (h : Round window answered as es c) (hwindow : 0 < window) (hb : c.busy)
    (hgap : ∀ a ∈ as.getLast?, a.1 + window ≠ c.now) (m : Pending) (arming : Prop) :
    Round window answered (as ++ [(c.now, m)]) es
      { c with waiting := c.waiting ++ [m], busy := True, arming } := by
  refine ⟨?_, fun _ => ⟨(c.now, m), by simp, rfl⟩⟩
  have hnever : ∀ {gs g}, groups window as = gs ++ [g] → c.now ≠ due window g := by
    intro gs g hgroups hnow
    obtain ⟨a, ha, hdue⟩ := due_of_groups hgroups
    exact hgap a ha (hdue.symm.trans hnow.symm)
  cases h.stage with
  | quiet h =>
    refine .gathering (?_ : Gathering _ _ _ _ _ (groups window as) [(c.now, m)])
    exact {
      split := groups_concat_of_le h.past
      requests := h.requests
      marked := h.marked
      waiting := by simp [h.waiting]
      starting := h.starting
      work := h.work
      alarm := .inr ⟨trivial, rfl, by simp [h.alarm]⟩ }
  | @gathering gs g h =>
    have hne := hnever h.split
    have hsoon : c.now < due window g ∧ ∀ t ∈ c.alarm, c.now < t := by
      rcases h.alarm with ⟨halarm, hnow⟩ | ⟨-, hnow, halarm⟩
      · refine ⟨by omega, fun t ht => ?_⟩
        obtain rfl := Option.some.inj (halarm.symm.trans ht)
        omega
      · exact ⟨by omega, halarm⟩
    refine .gathering (?_ : Gathering _ _ _ _ _ gs (g ++ [(c.now, m)]))
    exact {
      split := groups_concat_of_lt h.split hsoon.1
      requests := h.requests
      marked := h.marked
      waiting := by simp [h.waiting]
      starting := h.starting
      work := h.work
      alarm := .inr ⟨trivial, due_concat .., hsoon.2⟩ }
  | firing h => exact absurd h.now (hnever h.split)
  | preparing h => exact absurd h.now (hnever h.split)
  | answering h => exact absurd (h.busy hb) (hnever h.split)

/-- The task is armed at the time of the last message. -/
theorem Round.armed (h : Round window answered as es c) (hwindow : 0 < window) (ha : c.arming)
    (busy arming : Prop) :
    Round window answered as es { c with alarm := some (c.now + window), busy, arming } := by
  obtain ⟨a, hlast, hnow⟩ := h.arming ha
  refine ⟨?_, fun _ => ⟨a, hlast, hnow⟩⟩
  have hdue : ∀ {gs g}, groups window as = gs ++ [g] → due window g = c.now + window := by
    intro gs g hgroups
    obtain ⟨a', ha', hdue⟩ := due_of_groups hgroups
    obtain rfl := Option.some.inj (hlast.symm.trans ha')
    rw [hdue, hnow]
  cases h.stage with
  | quiet h =>
    have := h.past a hlast
    omega
  | gathering h =>
    have hdue := hdue h.split
    exact .gathering { h with alarm := .inl ⟨congrArg some hdue.symm, by dsimp only; omega⟩ }
  | firing h =>
    have := hdue h.split
    have := h.now
    omega
  | preparing h =>
    have := hdue h.split
    have := h.now
    omega
  | answering h =>
    have := hdue h.split
    have := h.past
    omega

/-- Time passes up to when the group is due, and again when its request has been made. -/
theorem Round.waited (h : Round window answered as es c) {now : Nat} (hb : ¬ c.busy)
    (hr : ¬ c.arming) (hs : ∀ k, c.starting k → c.work ≠ []) (ha : ∀ t ∈ c.alarm, now ≤ t)
    (hw : ∀ p ∈ c.work, p.isPreparing = false) (hnow : c.now ≤ now) :
    Round window answered as es { c with now } := by
  refine ⟨?_, fun harming => absurd harming hr⟩
  cases h.stage with
  | quiet h => exact .quiet { h with past := fun a ha => (h.past a ha).trans hnow }
  | gathering h =>
    obtain ⟨halarm, -⟩ := h.alarm.resolve_right fun hright => hb hright.1
    exact .gathering { h with alarm := .inl ⟨halarm, ha _ halarm⟩ }
  | firing h => exact absurd h.work (hs _ ((h.starting _).mpr rfl))
  | preparing h =>
    have hnone : ∀ p, c.work = [p] → p.isPreparing = false := fun p hp => hw p (by simp [hp])
    cases h.progress with
    | draining _ hwork => cases hnone _ hwork
    | checking _ hwork => cases hnone _ hwork
    | leasing _ hwork _ => cases hnone _ hwork
  | answering h =>
    exact .answering { h with
      past := h.past.trans hnow
      busy := fun hbusy => absurd hbusy hb }

/-- Only the timer of the last group is claimed, and when it is due. -/
theorem Stage.claimed (h : Stage window answered as es c) {t : Nat} (k : Nat)
    (ha : c.alarm = some t) (ht : t ≤ c.now) :
    Stage window answered as es
      { c with alarm := none, starting := fun k' => c.starting k' ∨ k' = k } := by
  cases h with
  | gathering h =>
    rcases h.alarm with ⟨halarm, hnow⟩ | ⟨-, -, halarm⟩
    · obtain rfl := Option.some.inj (ha.symm.trans halarm)
      exact .firing { h with
        alarm := rfl
        starting := fun k' => or_iff_right (h.starting k')
        now := Nat.le_antisymm hnow ht }
    · exact absurd (halarm t ha) (Nat.not_lt.mpr ht)
  | quiet h => cases ha.symm.trans h.alarm
  | firing h => cases ha.symm.trans h.alarm
  | preparing h => cases ha.symm.trans h.alarm
  | answering h => cases ha.symm.trans h.alarm

theorem Stage.started (h : Stage window answered as es c) {k : Nat} (hk : c.starting k) :
    Stage window answered as es
      { c with starting := fun k' => c.starting k' ∧ k' ≠ k, work := c.work ++ [.draining] } := by
  cases h with
  | firing h =>
    exact .preparing { h with
      starting := fun k' hk' => hk'.2 (((h.starting k').mp hk'.1).trans ((h.starting k).mp hk).symm)
      progress := .draining h.waiting (congrArg (· ++ [_]) h.work) }
  | quiet h => exact absurd hk (h.starting k)
  | gathering h => exact absurd hk (h.starting k)
  | preparing h => exact absurd hk (h.starting k)
  | answering h => exact absurd hk (h.starting k)

/-! ## Runs -/

/-- A run at work that prepares a request is that of the last group. -/
theorem Stage.of_preparing (h : Stage window answered as es c) {p : BatchRun.Phase}
    (hw : c.work = [p]) (hp : p.isPreparing) :
    ∃ gs g, Preparing window answered as es c gs g := by
  cases h with
  | preparing h => exact ⟨_, _, h⟩
  | quiet h => simp [h.work] at hw
  | gathering h => simp [h.work] at hw
  | firing h => simp [h.work] at hw
  | answering h =>
    rcases h.work with ⟨lease, x, hwork⟩ | hwork
    · obtain rfl : _ = p := List.singleton_inj.mp (hwork.symm.trans hw)
      cases hp
    · obtain rfl : _ = p := List.singleton_inj.mp (hwork.symm.trans hw)
      cases hp

/-- A run at work that has made its request has made that of the last group. -/
theorem Stage.of_answering (h : Stage window answered as es c) {p : BatchRun.Phase}
    (hw : c.work = [p]) (hp : p.isPreparing = false) :
    ∃ gs g, Answering window answered as es c gs g := by
  cases h with
  | answering h => exact ⟨_, _, h⟩
  | quiet h => simp [h.work] at hw
  | gathering h => simp [h.work] at hw
  | firing h => simp [h.work] at hw
  | preparing h =>
    cases h.progress with
    | draining _ hwork =>
      obtain rfl : _ = p := List.singleton_inj.mp (hwork.symm.trans hw)
      cases hp
    | checking _ hwork =>
      obtain rfl : _ = p := List.singleton_inj.mp (hwork.symm.trans hw)
      cases hp
    | leasing _ hwork _ =>
      obtain rfl : _ = p := List.singleton_inj.mp (hwork.symm.trans hw)
      cases hp

/-- The run makes its request next, or nothing is new and all is quiet. -/
theorem Preparing.afterChecking (h : Preparing window answered as es c gs g) {fresh : List Pending}
    (hfresh : normalize fresh = ofGroup (answeredWith answered gs) g) :
    Stage window answered as es { c with waiting := [], work := afterChecking fresh } := by
  rw [Scene.afterChecking, hfresh]
  split
  · next hnone =>
    refine .quiet { h with
      requests := ?_
      marked := fun id => ?_
      waiting := rfl
      work := rfl
      past := fun a ha => ?_ }
    · rw [h.split, plan_concat, request?, if_pos hnone, h.requests]
      simp
    · rw [h.split, answeredWith_concat, hnone]
      simpa [sourceIds] using h.marked id
    · obtain ⟨a', ha', hdue⟩ := due_of_groups h.split
      obtain rfl := Option.some.inj (ha'.symm.trans ha)
      exact (hdue.symm.trans h.now.symm).le
  · next hsome => exact .preparing { h with progress := .leasing rfl rfl hsome }

theorem Stage.drained (h : Stage window answered as es c) (hw : c.work = [.draining]) :
    Stage window answered as es { c with waiting := [], work := afterDraining c.waiting } := by
  obtain ⟨gs, g, h⟩ := h.of_preparing hw rfl
  obtain ⟨hne, -⟩ := getLast?_of_groups h.split
  cases h.progress with
  | draining hwaiting _ =>
    rw [afterDraining, hwaiting, if_neg (by simpa using hne)]
    split
    · next hids =>
      refine h.afterChecking ?_
      rw [ofGroup, dropAnswered_eq_self fun m hm => ?_]
      by_contra hold
      have hm := mem_sourceIds.mpr ⟨fun hid => hold (.inl hid), m, hm, rfl⟩
      rw [hids] at hm
      cases hm
    · exact .preparing { h with progress := .checking rfl rfl }
  | checking _ hwork => simp [hwork] at hw
  | leasing _ hwork _ => simp [hwork] at hw

theorem Stage.checked (h : Stage window answered as es c) {drained : List Pending}
    {ids : List String} (hw : c.work = [.checking drained])
    (hids : ∀ id, id ∈ ids ↔ id ∈ sourceIds drained ∧ c.answered id) :
    Stage window answered as es { c with work := afterChecking (dropAnswered ids drained) } := by
  obtain ⟨gs, g, h⟩ := h.of_preparing hw rfl
  cases h.progress with
  | checking hwaiting hwork =>
    obtain rfl : drained = g.map (·.2) := by simpa using hw.symm.trans hwork
    have hbatch : normalize (dropAnswered ids (g.map (·.2))) =
        ofGroup (answeredWith answered gs) g := by
      rw [ofGroup]
      refine congrArg normalize (dropAnswered_congr fun id hid => ?_)
      rw [hids, h.marked]
      exact and_iff_right hid
    simpa only [hwaiting] using h.afterChecking hbatch
  | draining _ hwork => simp [hwork] at hw
  | leasing _ hwork _ => simp [hwork] at hw

/-- The request is made when the group is due. -/
theorem Stage.leased (h : Stage window answered as es c) {batch : List Pending} (lease : Nat)
    (x : Execution) (hw : c.work = [.leasing batch]) :
    Stage window answered as (es ++ [(c.now, merge batch)])
      { c with work := [.executing batch lease x] } := by
  obtain ⟨gs, g, h⟩ := h.of_preparing hw rfl
  cases h.progress with
  | leasing hwaiting hwork hsome =>
    obtain rfl : batch = ofGroup (answeredWith answered gs) g := by simpa using hw.symm.trans hwork
    refine .answering { h with
      requests := ?_
      waiting := hwaiting
      work := .inl ⟨lease, x, rfl⟩
      past := h.now.ge
      busy := fun _ => h.now }
    rw [h.split, plan_concat, request?, if_neg hsome, h.requests, h.now]
    rfl
  | draining _ hwork => simp [hwork] at hw
  | checking _ hwork => simp [hwork] at hw

/-- A batch has been answered, and its ids are known to be. -/
theorem Answering.known (h : Answering window answered as es c gs g) {known : String → Prop}
    (hknown : ∀ id, known id ↔
      id ∈ sourceIds (ofGroup (answeredWith answered gs) g) ∨ c.answered id) :
    Stage window answered as es { c with answered := known, work := [] } := by
  refine .quiet { h with
    marked := fun id => ?_
    work := rfl
    past := fun a ha => ?_ }
  · dsimp only
    rw [h.split, answeredWith_concat, List.mem_append, hknown, h.marked]
    exact or_comm
  · obtain ⟨a', ha', hdue⟩ := due_of_groups h.split
    obtain rfl := Option.some.inj (ha'.symm.trans ha)
    exact hdue ▸ h.past

theorem Stage.executed (h : Stage window answered as es c) {batch : List Pending} {lease : Nat}
    {x : Execution} (hw : c.work = [.executing batch lease x]) (x' : Execution) :
    Stage window answered as es { c with work := [.executing batch lease x'] } := by
  obtain ⟨gs, g, h⟩ := h.of_answering hw rfl
  rcases h.work with ⟨lease', x₀, hwork⟩ | hwork
  · have heq := hw.symm.trans hwork
    simp only [List.cons.injEq, BatchRun.Phase.executing.injEq, and_true] at heq
    obtain ⟨rfl, rfl, rfl⟩ := heq
    exact .answering { h with work := .inl ⟨lease, x', rfl⟩ }
  · simp [hwork] at hw

theorem Stage.replied (h : Stage window answered as es c) {batch : List Pending} {lease : Nat}
    {x : Execution} (hw : c.work = [.executing batch lease x]) :
    Stage window answered as es
      { c with work := if sourceIds batch = [] then [] else [.marking batch] } := by
  obtain ⟨gs, g, h⟩ := h.of_answering hw rfl
  rcases h.work with ⟨lease', x₀, hwork⟩ | hwork
  · have heq := hw.symm.trans hwork
    simp only [List.cons.injEq, BatchRun.Phase.executing.injEq, and_true] at heq
    obtain ⟨rfl, -⟩ := heq
    split
    · next hnone => exact h.known fun id => by simp [hnone]
    · exact .answering { h with work := .inr rfl }
  · simp [hwork] at hw

theorem Stage.marked (h : Stage window answered as es c) {batch : List Pending}
    (hw : c.work = [.marking batch]) :
    Stage window answered as es
      { c with answered := fun id => id ∈ sourceIds batch ∨ c.answered id, work := [] } := by
  obtain ⟨gs, g, h⟩ := h.of_answering hw rfl
  rcases h.work with ⟨lease', x₀, hwork⟩ | hwork
  · simp [hwork] at hw
  · obtain rfl : batch = ofGroup (answeredWith answered gs) g := by simpa using hw.symm.trans hwork
    exact h.known fun id => Iff.rfl

/-! ## All moves -/

/-- Whatever happens keeps to the round, as long as no message comes in just when the one before it
is due. -/
theorem Round.step (h : Round window answered as es c) (hwindow : 0 < window) {c' : Scene}
    {a : Option Arrival} {e : Option (Nat × String)} (hm : Moves window c a e c')
    (hgap : ∀ b ∈ a, ∀ b₀ ∈ as.getLast?, b.1 ≠ b₀.1 + window) :
    Round window answered (as ++ a.toList) (es ++ e.toList) c' := by
  have hstay : ∀ {c' : Scene} {es'}, Stage window answered as es' c' → c'.now = c.now →
      c'.arming = c.arming → Round window answered (as ++ []) es' c' := by
    intro c' es' hstage hnow harming
    rw [List.append_nil]
    exact ⟨hstage, fun ha => hnow ▸ h.arming (harming ▸ ha)⟩
  cases hm with
  | stays => simpa using h
  | enqueued hwork =>
    refine hstay ?_ rfl rfl
    simpa using h.stage.enqueued hwork
  | arrived m hb =>
    simpa using h.arrived hwindow hb (fun b hb => (hgap _ rfl b hb).symm) m _
  | armed ha => simpa using h.armed hwindow ha _ _
  | waited hb hr hs ha hw hnow => simpa using h.waited hb hr hs ha hw hnow
  | claimed k ha ht => exact hstay (by simpa using h.stage.claimed k ha ht) rfl rfl
  | started hk => exact hstay (by simpa using h.stage.started hk) rfl rfl
  | drained hw => exact hstay (by simpa using h.stage.drained hw) rfl rfl
  | checked hw hids => exact hstay (by simpa using h.stage.checked hw hids) rfl rfl
  | leased lease x hw => exact hstay (h.stage.leased lease x hw) rfl rfl
  | executed x' hw => exact hstay (by simpa using h.stage.executed hw x') rfl rfl
  | replied hw => exact hstay (by simpa using h.stage.replied hw) rfl rfl
  | marked hw => exact hstay (by simpa using h.stage.marked hw) rfl rfl

/-! ## Requests as planned -/

theorem Open.requests_plan (h : Open window answered as es c gs g) (hnow : c.now ≤ due window g) :
    ∃ later, plan window answered (groups window as) = es ++ later ∧ ∀ e ∈ later, c.now ≤ e.1 := by
  refine ⟨(request? window (answeredWith answered gs) g).toList, ?_, fun e he => ?_⟩
  · rw [h.split, plan_concat, h.requests]
  · rwa [time_of_mem_request? (Option.mem_toList.mp he)]

/-- The requests so far are those of the plan, and none of it is overdue. -/
theorem Stage.requests_plan (h : Stage window answered as es c) :
    ∃ later, plan window answered (groups window as) = es ++ later ∧ ∀ e ∈ later, c.now ≤ e.1 := by
  cases h with
  | quiet h => exact ⟨[], by rw [h.requests, List.append_nil], by simp⟩
  | gathering h =>
    apply h.toOpen.requests_plan
    rcases h.alarm with ⟨-, hnow⟩ | ⟨-, hdue, -⟩
    · exact hnow
    · exact hdue ▸ Nat.le_add_right ..
  | firing h => exact h.toOpen.requests_plan h.now.le
  | preparing h => exact h.toOpen.requests_plan h.now.le
  | answering h => exact ⟨[], by rw [h.requests, List.append_nil], by simp⟩

end Scene
end ChatRelay
