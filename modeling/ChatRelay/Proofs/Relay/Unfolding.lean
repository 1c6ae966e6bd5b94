import ChatRelay.Proofs.Relay.Occurrences
import ChatRelay.Proofs.Relay.Order
import ChatRelay.Proofs.Relay.Scene
import ChatRelay.Proofs.Timer.Alarms

/-!
# What an event is to a user

A relay is a scene to each of its users, and each event is a move in it: their deposits and runs
move it on, their timers are claimed when due, and what others do leaves it as it is. The moves are
those of a user who is served in time. Time passes only when nothing is left to do for them at
once, the store does not fail, and what they have written is answered before they write again.
-/

namespace ChatRelay

def BatchRun.begins? (r : BatchRun) : Relay.RunEvent → Option String
  | .lease =>
    match r.phase with
    | .leasing batch => some (r.request batch).message
    | _ => none
  | _ => none

/-- Whether a run has answered its batch, or may still do so, if there is anything to answer. -/
def BatchRun.Phase.isOnTrack : Phase → Bool
  | .draining | .checking _ | .leasing _ | .marking _ => true
  | .executing _ _ (.finished result) => result.isOk
  | .executing _ _ _ => true
  | .finished .idle | .finished (.stale _) | .finished (.answered _) => true
  | _ => false

namespace Relay
open Timer KeyedLists AnsweredIds

def RunEvent.fails : RunEvent → Bool
  | .access fault => fault.isSome
  | _ => false

def Event.fails : Event → Bool
  | .push _ fault => fault.isSome
  | .run _ e => e.fails
  | _ => false

def Event.isEnqueueOf (user : String) : Event → Bool
  | .enqueue ticket _ _ _ => ticket.user = user
  | _ => false

/-- Nothing is left to do for a user before a later time. -/
structure AtRest (relay : Relay) (user : String) (later : Nat) : Prop where
  deposits : ∀ d ∈ relay.deposits, d.ticket.user = user → d.result?.isSome
  timers : ∀ f ∈ relay.queue.firings, f.task.dedupId = Ticket.dedupId user →
    f.phase.isUnclaimed → later ≤ f.due
  handlers : ∀ f ∈ relay.queue.firings, f.task.dedupId = Ticket.dedupId user →
    f.phase.isStarting → (relay.atWork user).isEmpty = false
  runs : ∀ r ∈ relay.atWork user, r.phase.isPreparing = false

instance (relay : Relay) (user : String) (later : Nat) : Decidable (relay.AtRest user later) :=
  decidable_of_iff (_ ∧ _ ∧ _ ∧ _)
    ⟨fun ⟨hd, ht, hs, hr⟩ => ⟨hd, ht, hs, hr⟩, fun ⟨hd, ht, hs, hr⟩ => ⟨hd, ht, hs, hr⟩⟩

/-- A user is served in time: time passes while they are at rest, the store does not fail, they
write when none of their runs is at work, and their runs answer what there is to answer. -/
structure Transition.InTime (user : String) (t : Transition) : Prop where
  clock : t.before.queue.now < t.after.queue.now → t.before.AtRest user t.after.queue.now
  stores : t.event.fails = false
  turns : t.event.isEnqueueOf user → (t.before.atWork user).isEmpty
  answers : ∀ r ∈ t.before.runs, r.ticket.user = user → r.phase.isOnTrack
  accepting : t.after.queue.closed = false

instance (user : String) (t : Transition) : Decidable (t.InTime user) :=
  decidable_of_iff (_ ∧ _ ∧ _ ∧ _ ∧ _)
    ⟨fun ⟨hc, hs, ht, ha, hq⟩ => ⟨hc, hs, ht, ha, hq⟩,
      fun ⟨hc, hs, ht, ha, hq⟩ => ⟨hc, hs, ht, ha, hq⟩⟩

def Transition.arrival? (user : String) (t : Transition) : Option Arrival :=
  match t.event with
  | .push i none =>
    match t.before.deposits[i]? with
    | some d =>
      if d.ticket.user = user then d.phase.left.head?.map (t.before.queue.now, ·) else none
    | none => none
  | _ => none

def Transition.execution? (user : String) (t : Transition) : Option (Nat × String) :=
  match t.event with
  | .run i e =>
    match t.before.runs[i]? with
    | some r =>
      if r.ticket.user = user then (r.begins? e).map (t.before.queue.now, ·) else none
    | none => none
  | _ => none

variable {σ : Type} [Store σ]

/-- What the relay and its store are to a user. -/
def scene (relay : Relay) (s : σ) (user : String) : Scene where
  now := relay.queue.now
  waiting := waiting s user
  answered := Marked s user
  alarm := relay.queue.alarm? (Ticket.dedupId user)
  starting := relay.queue.Starting (Ticket.dedupId user)
  work := (relay.atWork user).map (·.phase)
  busy := ∃ d ∈ relay.deposits, d.ticket.user = user ∧ d.result? = none
  arming := ∃ d ∈ relay.deposits, d.ticket.user = user ∧ d.phase = .arming

section
variable {s s' : σ} {relay relay' : Relay} {user : String}

/-- What is none of the user's changes nothing for them. -/
theorem scene_of_leaves (hw : waiting s' user = waiting s user)
    (hm : ∀ id, Marked s' user id ↔ Marked s user id)
    (hq : Queue.Leaves (Ticket.dedupId user) relay.queue relay'.queue)
    (hr : relay'.atWork user = relay.atWork user)
    (hb : (∃ d ∈ relay'.deposits, d.ticket.user = user ∧ d.result? = none) ↔
      ∃ d ∈ relay.deposits, d.ticket.user = user ∧ d.result? = none)
    (ha : (∃ d ∈ relay'.deposits, d.ticket.user = user ∧ d.phase = .arming) ↔
      ∃ d ∈ relay.deposits, d.ticket.user = user ∧ d.phase = .arming) :
    relay'.scene s' user = relay.scene s user := by
  have hm' : Marked s' user = Marked s user := funext fun id => propext (hm id)
  simp only [scene, hw, hm', hq.alarm, hq.starting, hq.now, hr, hb, ha]

/-- Nor does what happens in the queue alone. -/
theorem scene_of_queue {queue : Queue}
    (hq : Queue.Leaves (Ticket.dedupId user) relay.queue queue) :
    { relay with queue }.scene s user = relay.scene s user :=
  scene_of_leaves rfl (fun _ => Iff.rfl) hq rfl Iff.rfl Iff.rfl

/-! ## Deposits -/

theorem exists_mem_set {α : Type} {P : α → Prop} {l : List α} {i : Nat} {a b : α}
    (ha : l[i]? = some a) (h : P b ↔ P a) : (∃ x ∈ l.set i b, P x) ↔ ∃ x ∈ l, P x := by
  have hlen := (List.getElem?_eq_some_iff.mp ha).1
  constructor
  · rintro ⟨x, hx, hp⟩
    rcases List.mem_or_eq_of_mem_set hx with hx | rfl
    · exact ⟨x, hx, hp⟩
    · exact ⟨a, List.mem_of_getElem? ha, h.mp hp⟩
  · rintro ⟨x, hx, hp⟩
    obtain ⟨k, hk⟩ := List.mem_iff_getElem?.mp hx
    by_cases hki : k = i
    · subst hki
      obtain rfl := Option.some.inj (ha.symm.trans hk)
      exact ⟨b, List.mem_set hlen b, h.mpr hp⟩
    · exact ⟨x, List.mem_of_getElem? ((List.getElem?_set_ne (Ne.symm hki)).trans hk), hp⟩

variable {window : Nat}

theorem moves_of_eq {c c' : Scene} (h : c' = c) : c.Moves window none none c' := h ▸ .stays

theorem moves_enqueue (ticket : Ticket) (m : Pending)
    (hturn : ticket.user = user → (relay.atWork user).isEmpty) :
    (relay.scene s user).Moves window none none
      ({ relay with deposits := relay.deposits ++ [Deposit.start ticket [m]] }.scene s user) := by
  by_cases hu : ticket.user = user
  · have hafter : { relay with deposits := relay.deposits ++ [Deposit.start ticket [m]] }.scene s
        user = { relay.scene s user with busy := True } := by
      simp [scene, atWork, hu, Deposit.start, Deposit.Phase.ofLeft, Deposit.result?, or_and_right,
        exists_or]
    rw [hafter]
    exact .enqueued (by simpa [scene] using hturn hu)
  · refine moves_of_eq (scene_of_leaves rfl (fun _ => Iff.rfl) (.refl ..) rfl ?_ ?_)
    · simp [Deposit.start, hu]
    · simp [Deposit.start, hu]

end

/-- What goes without saying of a relay that serves a user in time. -/
structure Serving [LawfulStore σ] (s : σ) (relay : Relay) (user : String) : Prop where
  sound : LawfulStore.Sound s
  tended : relay.Tended
  matched : relay.Matched
  queue : relay.queue.Sound
  regular : relay.queue.Regular
  steady : relay.Steady
  deposits : ∀ {i : Nat} {d : Deposit}, relay.deposits[i]? = some d →
    ∀ m ∈ d.phase.left, m.IsStorable
  outcomes : ∀ {g : Nat} {f : Firing} {o : Except RelayError Unit},
    relay.queue.firing? g = some f → f.task.dedupId = Ticket.dedupId user →
      f.phase.outcome? = some o → o = .ok ()

variable [LawfulStore σ] {setup : Setup} {s : σ} {relay : Relay} {user : String} {window : Nat}

/-- A message comes in for its user, and for nobody else. -/
theorem moves_put (hk : relay.Serving s user) {i : Nat} {d : Deposit} {m : Pending}
    {left : List Pending} (hd : relay.deposits[i]? = some d) (hp : d.phase = .pushing (m :: left)) :
    (relay.scene s user).Moves window
      (if d.ticket.user = user then some (relay.queue.now, m) else none) none
      ({ relay with deposits := relay.deposits.set i { d with phase := .ofLeft left } }.scene
        (Pending.push s d.ticket.user m) user) := by
  have hm : m.IsStorable := hk.deposits hd m (by simp [hp, Deposit.Phase.left])
  have hw := waiting_push hk.sound d.ticket.user user hm
  have hunfinished : d.result? = none := by simp [Deposit.result?, hp]
  have hleft : ({ d with phase := .ofLeft left } : Deposit).result? = none := by
    cases left <;> rfl
  by_cases hu : d.ticket.user = user
  · subst hu
    rw [if_pos rfl] at hw ⊢
    have hmarked : Marked (Pending.push s d.ticket.user m) d.ticket.user = Marked s d.ticket.user :=
      funext fun id => propext marked_push
    have hbusy : (∃ d' ∈ relay.deposits.set i { d with phase := .ofLeft left },
        d'.ticket.user = d.ticket.user ∧ d'.result? = none) = True :=
      eq_true ⟨_, List.mem_set (List.getElem?_eq_some_iff.mp hd).1 _, rfl, hleft⟩
    have h : (relay.scene s d.ticket.user).Moves window (some (relay.queue.now, m)) none
        { relay.scene s d.ticket.user with
          waiting := waiting s d.ticket.user ++ [m]
          busy := True
          arming := ∃ d' ∈ relay.deposits.set i { d with phase := .ofLeft left },
            d'.ticket.user = d.ticket.user ∧ d'.phase = .arming } :=
      .arrived m ⟨d, List.mem_of_getElem? hd, rfl, hunfinished⟩
    simpa only [scene, atWork, hw, hmarked, hbusy] using h
  · rw [if_neg (Ne.symm hu)] at hw
    rw [if_neg hu]
    refine moves_of_eq (scene_of_leaves hw (fun _ => marked_push) (.refl ..) rfl ?_ ?_)
    · exact exists_mem_set hd (by simp [hu])
    · exact exists_mem_set hd (by simp [hu])

theorem moves_push (hk : relay.Serving s user) (i : Nat) :
    let t : Transition := ⟨relay, .push i none, (relay.step setup s (.push i none)).2⟩
    (relay.scene s user).Moves window (t.arrival? user) none
      (t.after.scene (relay.step setup s (.push i none)).1 user) := by
  simp only [Transition.arrival?, step]
  cases hd : relay.deposits[i]? with
  | none => exact .stays
  | some d =>
    cases hp : d.phase with
    | pushing left =>
      cases left with
      | cons m left => simpa [Deposit.push, hp, Deposit.Phase.left] using moves_put hk hd hp
      | nil => simpa [Deposit.push, hp, Deposit.Phase.left, set_of_getElem? hd] using .stays
    | arming => simpa [Deposit.push, hp, Deposit.Phase.left, set_of_getElem? hd] using .stays
    | finished result =>
      simpa [Deposit.push, hp, Deposit.Phase.left, set_of_getElem? hd] using .stays

/-- A deposit arms the task of its user, and leaves those of others. -/
theorem moves_arm (hk : relay.Serving s user) (hsched : setup.scheduler = .timers)
    (hopen : relay.queue.closed = false) (i : Nat) :
    (relay.scene s user).Moves setup.debounceMillis none none
      ((relay.armDeposit setup i).scene s user) := by
  unfold armDeposit
  split
  · next d hd =>
    split
    · next hp =>
      have hkey : (d.ticket.task setup.debounceMillis).key ∈ relay.queue.handlers := by
        simp [hk.tended.handlers, Ticket.task]
      simp only [schedule, hsched]
      rw [modify_of_getElem? hd]
      by_cases hu : d.ticket.user = user
      · subst hu
        rw [Queue.schedule_eq hopen hkey]
        have halarm : (relay.queue.arm (d.ticket.task setup.debounceMillis)
            (d.ticket.task setup.debounceMillis).delayMillis 1 none).alarm?
              (Ticket.dedupId d.ticket.user) = some (relay.queue.now + setup.debounceMillis) :=
          (Queue.alarm?_arm hk.queue.lt_length ..).trans (if_pos rfl)
        have h : (relay.scene s d.ticket.user).Moves setup.debounceMillis none none
            { relay.scene s d.ticket.user with
              alarm := some (relay.queue.now + setup.debounceMillis)
              busy := ∃ d' ∈ relay.deposits.set i (d.armed (.ok ())),
                d'.ticket.user = d.ticket.user ∧ d'.result? = none
              arming := ∃ d' ∈ relay.deposits.set i (d.armed (.ok ())),
                d'.ticket.user = d.ticket.user ∧ d'.phase = .arming } :=
          .armed ⟨d, List.mem_of_getElem? hd, rfl, hp⟩
        simpa only [scene, atWork, halarm, Queue.starting_arm, Queue.now_arm] using h
      · have hid : Ticket.dedupId user ≠ (d.ticket.task setup.debounceMillis).dedupId :=
          fun heq => hu (Ticket.dedupId_injective heq).symm
        refine moves_of_eq (scene_of_leaves rfl (fun _ => Iff.rfl)
          (Queue.leaves_schedule hk.queue hid) rfl ?_ ?_)
        · exact exists_mem_set hd (by simp [Deposit.ticket_armed, hu])
        · exact exists_mem_set hd (by simp [Deposit.ticket_armed, hu])
    · exact .stays
  · exact .stays

/-! ## The queue -/

theorem moves_wait (hk : relay.Serving s user) (millis : Nat)
    (hrest : relay.queue.now < relay.queue.now + millis →
      relay.AtRest user (relay.queue.now + millis)) :
    (relay.scene s user).Moves window none none
      ({ relay with queue := relay.queue.wait millis }.scene s user) := by
  by_cases hm : millis = 0
  · subst hm
    exact .stays
  · have hrest := hrest (by omega)
    change (relay.scene s user).Moves window none none
      { relay.scene s user with now := relay.queue.now + millis }
    refine .waited ?_ ?_ ?_ ?_ ?_ (Nat.le_add_right ..)
    · rintro ⟨d, hd, hu, hres⟩
      simpa [hres] using hrest.deposits d hd hu
    · rintro ⟨d, hd, hu, hp⟩
      simpa [Deposit.result?, hp] using hrest.deposits d hd hu
    · rintro g ⟨f, hf, hid, hp⟩
      have := hrest.handlers f (List.mem_of_getElem? hf) hid hp
      simpa [scene] using this
    · intro t ht
      obtain ⟨f, hf, hid, hp, rfl⟩ := Queue.of_mem_alarm? hk.queue ht
      exact hrest.timers f hf hid hp
    · intro p hp
      obtain ⟨r, hr, rfl⟩ := List.mem_map.mp hp
      exact hrest.runs r hr

theorem key_mem_handlers (ht : relay.Tended) {g : Nat} {f : Firing}
    (hf : relay.queue.firing? g = some f) : f.task.key ∈ relay.queue.handlers := by
  obtain ⟨ticket, delay, htask⟩ := ht.tasks hf
  simp [ht.handlers, htask, Ticket.task]

theorem moves_claim (hk : relay.Serving s user) (g : Nat) :
    (relay.scene s user).Moves window none none
      ({ relay with queue := relay.queue.claim g }.scene s user) := by
  rcases Queue.claim_cases hk.regular (key_mem_handlers hk.tended) (Ticket.dedupId user) g with
    hleaves | htakes
  · exact moves_of_eq (scene_of_queue hleaves)
  · obtain ⟨t, ht, hdue⟩ := htakes.due
    have hstarting := funext fun k => propext (htakes.starting k)
    have h : (relay.scene s user).Moves window none none _ := .claimed g ht hdue
    simpa only [scene, atWork, htakes.now, htakes.alarm, hstarting] using h

/-- A handler starts, and with it a run. -/
theorem moves_acquire (hk : relay.Serving s user) (g : Nat) :
    (relay.scene s user).Moves window none none ((relay.timerStep (.acquire g)).scene s user) := by
  rcases timerStep_acquire hk.tended.ticketed g with
    hsame | ⟨f, lock, ticket, delay, hf, hp, htask, -, hacquire, hnext⟩
  · exact moves_of_eq (by rw [hsame])
  · rw [hnext, hacquire]
    have hid : f.task.dedupId = Ticket.dedupId ticket.user := by rw [htask]; rfl
    by_cases hu : ticket.user = user
    · subst hu
      have hstarting : (relay.queue.setPhase g (.running lock)).Starting
          (Ticket.dedupId ticket.user) = _ :=
        funext fun k => propext (Queue.starting_running hf lock k)
      have h : (relay.scene s ticket.user).Moves window none none _ :=
        .started ⟨f, hf, hid, by rw [hp]; rfl⟩
      simpa [scene, atWork, Queue.alarm?_setPhase, hstarting, BatchRun.result?] using h
    · refine moves_of_eq (scene_of_leaves rfl (fun _ => Iff.rfl) ?_ ?_ Iff.rfl Iff.rfl)
      · exact Queue.leaves_setPhase hf fun heq =>
          absurd (Ticket.dedupId_injective (hid.symm.trans heq)) hu
      · simp [atWork, hu]

theorem moves_timer (hk : relay.Serving s user) {e : Queue.Event}
    (ha : relay.admits (.timer e))
    (hclock : relay.queue.now < (relay.timerStep e).queue.now →
      relay.AtRest user (relay.timerStep e).queue.now)
    (hopen : (relay.timerStep e).queue.closed = false) :
    (relay.scene s user).Moves window none none ((relay.timerStep e).scene s user) := by
  have hminor : ∀ {e : Queue.Event}, e.isMinor →
      (relay.scene s user).Moves window none none
        ({ relay with queue := relay.queue.step e }.scene s user) := fun he =>
    moves_of_eq (scene_of_queue
      ((Queue.changes_step relay.queue _).leaves he (key_mem_handlers hk.tended) _))
  cases e with
  | schedule task => cases ha
  | wait millis => exact moves_wait hk millis hclock
  | claim g => exact moves_claim hk g
  | acquire g => exact moves_acquire hk g
  | finish g o =>
    rw [timerStep_finish hk.tended]
    exact .stays
  | settle g jitter =>
    refine moves_of_eq (scene_of_queue (Queue.leaves_settle hk.queue g jitter fun hf hid hp => ?_))
    exact hk.outcomes hf hid (by rw [hp]; rfl)
  | shutdown => cases hopen
  | _ => exact hminor rfl

theorem moves_return (hk : relay.Serving s user) (i : Nat) :
    (relay.scene s user).Moves window none none ((relay.returnRun i).scene s user) := by
  unfold returnRun
  split
  · split
    · next g result _ _ =>
      exact moves_of_eq (scene_of_queue ((Queue.changes_step relay.queue (.finish g result)).leaves
        rfl (key_mem_handlers hk.tended) _))
    · exact .stays
  · exact .stays

/-! ## Runs -/

end Relay

section
variable {σ : Type} [Store σ] [LawfulStore σ] {setup : Relay.Setup} {s s' : σ} {r r' : BatchRun}
  {e : Relay.RunEvent} {window : Nat}
open AnsweredIds

theorem atWork_ofFresh (r : BatchRun) (answered drained fresh : List Pending) :
    (r.ofFresh answered drained fresh).phase.atWork = Scene.afterChecking fresh := by
  unfold BatchRun.ofFresh Scene.afterChecking
  cases Batch.normalize fresh <;> simp [BatchRun.Phase.atWork]

theorem atWork_ofDrained (r : BatchRun) (drained : List Pending) :
    (r.ofDrained drained).phase.atWork = Scene.afterDraining drained := by
  unfold BatchRun.ofDrained Scene.afterDraining
  simp only [List.isEmpty_iff]
  split
  · rfl
  · split
    · exact atWork_ofFresh ..
    · rfl

theorem atWork_of_unfinished {r : BatchRun} (h : r.result? = none) :
    r.phase.atWork = [r.phase] := by
  cases hp : r.phase <;> simp_all [BatchRun.result?, BatchRun.Phase.atWork]

theorem begins?_eq_none {r : BatchRun} (h : ∀ batch, r.phase ≠ .leasing batch)
    (e : Relay.RunEvent) : r.begins? e = none := by
  unfold BatchRun.begins?
  split
  · split
    · next batch hp => exact absurd hp (h batch)
    · rfl
  · rfl

theorem map_phase_of_alone (r : BatchRun) :
    (if r.result?.isNone then [r] else []).map (·.phase) = r.phase.atWork := by
  cases hp : r.phase <;> simp [BatchRun.result?, BatchRun.Phase.atWork, hp]

theorem BatchRun.Turns.eq_of_finished (h : r.Turns setup s e s' r') {o : Except RelayError Unit}
    (ho : r.result? = some o) : s' = s ∧ r' = r := by
  cases h <;> simp_all [result?]

/-- The turn of a run that is alone at work for its user. -/
theorem BatchRun.Turns.moves (h : r.Turns setup s e s' r') (hs : LawfulStore.Sound s)
    (htrack : r.phase.isOnTrack) (hf : e.fails = false) {c : Scene}
    (hwaiting : c.waiting = waiting s r.ticket.user)
    (hanswered : c.answered = Marked s r.ticket.user) (hwork : c.work = [r.phase])
    (hunfinished : r.result? = none) :
    c.Moves window none ((r.begins? e).map (c.now, ·))
      { c with
        waiting := waiting s' r.ticket.user
        answered := Marked s' r.ticket.user
        work := r'.phase.atWork } := by
  obtain ⟨now, _, _, alarm, starting, _, busy, arming⟩ := c
  dsimp only at hwaiting hanswered hwork ⊢
  subst hwaiting hanswered hwork
  cases h with
  | unmoved hd he =>
    have hnone : r.begins? e = none := by
      cases e with
      | lease => cases hp : r.phase <;> simp_all [begins?, noted?]
      | _ => rfl
    rw [hnone, atWork_of_unfinished hunfinished]
    exact .stays
  | drained hp =>
    have hmarked : Marked (Pending.takeAll s r.ticket.user).2 r.ticket.user =
        Marked s r.ticket.user := funext fun id => propext marked_takeAll
    rw [hmarked, waiting_takeAll hs, if_pos rfl, atWork_ofDrained, hp]
    exact .drained rfl
  | checked hp =>
    rw [atWork_ofFresh, hp]
    exact .checked rfl fun id => LawfulStore.mem_seen
  | leased lease x hp =>
    simp only [begins?, hp, Option.map_some]
    exact .leased lease x rfl
  | executed hp hst he =>
    have hmarked : Marked s' r.ticket.user = Marked s r.ticket.user :=
      funext fun id => propext (hst.marked _ id)
    rw [begins?_eq_none (by simp [hp]), hmarked, hst.waiting, hp]
    exact .executed _ rfl
  | @concluded batch lease result hp =>
    cases result with
    | error cause => simp [hp, Phase.isOnTrack, Except.isOk, Except.toBool] at htrack
    | ok completion =>
      have hafter : (Phase.concluded r (outputsOf setup) batch (.ok completion)).atWork =
          if Batch.sourceIds batch = [] then [] else [.marking batch] := by
        simp only [Phase.concluded, List.isEmpty_iff]
        split <;> rfl
      rw [hafter, hp]
      exact .replied rfl
  | @marked batch hp =>
    have hmarked : Marked (AnsweredIds.mark s r.ticket.user (Batch.sourceIds batch))
        r.ticket.user = fun id => id ∈ Batch.sourceIds batch ∨ Marked s r.ticket.user id :=
      funext fun id => propext (LawfulStore.marked_mark.trans (by simp))
    have hwait : waiting (AnsweredIds.mark s r.ticket.user (Batch.sourceIds batch))
        r.ticket.user = waiting s r.ticket.user :=
      congrArg Pending.decodeAll (LawfulStore.texts_mark ..)
    rw [hmarked, hwait, hp]
    exact .marked rfl
  | undrained cause hp => cases hf
  | unchecked cause hp => cases hf
  | unmarked cause hp => cases hf
  | _ => simp_all [Phase.isOnTrack]

/-- The turn of a run of somebody else. -/
theorem BatchRun.Turns.others (h : r.Turns setup s e s' r') (hs : LawfulStore.Sound s)
    {user : String} (hu : r.ticket.user ≠ user) :
    waiting s' user = waiting s user ∧ ∀ id, Marked s' user id ↔ Marked s user id := by
  have hne : user ≠ r.ticket.user := Ne.symm hu
  constructor
  · have htouch : ∀ texts, (r.touch e).on user texts = texts := by
      intro texts
      unfold touch
      split
      · split
        · exact if_neg hne
        · split
          · exact if_neg hne
          · rfl
      · rfl
    exact congrArg Pending.decodeAll ((h.texts hs user).trans (htouch _))
  · intro id
    cases h with
    | drained hp => exact marked_takeAll
    | executed hp hst he => exact hst.marked user id
    | requeued hp hd => exact marked_push
    | restored hp => exact marked_push
    | marked hp => exact LawfulStore.marked_mark.trans (by simp [hne])
    | _ => exact Iff.rfl

end

namespace Relay
open Timer KeyedLists AnsweredIds

variable {σ : Type} [Store σ] [LawfulStore σ] {setup : Setup} {s : σ} {relay : Relay}
  {user : String} {window : Nat}

variable (setup) in
/-- All that an event of a run does to the queue is to arm the task of its user. -/
theorem runStep_frame (hk : relay.Serving s user) {i : Nat} {r : BatchRun}
    (hr : relay.runs[i]? = some r) (harm : r.ticket.user = user → r.isArming = false)
    (e : RunEvent) :
    Queue.Leaves (Ticket.dedupId user) relay.queue (relay.runStep setup s i e).2.queue ∧
      (relay.runStep setup s i e).2.deposits = relay.deposits := by
  have hsame : ∀ {relay' : Relay}, relay'.queue = relay.queue →
      relay'.deposits = relay.deposits →
      Queue.Leaves (Ticket.dedupId user) relay.queue relay'.queue ∧
        relay'.deposits = relay.deposits := fun hq hd => ⟨hq ▸ .refl .., hd⟩
  cases e with
  | access fault => exact hsame (by simp only [runStep, hr]) (by simp only [runStep, hr])
  | lease =>
    simp only [runStep, leaseRun, hr]
    split <;> exact hsame rfl rfl
  | release =>
    simp only [runStep, releaseRun, hr]
    split <;> exact hsame rfl rfl
  | arm =>
    simp only [runStep, armRun, hr]
    split
    · next batch deposit hp =>
      split
      · next hd =>
        have hu : user ≠ r.ticket.user := by
          intro heq
          simpa [BatchRun.isArming, hp, hd] using harm heq.symm
        have hid : Ticket.dedupId user ≠ (r.ticket.task setup.debounceMillis).dedupId :=
          fun heq => hu (Ticket.dedupId_injective heq)
        obtain ⟨queue, handedOver, outcome, hq, rfl | rfl⟩ :=
          schedule_frame setup relay (r.ticket.task setup.debounceMillis)
        · rw [hq]
          exact hsame rfl rfl
        · rw [hq]
          exact ⟨Queue.leaves_schedule hk.queue hid, rfl⟩
      · exact hsame rfl rfl
    · exact hsame rfl rfl
  | _ => exact hsame rfl rfl

/-- A run that has its turn, in a relay that otherwise stays as it is to the user. -/
structure Turned (setup : Setup) (s : σ) (relay : Relay) (user : String) (i : Nat) (r : BatchRun)
    (e : RunEvent) (s' : σ) (relay' : Relay) (r' : BatchRun) : Prop where
  before : relay.runs[i]? = some r
  after : relay'.runs = relay.runs.set i r'
  turns : r.Turns setup s e s' r'
  queue : Queue.Leaves (Ticket.dedupId user) relay.queue relay'.queue
  deposits : relay'.deposits = relay.deposits

variable (setup) in
theorem turned_runStep (hk : relay.Serving s user) {i : Nat} {r : BatchRun}
    (hr : relay.runs[i]? = some r) (harm : r.ticket.user = user → r.isArming = false)
    (e : RunEvent) : ∃ r', Turned setup s relay user i r e (relay.runStep setup s i e).1
      (relay.runStep setup s i e).2 r' := by
  obtain ⟨c, -, hs, hruns⟩ := runStep_eq_turn setup s hr e
  obtain ⟨hq, hdep⟩ := runStep_frame setup hk hr harm e
  exact ⟨_, hr, hruns, hs ▸ BatchRun.turns_turn c (hk.steady hr) e, hq, hdep⟩

section
variable {s' : σ} {relay' : Relay} {i : Nat} {r r' : BatchRun} {e : RunEvent}

theorem Turned.scene_of_ne (h : Turned setup s relay user i r e s' relay' r')
    (hs : LawfulStore.Sound s) (hu : r.ticket.user ≠ user) :
    relay'.scene s' user = relay.scene s user := by
  obtain ⟨hw, hm⟩ := h.turns.others hs hu
  refine scene_of_leaves hw hm h.queue ?_ (by rw [h.deposits]) (by rw [h.deposits])
  rw [atWork, atWork, h.after]
  exact filter_set_of_neg h.before (by simp [hu]) (by simp [h.turns.frame.1, hu])

theorem Turned.scene_of_finished (h : Turned setup s relay user i r e s' relay' r')
    {o : Except RelayError Unit} (ho : r.result? = some o) :
    relay'.scene s' user = relay.scene s user := by
  obtain ⟨rfl, rfl⟩ := h.turns.eq_of_finished ho
  refine scene_of_leaves rfl (fun _ => Iff.rfl) h.queue ?_ (by rw [h.deposits]) (by rw [h.deposits])
  rw [atWork, atWork, h.after, set_of_getElem? h.before]

/-- The only run of its user that is at work has its turn. -/
theorem Turned.moves (h : Turned setup s relay r.ticket.user i r e s' relay' r')
    (hk : relay.Serving s r.ticket.user) (htrack : r.phase.isOnTrack) (hf : e.fails = false)
    (ho : r.result? = none) :
    (relay.scene s r.ticket.user).Moves window none ((r.begins? e).map (relay.queue.now, ·))
      (relay'.scene s' r.ticket.user) := by
  have halone : ∀ {k : Nat} {r₀ : BatchRun}, relay.runs[k]? = some r₀ → k ≠ i →
      (r₀.ticket.user = r.ticket.user && r₀.result?.isNone) = false := by
    intro k r₀ hk₀ hne
    by_contra hboth
    simp only [Bool.not_eq_false, Bool.and_eq_true, decide_eq_true_eq,
      Option.isNone_iff_eq_none] at hboth
    exact hne (hk.matched.eq_of_unfinished hk.queue hk₀ h.before hboth.1 hboth.2 ho)
  have hbefore := filter_of_alone h.before halone
  have hafter := filter_set_of_alone h.before halone r'
  have hmoves : (relay.scene s r.ticket.user).Moves window none _ _ :=
    h.turns.moves hk.sound htrack hf rfl rfl (by simp [scene, atWork, hbefore, ho]) ho
  have hwork : (relay'.atWork r.ticket.user).map (·.phase) = r'.phase.atWork := by
    rw [atWork, h.after, hafter, h.turns.frame.1]
    simpa using map_phase_of_alone r'
  simpa only [scene, hwork, h.queue.alarm, h.queue.starting, h.queue.now, h.deposits] using hmoves

end

theorem moves_run (hk : relay.Serving s user) {i : Nat} {r : BatchRun}
    (hr : relay.runs[i]? = some r) (htrack : r.ticket.user = user → r.phase.isOnTrack)
    {e : RunEvent} (hf : e.fails = false) :
    (relay.scene s user).Moves window none
      (if r.ticket.user = user then (r.begins? e).map (relay.queue.now, ·) else none)
      ((relay.runStep setup s i e).2.scene (relay.runStep setup s i e).1 user) := by
  have harm : r.ticket.user = user → r.isArming = false := by
    intro hu
    have := htrack hu
    cases hp : r.phase <;> simp_all [BatchRun.isArming, BatchRun.Phase.isOnTrack]
  obtain ⟨r', h⟩ := turned_runStep setup hk hr harm e
  by_cases hu : r.ticket.user = user
  · subst hu
    rw [if_pos rfl]
    cases ho : r.result? with
    | some o =>
      have hnone : r.begins? e = none := begins?_eq_none (by
        intro batch hp
        simp [BatchRun.result?, hp] at ho) e
      rw [hnone]
      exact moves_of_eq (h.scene_of_finished ho)
    | none => exact h.moves hk (htrack rfl) hf ho
  · rw [if_neg hu]
    exact moves_of_eq (h.scene_of_ne hk.sound hu)

/-! ## All events -/

/-- Whatever happens is a move in the scene of the user, who is served in time. -/
theorem moves_step (hk : relay.Serving s user) (hsched : setup.scheduler = .timers) {e : Event}
    (ha : relay.admits e) :
    let t : Transition := ⟨relay, e, (relay.step setup s e).2⟩
    t.InTime user → (relay.scene s user).Moves setup.debounceMillis (t.arrival? user)
      (t.execution? user) (t.after.scene (relay.step setup s e).1 user) := by
  intro t ht
  cases e with
  | enqueue ticket text sourceId enqueuedAt =>
    exact moves_enqueue ticket _ fun hu => ht.turns (decide_eq_true hu)
  | requeue ticket messages => cases ha
  | push i fault =>
    have hf : fault.isSome = false := ht.stores
    obtain rfl : fault = none := by simpa using hf
    exact moves_push hk i
  | arm i =>
    exact moves_arm hk hsched ((happens_step setup s hk.tended ha).open_before ht.accepting) i
  | notice user => exact .stays
  | timer e => exact moves_timer hk ha ht.clock ht.accepting
  | handle payload attempt => cases ha
  | run i e =>
    simp only [t, Transition.arrival?, Transition.execution?, step]
    cases hr : relay.runs[i]? with
    | none =>
      rw [runStep_of_none setup s hr]
      exact .stays
    | some r =>
      exact moves_run hk hr (ht.answers r (List.mem_of_getElem? hr)) ht.stores
  | «return» i => exact moves_return hk i
  | cancelAll => exact .stays

end Relay
end ChatRelay
