import ChatRelay.Proofs.Batch.Progress
import ChatRelay.Relay.Basic

/-!
# What an event makes of a run

`BatchRun.turn` is the part that a run has in an event of its relay, and `BatchRun.Turns` lists what
may come of it, failures of the store included: the messages that the run takes and puts back, the
phases that it passes through, and how it ends where the store fails.
-/

namespace ChatRelay
open KeyedLists AnsweredIds

inductive Touch where
  | none
  | put (user : String) (m : Pending)
  | take (user : String)
deriving DecidableEq

/-- The texts of a user's list afterwards. -/
def Touch.on (user : String) (texts : List String) : Touch → List String
  | .none => texts
  | .put u m => if user = u then texts ++ [m.encode] else texts
  | .take u => if user = u then [] else texts

section
variable {σ : Type} [Store σ] [LawfulStore σ]

theorem texts_put {s : σ} (hs : LawfulStore.Sound s) (u user : String) (m : Pending) :
    texts (Pending.push s u m) (Pending.listKey user) =
      (Touch.put u m).on user (texts s (Pending.listKey user)) := by
  rw [texts_push hs, Touch.on]
  split
  · next h => rw [h]
  · rfl

theorem texts_take {s : σ} (hs : LawfulStore.Sound s) (u user : String) :
    texts (Pending.takeAll s u).2 (Pending.listKey user) =
      (Touch.take u).on user (texts s (Pending.listKey user)) := texts_takeAll hs u user

end

namespace BatchRun

/-- What the relay has to say in an event of a run: whether the lease of the run has been cancelled,
which lease is the next one, and whether the task is accepted. -/
structure Circumstances where
  calledOff : Bool
  lease : Nat
  armed : Except TaskError Unit

abbrev outputsOf (setup : Relay.Setup) : List Output := noticeOutputs setup.channels setup.primary

def turn {σ : Type} [Store σ] (setup : Relay.Setup) (c : Circumstances) (s : σ) (r : BatchRun) :
    Relay.RunEvent → σ × BatchRun
  | .access fault => r.access (outputsOf setup) fault s
  | .lease => (s, r.leased setup.channels setup.primary c.lease)
  | .enriched slot outcome => (s, r.mapExecution (·.enriched slot outcome))
  | .compose => (s, r.mapExecution (·.compose c.calledOff))
  | .generated outcome => (s, r.mapExecution (·.generated c.calledOff outcome))
  | .delivered slot success => (s, r.mapExecution (·.delivered slot success))
  | .release => (s, r.concluded (outputsOf setup))
  | .arm => (s, if r.isArming then r.armed c.armed else r)
  | .notified slot success => (s, r.notified slot success)

/-- Whether the user may be told. Of a list that cannot be read, they are at the last attempt. -/
def Ending.mayTell : Ending → Bool
  | .unavailable _ | .dismissed _ _ | .abandoned _ _ => true
  | _ => false

/-- What goes without saying for a run, whatever fails. -/
def Steady (r : BatchRun) : Prop :=
  match r.phase with
  | .leasing batch | .executing batch _ _ => batch ≠ []
  | .requeuing _ deposit => deposit.ticket = r.ticket ∧
      (deposit.phase = .arming ∨ ∃ m left, deposit.phase = .pushing (m :: left))
  | .restoring _ left _ => left ≠ []
  | .notifying _ ending => ending.mayTell
  | _ => True

/-- What is put on record of a run. -/
inductive Entry where
  /-- A lease was taken for the batch. -/
  | leased (batch : List Pending)
  | concluded (result : Except PipelineError Completion)
  /-- An attempt to put a message back, and the failure it met, if it met one. -/
  | attempted (m : Pending) (fault : Option StoreError)
  /-- An output is done with the fallback notice. -/
  | noticed (slot : Nat)
deriving DecidableEq

/-- What an event puts on record. Of an output that is done already, nothing more is heard. -/
def noted? (r : BatchRun) : Relay.RunEvent → Option Entry
  | .access fault => r.nextBack?.map (.attempted · fault)
  | .lease =>
    match r.phase with
    | .leasing batch => some (.leased batch)
    | _ => none
  | .release =>
    match r.phase with
    | .executing _ _ (.finished result) => some (.concluded result)
    | _ => none
  | .notified slot _ =>
    match r.phase with
    | .notifying slots _ => if slots[slot]? = some none then some (.noticed slot) else none
    | _ => none
  | _ => none

def touch (r : BatchRun) : Relay.RunEvent → Touch
  | .access none =>
    match r.phase with
    | .draining => .take r.ticket.user
    | _ =>
      match r.nextBack? with
      | some m => .put r.ticket.user m
      | none => .none
  | _ => .none

section
variable {σ : Type} [Store σ] [LawfulStore σ]

/-- What an event may make of a run and the store. -/
inductive Turns (setup : Relay.Setup) (s : σ) (r : BatchRun) :
    Relay.RunEvent → σ → BatchRun → Prop
  | unmoved {e : Relay.RunEvent} (hd : ∀ fault, e = .access fault → r.phase ≠ .draining)
      (he : r.noted? e = none) : Turns setup s r e s r
  | drained (hp : r.phase = .draining) :
      Turns setup s r (.access none) (Pending.takeAll s r.ticket.user).2
        (r.ofDrained (waiting s r.ticket.user))
  | undrained (cause : StoreError) (hp : r.phase = .draining) :
      Turns setup s r (.access (some cause)) s
        { r with
          phase := if r.attempt.isFinal then .notify (outputsOf setup) (.unavailable cause)
            else .finished (.unavailable cause) }
  | checked {drained : List Pending} (hp : r.phase = .checking drained) :
      Turns setup s r (.access none) s
        (r.ofFresh (Batch.onlyAnswered (seen s r.ticket.user (Batch.sourceIds drained)) drained)
          drained (Batch.dropAnswered (seen s r.ticket.user (Batch.sourceIds drained)) drained))
  | unchecked {drained : List Pending} (cause : StoreError) (hp : r.phase = .checking drained) :
      Turns setup s r (.access (some cause)) s (r.ofFresh [] drained drained)
  | leased {batch : List Pending} (lease : Nat) (x : Execution) (hp : r.phase = .leasing batch) :
      Turns setup s r .lease s { r with phase := .executing batch lease x }
  | executed {batch : List Pending} {lease : Nat} {x x' : Execution} {s' : σ}
      {e : Relay.RunEvent} (hp : r.phase = .executing batch lease x) (hs : Untouched s s')
      (he : r.noted? e = none) : Turns setup s r e s' { r with phase := .executing batch lease x' }
  | concluded {batch : List Pending} {lease : Nat} {result : Except PipelineError Completion}
      (hp : r.phase = .executing batch lease (.finished result)) :
      Turns setup s r .release s { r with phase := .concluded r (outputsOf setup) batch result }
  | requeued {batch left : List Pending} {deposit : Deposit} {m : Pending}
      (hp : r.phase = .requeuing batch deposit) (hd : deposit.phase = .pushing (m :: left)) :
      Turns setup s r (.access none) (Pending.push s r.ticket.user m)
        { r with phase := .requeuing batch { deposit with phase := .ofLeft left } }
  | unrequeued {batch left : List Pending} {deposit : Deposit} {m : Pending} (cause : StoreError)
      (hp : r.phase = .requeuing batch deposit) (hd : deposit.phase = .pushing (m :: left)) :
      Turns setup s r (.access (some cause)) s
        { r with phase := .finished (.superseded batch (.error (.store cause))) }
  | rearmed {batch : List Pending} {deposit : Deposit} (outcome : Except TaskError Unit)
      (hp : r.phase = .requeuing batch deposit) (hd : deposit.phase = .arming) :
      Turns setup s r .arm s
        { r with phase := .finished (.superseded batch (outcome.mapError .task)) }
  | restored {batch left : List Pending} {m : Pending} {cause : PipelineError}
      (hp : r.phase = .restoring batch (m :: left) cause) :
      Turns setup s r (.access none) (Pending.push s r.ticket.user m)
        { r with phase := .restored batch cause left }
  | unrestored {batch left : List Pending} {m : Pending} {reason : PipelineError}
      (cause : StoreError) (hp : r.phase = .restoring batch (m :: left) reason) :
      Turns setup s r (.access (some cause)) s
        { r with phase := .notify (outputsOf setup) (.abandoned batch cause) }
  | marked {batch : List Pending} (hp : r.phase = .marking batch) :
      Turns setup s r (.access none) (mark s r.ticket.user (Batch.sourceIds batch))
        { r with phase := .finished (.answered batch) }
  | unmarked {batch : List Pending} (cause : StoreError) (hp : r.phase = .marking batch) :
      Turns setup s r (.access (some cause)) s { r with phase := .finished (.answered batch) }
  | notified {slots : List (Option Bool)} {ending : Ending} (slot : Nat) (success : Bool)
      (hp : r.phase = .notifying slots ending) :
      Turns setup s r (.notified slot success) s
        { r with phase := .ofNotice (fillSlot slots slot success) ending }

variable {setup : Relay.Setup} {s : σ} {r : BatchRun}

/-! ## Nothing else comes of an event -/

theorem turns_requeuing {batch : List Pending} {deposit : Deposit} (fault : Option StoreError)
    (hr : r.Steady) (hp : r.phase = .requeuing batch deposit) :
    r.Turns setup s (.access fault) (r.access (outputsOf setup) fault s).1
      (r.access (outputsOf setup) fault s).2 := by
  simp only [Steady, hp] at hr
  obtain ⟨ht, hd | ⟨m, left, hd⟩⟩ := hr
  · -- the batch is back already, and there is nothing to put into the list
    have hsame : r.access (outputsOf setup) fault s = (s, r) := by
      simp only [access, hp, Deposit.push, hd, Deposit.result?]
      rw [← hp]
    rw [hsame]
    apply Turns.unmoved
    · simp [hp]
    · simp [noted?, nextBack?, hp, hd, Deposit.Phase.left]
  · have hu : deposit.ticket.user = r.ticket.user := congrArg Ticket.user ht
    cases fault with
    | none =>
      have h : r.Turns setup s _ _ _ := .requeued hp hd
      cases left <;>
        simpa [access, hp, hd, hu, Deposit.push, Deposit.result?, Deposit.Phase.ofLeft] using h
    | some cause =>
      have h : r.Turns setup s _ _ _ := .unrequeued cause hp hd
      simpa [access, hp, hd, Deposit.push, Deposit.result?] using h

theorem turns_access (fault : Option StoreError) (hr : r.Steady) :
    r.Turns setup s (.access fault) (r.access (outputsOf setup) fault s).1
      (r.access (outputsOf setup) fault s).2 := by
  -- phases that do not use the store
  have hidle : r.access (outputsOf setup) fault s = (s, r) → r.phase ≠ .draining →
      r.nextBack? = none →
      r.Turns setup s (.access fault) (r.access (outputsOf setup) fault s).1
        (r.access (outputsOf setup) fault s).2 := by
    intro hsame hd hb
    rw [hsame]
    exact .unmoved (fun _ _ => hd) (by rw [noted?, hb]; rfl)
  cases hp : r.phase with
  | draining =>
    cases fault with
    | none => simpa [access, hp, waiting] using (.drained hp : r.Turns setup s _ _ _)
    | some cause => simpa [access, hp] using (.undrained cause hp : r.Turns setup s _ _ _)
  | checking drained =>
    cases fault with
    | none => simpa [access, hp] using (.checked hp : r.Turns setup s _ _ _)
    | some cause => simpa [access, hp] using (.unchecked cause hp : r.Turns setup s _ _ _)
  | executing batch lease x =>
    have hs := (x.follows_keep fault s).2
    have he : r.noted? (.access fault) = none := by simp [noted?, nextBack?, hp]
    simpa [access, hp] using (.executed hp hs he : r.Turns setup s _ _ _)
  | marking batch =>
    cases fault with
    | none => simpa [access, hp] using (.marked hp : r.Turns setup s _ _ _)
    | some cause => simpa [access, hp] using (.unmarked cause hp : r.Turns setup s _ _ _)
  | requeuing batch deposit => exact turns_requeuing fault hr hp
  | restoring batch left reason =>
    cases left with
    | nil => simp [Steady, hp] at hr
    | cons m left =>
      cases fault with
      | none => simpa [access, hp] using (.restored hp : r.Turns setup s _ _ _)
      | some cause => simpa [access, hp] using (.unrestored cause hp : r.Turns setup s _ _ _)
  | leasing batch => apply hidle <;> simp [access, nextBack?, hp]
  | notifying slots ending => apply hidle <;> simp [access, nextBack?, hp]
  | finished ending => apply hidle <;> simp [access, nextBack?, hp]

theorem turns_mapExecution (f : Execution → Execution) {e : Relay.RunEvent}
    (ha : ∀ fault, e ≠ .access fault) (he : r.noted? e = none) :
    r.Turns setup s e s (r.mapExecution f) := by
  unfold mapExecution
  split
  · next hp => exact .executed hp (.refl s) he
  · exact .unmoved (fun fault heq => absurd heq (ha fault)) he

/-- What comes of the part that a run has in an event is among these. -/
theorem turns_turn (c : Circumstances) (hr : r.Steady) (e : Relay.RunEvent) :
    r.Turns setup s e (r.turn setup c s e).1 (r.turn setup c s e).2 := by
  cases e with
  | access fault => exact turns_access fault hr
  | lease =>
    simp only [turn, BatchRun.leased]
    split
    · next hp => exact .leased c.lease _ hp
    · next hp =>
      refine .unmoved (by simp) ?_
      unfold noted?
      split <;> simp_all
  | enriched slot outcome => exact turns_mapExecution _ (by simp) rfl
  | compose => exact turns_mapExecution _ (by simp) rfl
  | generated outcome => exact turns_mapExecution _ (by simp) rfl
  | delivered slot success => exact turns_mapExecution _ (by simp) rfl
  | release =>
    simp only [turn, BatchRun.concluded]
    split
    · next hp => exact .concluded hp
    · next hp =>
      refine .unmoved (by simp) ?_
      unfold noted?
      split <;> simp_all
  | arm =>
    simp only [turn]
    split
    · next harm =>
      cases hp : r.phase with
      | requeuing batch deposit =>
        have hd : deposit.phase = .arming := by simpa [isArming, hp] using harm
        simpa [armed, hp, Deposit.armed, hd, Deposit.result?] using
          (.rearmed c.armed hp hd : r.Turns setup s _ _ _)
      | _ => simp [isArming, hp] at harm
    · exact .unmoved (by simp) rfl
  | notified slot success =>
    simp only [turn, BatchRun.notified]
    split
    · next hp => exact .notified slot success hp
    · next hp =>
      refine .unmoved (by simp) ?_
      unfold noted?
      split <;> simp_all

/-! ## What stays -/

theorem Turns.frame {s' : σ} {r' : BatchRun} {e : Relay.RunEvent} (h : r.Turns setup s e s' r') :
    r'.ticket = r.ticket ∧ r'.firing = r.firing ∧ r'.attempt = r.attempt := by
  cases h with
  | drained hp => exact ofDrained_frame ..
  | _ => exact ⟨rfl, rfl, rfl⟩

theorem steady_ofNotice (r : BatchRun) (slots : List (Option Bool)) {ending : Ending}
    (he : ending.mayTell) : ({ r with phase := .ofNotice slots ending } : BatchRun).Steady := by
  unfold Phase.ofNotice
  cases filled? slots with
  | none => exact he
  | some _ => trivial

theorem steady_ofFresh (r : BatchRun) (answered drained fresh : List Pending) :
    (r.ofFresh answered drained fresh).Steady := by
  unfold ofFresh
  cases hn : Batch.normalize fresh <;> simp [Steady]

theorem steady_ofDrained (r : BatchRun) (drained : List Pending) :
    (r.ofDrained drained).Steady := by
  unfold ofDrained
  split
  · trivial
  · split
    · exact steady_ofFresh ..
    · trivial

theorem steady_concluded (r : BatchRun) (outputs : List Output) {batch : List Pending}
    (hb : batch ≠ []) (result : Except PipelineError Completion) :
    ({ r with phase := .concluded r outputs batch result } : BatchRun).Steady := by
  unfold Phase.concluded
  split
  · split <;> trivial
  · obtain ⟨m, left, rfl⟩ := List.exists_cons_of_ne_nil hb
    exact ⟨rfl, .inr ⟨m, left, rfl⟩⟩
  · split
    · exact hb
    · exact steady_ofNotice r _ rfl

theorem steady_ofPayload (payload : Json) (attempt : Timer.Attempt) (firing : Option Nat) :
    (ofPayload payload attempt firing).Steady := by
  unfold ofPayload
  split <;> trivial

theorem Turns.steady {s' : σ} {r' : BatchRun} {e : Relay.RunEvent} (h : r.Turns setup s e s' r')
    (hr : r.Steady) : r'.Steady := by
  cases h with
  | unmoved hd he => exact hr
  | drained hp => exact steady_ofDrained ..
  | undrained cause hp =>
    split
    · exact steady_ofNotice r _ rfl
    · trivial
  | checked hp => exact steady_ofFresh ..
  | unchecked cause hp => exact steady_ofFresh ..
  | leased lease x hp => simpa [Steady, hp] using hr
  | executed hp hs he => simpa [Steady, hp] using hr
  | concluded hp => exact steady_concluded r _ (by simpa [Steady, hp] using hr) _
  | @requeued batch left deposit m hp hd =>
    simp only [Steady, hp] at hr
    refine ⟨hr.1, ?_⟩
    cases left with
    | nil => exact .inl rfl
    | cons n left => exact .inr ⟨n, left, rfl⟩
  | unrequeued cause hp hd => trivial
  | rearmed outcome hp hd => trivial
  | @restored batch left m cause hp =>
    cases left with
    | nil => trivial
    | cons n left => exact List.cons_ne_nil n left
  | unrestored cause hp => exact steady_ofNotice r _ rfl
  | marked hp => trivial
  | unmarked cause hp => trivial
  | notified slot success hp => exact steady_ofNotice r _ (by simpa [Steady, hp] using hr)

/-! ## What becomes of the store -/

theorem Turns.sound {s' : σ} {r' : BatchRun} {e : Relay.RunEvent} (h : r.Turns setup s e s' r')
    (hs : LawfulStore.Sound s) : LawfulStore.Sound s' := by
  cases h with
  | drained hp => exact LawfulStore.sound_drain _ hs
  | executed hp hst he => exact hst.sound hs
  | requeued hp hd => exact LawfulStore.sound_append _ _ hs
  | restored hp => exact LawfulStore.sound_append _ _ hs
  | marked hp => exact LawfulStore.sound_mark _ _ hs
  | _ => exact hs

theorem Turns.marked_stays {s' : σ} {r' : BatchRun} {e : Relay.RunEvent}
    (h : r.Turns setup s e s' r') {user id : String} (hm : Marked s user id) :
    Marked s' user id := by
  cases h with
  | drained hp => exact marked_takeAll.mpr hm
  | executed hp hst he => exact (hst.marked user id).mpr hm
  | requeued hp hd => exact marked_push.mpr hm
  | restored hp => exact marked_push.mpr hm
  | marked hp => exact LawfulStore.marked_mark.mpr (.inr hm)
  | _ => exact hm

theorem Turns.texts {s' : σ} {r' : BatchRun} {e : Relay.RunEvent} (h : r.Turns setup s e s' r')
    (hs : LawfulStore.Sound s) (user : String) :
    KeyedLists.texts s' (Pending.listKey user) =
      (r.touch e).on user (KeyedLists.texts s (Pending.listKey user)) := by
  cases h with
  | @unmoved e hd he =>
    have hnone : r.touch e = .none := by
      unfold touch
      split
      · have hback : r.nextBack? = Option.none := by simpa [noted?] using he
        split
        · next hp => exact absurd hp (hd _ rfl)
        · rw [hback]
      · rfl
    rw [hnone]
    rfl
  | drained hp =>
    rw [texts_take hs]
    simp [touch, hp]
  | @executed batch lease x x' s' e hp hst he =>
    have hnone : r.touch e = .none := by
      unfold touch
      split <;> simp [hp, nextBack?]
    rw [hnone, hst.texts]
    rfl
  | requeued hp hd =>
    rw [texts_put hs]
    simp [touch, hp, nextBack?, hd, Deposit.Phase.left]
  | restored hp =>
    rw [texts_put hs]
    simp [touch, hp, nextBack?]
  | marked hp =>
    rw [LawfulStore.texts_mark]
    simp [touch, hp, nextBack?, Touch.on]
  | _ => simp_all [touch, nextBack?, Touch.on]

end

end BatchRun
end ChatRelay
