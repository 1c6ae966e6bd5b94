import ChatRelay.Batch.Run
import ChatRelay.Proofs.Batch.Encoding
import ChatRelay.Proofs.Batch.Normalize
import ChatRelay.Proofs.Store.Lawful

/-!
# How a run gets on

`BatchRun.Progress` lists what a single event can make of a run and of the store, as long as lists
do not fail: the messages that the run takes and puts back, and the phases that it passes through.
-/

namespace ChatRelay

open KeyedLists AnsweredIds

def waiting {σ : Type} [KeyedLists σ] (s : σ) (user : String) : List Pending :=
  (Pending.takeAll s user).1

section
variable {σ : Type} [Store σ] [LawfulStore σ]

/-- A change of the store that touches neither lists nor answered ids. -/
structure Untouched (s s' : σ) : Prop where
  sound : LawfulStore.Sound s → LawfulStore.Sound s'
  texts : ∀ key, texts s' key = texts s key
  marked : ∀ user id, Marked s' user id ↔ Marked s user id

theorem Untouched.refl (s : σ) : Untouched s s := ⟨id, fun _ => rfl, fun _ _ => Iff.rfl⟩

theorem untouched_addTurns (s : σ) (user : String) (turns : List Turn) :
    Untouched s (Conversations.addTurns s user turns) where
  sound := LawfulStore.sound_addTurns user turns
  texts := LawfulStore.texts_addTurns s user turns
  marked _ _ := LawfulStore.marked_addTurns

theorem Untouched.waiting {s s' : σ} (h : Untouched s s') (user : String) :
    waiting s' user = waiting s user := congrArg Pending.decodeAll (h.texts _)

theorem texts_push {s : σ} (hs : LawfulStore.Sound s) (user other : String) (m : Pending) :
    texts (Pending.push s user m) (Pending.listKey other) =
      if other = user then texts s (Pending.listKey user) ++ [m.encode]
      else texts s (Pending.listKey other) := by
  rw [Pending.push, LawfulStore.texts_append _ _ _ hs]
  by_cases h : other = user
  · rw [h, if_pos rfl, if_pos rfl]
  · rw [if_neg h, if_neg fun hk => h (Pending.listKey_injective hk)]

theorem waiting_push {s : σ} (hs : LawfulStore.Sound s) (user other : String) {m : Pending}
    (hm : m.IsStorable) :
    waiting (Pending.push s user m) other =
      if other = user then waiting s user ++ [m] else waiting s other := by
  have hone : Pending.decodeAll [m.encode] = [m] :=
    Pending.decodeAll_encode (show ∀ n ∈ [m], n.IsStorable by simpa using hm)
  change Pending.decodeAll (texts _ _) = _
  rw [texts_push hs]
  split
  · rw [Pending.decodeAll, List.filterMap_append]
    exact congrArg (_ ++ ·) hone
  · rfl

theorem texts_takeAll {s : σ} (hs : LawfulStore.Sound s) (user other : String) :
    texts (Pending.takeAll s user).2 (Pending.listKey other) =
      if other = user then [] else texts s (Pending.listKey other) := by
  change texts (drain s _).2 _ = _
  rw [LawfulStore.texts_drain _ _ hs]
  by_cases h : other = user
  · rw [h, if_pos rfl, if_pos rfl]
  · rw [if_neg h, if_neg fun hk => h (Pending.listKey_injective hk)]

theorem waiting_takeAll {s : σ} (hs : LawfulStore.Sound s) (user other : String) :
    waiting (Pending.takeAll s user).2 other = if other = user then [] else waiting s other := by
  change Pending.decodeAll (texts _ _) = _
  rw [texts_takeAll hs]
  split <;> rfl

theorem marked_push {s : σ} {user other id : String} {m : Pending} :
    Marked (Pending.push s user m) other id ↔ Marked s other id := LawfulStore.marked_append

theorem marked_takeAll {s : σ} {user other id : String} :
    Marked (Pending.takeAll s user).2 other id ↔ Marked s other id := LawfulStore.marked_drain

end

namespace Deposit

def Phase.left : Phase → List Pending
  | .pushing left => left
  | _ => []

theorem Phase.left_ofLeft (left : List Pending) : (Phase.ofLeft left).left = left := by
  cases left <;> rfl

theorem ticket_push {σ : Type} [KeyedLists σ] (fault : Option StoreError) (s : σ) (d : Deposit) :
    (d.push fault s).2.ticket = d.ticket := by
  unfold push
  split
  · cases fault <;> rfl
  · rfl

theorem ticket_armed (outcome : Except TaskError Unit) (d : Deposit) :
    (d.armed outcome).ticket = d.ticket := by
  unfold armed
  split <;> rfl

end Deposit

namespace Execution

def request? : Execution → Option Request
  | .enriching p _ _ | .generating p _ _ | .keeping p _ _ | .delivering p _ _ => some p.request
  | .finished _ => none

/-- What becomes of an execution: it passes the same request on, and stays finished. -/
structure Follows (x x' : Execution) : Prop where
  request : ∀ {q}, x'.request? = some q → x.request? = some q
  finished : ∀ {result}, x = .finished result → x' = x

theorem Follows.refl (x : Execution) : Follows x x := ⟨id, fun _ => rfl⟩

theorem request?_start (p : Passage) {q : Request} (h : (start p).request? = some q) :
    q = p.request := by
  unfold start at h
  split at h
  · exact (Option.some.inj h).symm
  · cases h

theorem request?_begin (channels : ChannelRegistry) (id : String) (request : Request) {q : Request}
    (h : (begin channels id request none false).request? = some q) : q = request := by
  unfold begin at h
  split at h
  · exact request?_start _ h
  · cases h

theorem request?_deliver (p : Passage) (reply : Provider.Reply) (slots : List (Option Bool))
    {q : Request} (h : (deliver p reply slots).request? = some q) : p.request = q := by
  unfold deliver at h
  split at h
  · cases h
  · exact Option.some.inj h

theorem follows_enriched (slot : Nat) (outcome : EnricherOutcome) (x : Execution) :
    Follows x (x.enriched slot outcome) := by
  cases x with
  | enriching p message slots => exact ⟨id, nofun⟩
  | _ => exact .refl _

theorem follows_compose (calledOff : Bool) (x : Execution) : Follows x (x.compose calledOff) := by
  cases x with
  | enriching p message slots =>
    refine ⟨fun {q} h => ?_, nofun⟩
    unfold compose at h
    dsimp only at h
    split at h
    · exact h
    · split at h
      · cases h
      · exact h
  | _ => exact .refl _

theorem follows_generated (calledOff : Bool) (outcome : Except EngineError Provider.Reply)
    (x : Execution) : Follows x (x.generated calledOff outcome) := by
  cases x with
  | generating p message prompt =>
    refine ⟨fun {q} h => ?_, nofun⟩
    unfold generated at h
    dsimp only at h
    split at h
    · cases h
    · split at h
      · cases h
      · exact h
  | _ => exact .refl _

theorem follows_delivered (slot : Nat) (success : Bool) (x : Execution) :
    Follows x (x.delivered slot success) := by
  cases x with
  | delivering p reply slots =>
    exact ⟨fun h => congrArg some (request?_deliver _ _ _ h), nofun⟩
  | _ => exact .refl _

variable {σ : Type} [Store σ] [LawfulStore σ]

theorem follows_keep (fault : Option StoreError) (s : σ) (x : Execution) :
    Follows x (x.keep fault s).2 ∧ Untouched s (x.keep fault s).1 := by
  cases x with
  | keeping p message reply =>
    refine ⟨⟨fun h => congrArg some (request?_deliver _ _ _ h), nofun⟩, ?_⟩
    cases fault with
    | none => exact untouched_addTurns ..
    | some cause => exact .refl s
  | _ => exact ⟨.refl _, .refl s⟩

end Execution

/-- What an event does that matters beyond the one to whom it happens. -/
inductive Deed where
  | none
  /-- A message of a user is put into the list for the first time. -/
  | accepted (user : String) (m : Pending)
  /-- The task of an accepted message is armed. -/
  | armed (ticket : Ticket)
  /-- A message that a run had taken is put back. -/
  | putBack (user : String) (m : Pending)
  /-- The task of a batch that was called off is armed again. -/
  | rearmed (ticket : Ticket)
  /-- A failed task is tried again. -/
  | retried (task : Timer.Task)
deriving DecidableEq

namespace BatchRun

def usesList (r : BatchRun) : Bool :=
  match r.phase with
  | .draining | .requeuing _ _ | .restoring _ _ _ => true
  | _ => false

def nextBack? (r : BatchRun) : Option Pending :=
  match r.phase with
  | .requeuing _ deposit => deposit.phase.left.head?
  | .restoring _ left _ => left.head?
  | _ => none

def isArming (r : BatchRun) : Bool :=
  match r.phase with
  | .requeuing _ deposit => deposit.phase = .arming
  | _ => false

/-- The messages that the run has taken, and that are neither back nor done with. -/
def held (r : BatchRun) : List Pending :=
  match r.phase with
  | .checking drained => drained
  | .leasing batch | .executing batch _ _ => batch
  | .requeuing _ deposit => deposit.phase.left
  | .restoring _ left _ => left
  | _ => []

/-- What goes without saying for a run, as long as lists do not fail. -/
def Orderly (r : BatchRun) : Prop :=
  match r.phase with
  | .draining => r.leftOut = []
  | .checking drained => drained ≠ [] ∧ r.leftOut = []
  | .leasing batch => batch ≠ [] ∧ Batch.normalize batch = batch
  | .executing batch _ x => batch ≠ [] ∧ Batch.normalize batch = batch ∧
      ∀ q, x.request? = some q → q = r.request batch
  | .requeuing batch deposit => deposit.ticket = r.ticket ∧ Batch.DistinctIds batch ∧
      (deposit.phase = .arming ∨ ∃ m left, deposit.phase = .pushing (m :: left)) ∧
      ∃ back, batch = back ++ deposit.phase.left
  | .restoring batch left cause => left ≠ [] ∧ Batch.DistinctIds batch ∧ r.putsBack cause ∧
      ∃ back, batch = back ++ left
  | .notifying _ ending => ∃ batch cause, ending = .dismissed batch cause
  | .finished (.restored _ cause) => r.putsBack cause
  | .finished (.unavailable _) | .finished (.abandoned _ _) => False
  | _ => True

def accessDeed (r : BatchRun) : Deed :=
  match r.nextBack? with
  | some m => .putBack r.ticket.user m
  | none => .none

theorem accessDeed_ne_rearmed (r : BatchRun) (t : Ticket) : r.accessDeed ≠ .rearmed t := by
  unfold accessDeed
  split <;> simp

/-- What an event may make of a run and the store, as long as lists do not fail. -/
inductive Progress {σ : Type} [Store σ] [LawfulStore σ] (s : σ) (r : BatchRun) :
    Deed → σ → BatchRun → Prop
  | idle : Progress s r .none s r
  | drained (hp : r.phase = .draining) :
      Progress s r .none (Pending.takeAll s r.ticket.user).2 (r.ofDrained (waiting s r.ticket.user))
  | checked {drained : List Pending} (answered : List String) (hp : r.phase = .checking drained)
      (ha : ∀ id ∈ answered, Marked s r.ticket.user id) :
      Progress s r .none s
        (r.ofFresh (Batch.onlyAnswered answered drained) drained
          (Batch.dropAnswered answered drained))
  | leased {batch : List Pending} (lease : Nat) (x : Execution) (hp : r.phase = .leasing batch)
      (hx : ∀ q, x.request? = some q → q = r.request batch) :
      Progress s r .none s { r with phase := .executing batch lease x }
  | executed {batch : List Pending} {lease : Nat} {x x' : Execution} {s' : σ}
      (hp : r.phase = .executing batch lease x) (hx : x.Follows x') (hs : Untouched s s') :
      Progress s r .none s' { r with phase := .executing batch lease x' }
  | concluded {batch : List Pending} {lease : Nat} {result : Except PipelineError Completion}
      (outputs : List Output) (hp : r.phase = .executing batch lease (.finished result)) :
      Progress s r .none s { r with phase := .concluded r outputs batch result }
  | requeued {batch left : List Pending} {deposit : Deposit} {m : Pending}
      (hp : r.phase = .requeuing batch deposit) (hd : deposit.phase = .pushing (m :: left)) :
      Progress s r (.putBack r.ticket.user m) (Pending.push s r.ticket.user m)
        { r with phase := .requeuing batch { deposit with phase := .ofLeft left } }
  | rearmed {batch : List Pending} {deposit : Deposit} (outcome : Except RelayError Unit)
      (hp : r.phase = .requeuing batch deposit) (hd : deposit.phase = .arming) :
      Progress s r (.rearmed r.ticket) s { r with phase := .finished (.superseded batch outcome) }
  | restored {batch left : List Pending} {m : Pending} {cause : PipelineError}
      (hp : r.phase = .restoring batch (m :: left) cause) :
      Progress s r (.putBack r.ticket.user m) (Pending.push s r.ticket.user m)
        { r with phase := .restored batch cause left }
  | marked {batch : List Pending} (hp : r.phase = .marking batch) :
      Progress s r .none (AnsweredIds.mark s r.ticket.user (Batch.sourceIds batch))
        { r with phase := .finished (.answered batch) }
  | unmarked {batch : List Pending} (hp : r.phase = .marking batch) :
      Progress s r .none s { r with phase := .finished (.answered batch) }
  | notified {slots : List (Option Bool)} {ending : Ending} (slots' : List (Option Bool))
      (hp : r.phase = .notifying slots ending) :
      Progress s r .none s { r with phase := .ofNotice slots' ending }

section
variable {σ : Type} [Store σ] [LawfulStore σ]

theorem progress_access (outputs : List Output) {fault : Option StoreError} (s : σ) {r : BatchRun}
    (hr : r.Orderly) (hf : r.usesList → fault = none) :
    Progress s r r.accessDeed (r.access outputs fault s).1 (r.access outputs fault s).2 := by
  cases hp : r.phase with
  | draining =>
    obtain rfl := hf (by simp [usesList, hp])
    simpa [accessDeed, nextBack?, access, hp, waiting] using Progress.drained (s := s) hp
  | checking drained =>
    cases fault with
    | none =>
      simpa [accessDeed, nextBack?, access, hp] using Progress.checked (s := s)
        (AnsweredIds.seen s r.ticket.user (Batch.sourceIds drained)) hp
        fun id hid => (LawfulStore.mem_seen.mp hid).2
    | some cause =>
      have h := Progress.checked (s := s) [] hp (by simp)
      simpa [accessDeed, nextBack?, access, hp] using h
  | leasing batch => simpa [accessDeed, nextBack?, access, hp] using Progress.idle
  | executing batch lease x =>
    obtain ⟨hx, hs⟩ := x.follows_keep fault s
    simpa [accessDeed, nextBack?, access, hp] using Progress.executed hp hx hs
  | marking batch =>
    cases fault with
    | none => simpa [accessDeed, nextBack?, access, hp] using Progress.marked (s := s) hp
    | some cause => simpa [accessDeed, nextBack?, access, hp] using Progress.unmarked (s := s) hp
  | requeuing batch deposit =>
    obtain rfl := hf (by simp [usesList, hp])
    simp only [Orderly, hp] at hr
    obtain ⟨ht, -, hd | ⟨m, left, hd⟩, -⟩ := hr
    · have hsame : r.access outputs none s = (s, r) := by
        simp only [access, hp, Deposit.push, hd, Deposit.result?]
        rw [← hp]
      rw [hsame]
      simpa [accessDeed, nextBack?, hp, hd, Deposit.Phase.left] using Progress.idle
    · have h := Progress.requeued (s := s) hp hd
      have hu : deposit.ticket.user = r.ticket.user := congrArg Ticket.user ht
      cases left <;>
        simpa [accessDeed, nextBack?, access, hp, hd, hu, Deposit.push, Deposit.Phase.left,
          Deposit.result?, Deposit.Phase.ofLeft] using h
  | restoring batch left cause =>
    obtain rfl := hf (by simp [usesList, hp])
    cases left with
    | nil => simpa [accessDeed, nextBack?, access, hp] using Progress.idle
    | cons m left => simpa [accessDeed, nextBack?, access, hp] using Progress.restored (s := s) hp
  | notifying slots ending => simpa [accessDeed, nextBack?, access, hp] using Progress.idle
  | finished ending => simpa [accessDeed, nextBack?, access, hp] using Progress.idle

theorem Progress.ne_accepted {s s' : σ} {r r' : BatchRun} {d : Deed} (h : Progress s r d s' r')
    (user : String) (m : Pending) : d ≠ .accepted user m := by
  cases h <;> simp

theorem ofDrained_frame (r : BatchRun) (drained : List Pending) :
    (r.ofDrained drained).ticket = r.ticket ∧ (r.ofDrained drained).firing = r.firing ∧
      (r.ofDrained drained).attempt = r.attempt := by
  unfold ofDrained
  split
  · exact ⟨rfl, rfl, rfl⟩
  · split <;> exact ⟨rfl, rfl, rfl⟩

theorem Progress.frame {s s' : σ} {r r' : BatchRun} {d : Deed}
    (h : Progress s r d s' r') :
    r'.ticket = r.ticket ∧ r'.firing = r.firing ∧ r'.attempt = r.attempt := by
  cases h with
  | drained hp => exact ofDrained_frame ..
  | _ => exact ⟨rfl, rfl, rfl⟩

theorem orderly_ofFresh (r : BatchRun) (answered drained fresh : List Pending) :
    (r.ofFresh answered drained fresh).Orderly := by
  unfold ofFresh Orderly
  dsimp only
  cases hn : Batch.normalize fresh with
  | nil => trivial
  | cons m batch => exact ⟨List.cons_ne_nil _ _, hn ▸ Batch.normalize_normalize fresh⟩

theorem orderly_ofDrained {r : BatchRun} (h : r.leftOut = []) (drained : List Pending) :
    (r.ofDrained drained).Orderly := by
  unfold ofDrained
  split
  · trivial
  · next hne =>
    split
    · exact orderly_ofFresh ..
    · exact ⟨by simpa using hne, h⟩

theorem orderly_ofNotice (r : BatchRun) (slots : List (Option Bool)) {ending : Ending}
    (h : ∃ batch cause, ending = .dismissed batch cause) :
    ({ r with phase := .ofNotice slots ending } : BatchRun).Orderly := by
  obtain ⟨batch, cause, rfl⟩ := h
  unfold Phase.ofNotice
  cases filled? slots with
  | none => exact ⟨batch, cause, rfl⟩
  | some _ => trivial

theorem orderly_concluded (r : BatchRun) (outputs : List Output) {batch : List Pending}
    (hb : batch ≠ []) (hn : Batch.normalize batch = batch)
    (result : Except PipelineError Completion) :
    ({ r with phase := .concluded r outputs batch result } : BatchRun).Orderly := by
  have hd : Batch.DistinctIds batch := hn ▸ Batch.distinctIds_normalize batch
  unfold Phase.concluded
  split
  · split <;> trivial
  · obtain ⟨m, left, rfl⟩ := List.exists_cons_of_ne_nil hb
    exact ⟨rfl, hd, .inr ⟨m, left, rfl⟩, [], rfl⟩
  · next cause _ =>
    split
    · next hback => exact ⟨hb, hd, hback, [], rfl⟩
    · exact orderly_ofNotice r _ ⟨batch, cause, rfl⟩

theorem Progress.orderly {s s' : σ} {r r' : BatchRun} {d : Deed}
    (h : Progress s r d s' r') (hr : r.Orderly) : r'.Orderly := by
  cases h with
  | idle => exact hr
  | drained hp =>
    simp only [Orderly, hp] at hr
    exact orderly_ofDrained hr _
  | checked answered hp ha => exact orderly_ofFresh ..
  | leased lease x hp hx =>
    simp only [Orderly, hp] at hr
    exact ⟨hr.1, hr.2, hx⟩
  | executed hp hx hs =>
    simp only [Orderly, hp] at hr
    exact ⟨hr.1, hr.2.1, fun q hq => hr.2.2 q (hx.request hq)⟩
  | concluded outputs hp =>
    simp only [Orderly, hp] at hr
    exact orderly_concluded r outputs hr.1 hr.2.1 _
  | @requeued batch left deposit m hp hd =>
    simp only [Orderly, hp, hd, Deposit.Phase.left] at hr
    obtain ⟨ht, hids, -, back, hback⟩ := hr
    refine ⟨ht, hids, ?_, back ++ [m], by simpa [Deposit.Phase.left_ofLeft] using hback⟩
    cases left with
    | nil => exact .inl rfl
    | cons n left => exact .inr ⟨n, left, rfl⟩
  | rearmed outcome hp hd => trivial
  | @restored batch left m cause hp =>
    simp only [Orderly, hp] at hr
    obtain ⟨-, hids, hputs, back, hback⟩ := hr
    cases left with
    | nil => exact hputs
    | cons n left =>
      exact ⟨List.cons_ne_nil _ _, hids, hputs, back ++ [m], by simpa using hback⟩
  | marked hp => trivial
  | unmarked hp => trivial
  | notified slots' hp =>
    simp only [Orderly, hp] at hr
    exact orderly_ofNotice r slots' hr

theorem Progress.sound {s s' : σ} {r r' : BatchRun} {d : Deed}
    (h : Progress s r d s' r') (hs : LawfulStore.Sound s) : LawfulStore.Sound s' := by
  cases h with
  | drained hp => exact LawfulStore.sound_drain _ hs
  | executed hp hx hst => exact hst.sound hs
  | requeued hp hd => exact LawfulStore.sound_append _ _ hs
  | restored hp => exact LawfulStore.sound_append _ _ hs
  | marked hp => exact LawfulStore.sound_mark _ _ hs
  | _ => exact hs

end

end BatchRun
end ChatRelay
