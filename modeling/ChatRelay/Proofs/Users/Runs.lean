import ChatRelay.Proofs.Relay.CallingOff
import ChatRelay.Proofs.Users.Belongings
import ChatRelay.Proofs.Users.Tokens

/-!
# Runs under other names

A run names its firing and its lease by numbers, which it never looks into. So the run does the same
whatever the numbers are, as long as the relay tells it the same of its lease and the store has the
same for its user.
-/

namespace ChatRelay
open KeyedLists AnsweredIds

/-- What a relay says on behalf of a user: the requests that it executes, what it asks the engine,
and what it sends to outputs. -/
inductive Saying where
  | executes (request : Request)
  | asks (prompt : Prompt)
  | sends (output : String) (dispatch : Dispatch)

def Saying.IsFor (user : String) : Saying → Prop
  | executes request => request.user = user
  | asks _ => True
  | sends _ dispatch => dispatch.user = user

namespace Execution

def sayings : Execution → Execution → List Saying
  | .enriching _ _ _, .generating _ _ prompt => [.asks prompt]
  | x, .delivering _ _ _ => x.dispatches.map fun d => .sends d.1 d.2
  | _, _ => []

theorem isFor_of_mem_sayings {user : String} {y : Saying} (x : Execution) {x' : Execution}
    (hx : ∀ q, x.request? = some q → q.user = user) (hy : y ∈ x.sayings x') : y.IsFor user := by
  have hdispatch : y ∈ x.dispatches.map (fun d => Saying.sends d.1 d.2) → y.IsFor user := by
    intro hy
    obtain ⟨d, hd, rfl⟩ := List.mem_map.mp hy
    cases x with
    | keeping p message reply =>
      obtain ⟨o, -, rfl⟩ := List.mem_map.mp hd
      exact hx _ rfl
    | _ => cases hd
  cases x' with
  | generating p' message' prompt =>
    cases x with
    | enriching p message slots =>
      obtain rfl := List.mem_singleton.mp hy
      trivial
    | _ => cases hy
  | delivering p' reply slots => exact hdispatch (by cases x <;> exact hy)
  | _ => cases x <;> cases hy

def operation? : Execution → Option Store.Operation
  | .keeping p message reply => some (.addTurns p.request.user (turnsToKeep message reply))
  | _ => none

theorem keep_congr {σ : Type} [Store σ] (fault : Option StoreError) (s s' : σ) (x : Execution) :
    (x.keep fault s).2 = (x.keep fault s').2 := by
  cases x <;> rfl

end Execution

theorem Deposit.push_congr {σ : Type} [KeyedLists σ] (fault : Option StoreError) (s s' : σ)
    (d : Deposit) : (d.push fault s).2 = (d.push fault s').2 := by
  unfold push
  split
  · cases fault <;> rfl
  · rfl

namespace BatchRun

def Phase.coded (code : Nat → Nat) : Phase → Phase
  | .executing batch lease x => .executing batch (code lease) x
  | p => p

/-- A run whose firing and lease bear other numbers. -/
def renamed (place code : Nat → Nat) (r : BatchRun) : BatchRun :=
  { r with firing := r.firing.map place, phase := r.phase.coded code }

def sayings (setup : Relay.Setup) (r r' : BatchRun) : List Saying :=
  match r.phase, r'.phase with
  | .leasing batch, .executing _ _ _ => [.executes (r.request batch)]
  | .executing _ _ x, .executing _ _ x' => x.sayings x'
  | .notifying _ _, _ => []
  | _, .notifying _ _ =>
    (outputsOf setup).map fun o => .sends o.name (r.notice setup.primary setup.fallback)
  | _, _ => []

def operation? (r : BatchRun) : Relay.RunEvent → Option Store.Operation
  | .access none =>
    match r.phase with
    | .draining => some (.drain (Pending.listKey r.ticket.user))
    | .executing _ _ x => x.operation?
    | .marking batch => some (.mark r.ticket.user (Batch.sourceIds batch))
    | _ => r.nextBack?.map fun m => .append (Pending.listKey r.ticket.user) m.encode
  | _ => none

/-- The request that is executed is one of the user of the run. -/
def Addressed (r : BatchRun) : Prop :=
  ∀ (batch : List Pending) (lease : Nat) (x : Execution) (q : Request),
    r.phase = .executing batch lease x → x.request? = some q → q.user = r.ticket.user

section
variable {place place' code code' : Nat → Nat} {setup : Relay.Setup} {r : BatchRun}

/-! ## Names -/

theorem Phase.coded_eq_self {p : Phase} (h : ∀ batch lease x, p ≠ .executing batch lease x) :
    p.coded code = p := by
  cases p with
  | executing batch lease x => exact absurd rfl (h batch lease x)
  | _ => rfl

theorem Phase.coded_coded (p : Phase) : (p.coded code).coded code' = p.coded (code' ∘ code) := by
  cases p <;> rfl

theorem renamed_renamed :
    (r.renamed place code).renamed place' code' = r.renamed (place' ∘ place) (code' ∘ code) := by
  simp only [renamed, Phase.coded_coded, Option.map_map]

theorem renamed_congr (hfiring : ∀ g, r.firing = some g → place g = place' g)
    (hlease : ∀ lease, r.lease? = some lease → code lease = code' lease) :
    r.renamed place code = r.renamed place' code' := by
  have hf : r.firing.map place = r.firing.map place' := Option.map_congr hfiring
  have hp : r.phase.coded code = r.phase.coded code' := by
    cases hp : r.phase with
    | executing batch lease x =>
      rw [Phase.coded, Phase.coded, hlease lease (by rw [lease?, hp])]
    | _ => rfl
  rw [renamed, renamed, hf, hp]

theorem lease?_renamed : (r.renamed place code).lease? = r.lease?.map code := by
  unfold lease? renamed
  cases r.phase <;> rfl

theorem result?_renamed : (r.renamed place code).result? = r.result? := by
  unfold result? renamed
  cases r.phase <;> rfl

theorem isArming_renamed : (r.renamed place code).isArming = r.isArming := by
  unfold isArming renamed
  cases r.phase <;> rfl

theorem leaseEvent?_renamed (e : Relay.RunEvent) :
    (r.renamed place code).leaseEvent? e = (r.leaseEvent? e).map (·.renamed code) := by
  unfold leaseEvent? renamed
  cases e with
  | lease => cases r.phase <;> rfl
  | release =>
    cases r.phase with
    | executing batch lease x => cases x <;> rfl
    | _ => rfl
  | _ => rfl

theorem operation?_renamed (e : Relay.RunEvent) :
    (r.renamed place code).operation? e = r.operation? e := by
  unfold operation? nextBack? renamed
  cases e with
  | access fault => cases fault <;> cases r.phase <;> rfl
  | _ => rfl

theorem steady_renamed : (r.renamed place code).Steady ↔ r.Steady := by
  unfold Steady renamed
  cases r.phase <;> exact Iff.rfl

theorem sayings_renamed (r' : BatchRun) :
    (r.renamed place code).sayings setup (r'.renamed place' code') = r.sayings setup r' := by
  unfold sayings renamed
  cases r.phase <;> cases r'.phase <;> rfl

theorem renamed_ofPayload (payload : Json) (attempt : Timer.Attempt) (firing : Option Nat) :
    (ofPayload payload attempt firing).renamed place code =
      ofPayload payload attempt (firing.map place) := by
  unfold ofPayload
  split <;> rfl

/-! ## Turns -/

theorem coded_ofNotice (slots : List (Option Bool)) (ending : Ending) :
    (Phase.ofNotice slots ending).coded code = .ofNotice slots ending :=
  Phase.coded_eq_self fun _ _ _ => not_executing_ofNotice _ _

theorem coded_concluded (outputs : List Output) (batch : List Pending)
    (result : Except PipelineError Completion) :
    (Phase.concluded r outputs batch result).coded code = .concluded r outputs batch result :=
  Phase.coded_eq_self fun _ _ _ => not_executing_concluded _ _

theorem coded_restored (batch : List Pending) (cause : PipelineError) (left : List Pending) :
    (Phase.restored batch cause left).coded code = .restored batch cause left := by
  cases left <;> rfl

theorem renamed_ofFresh (answered drained fresh : List Pending) :
    (r.ofFresh answered drained fresh).renamed place code =
      (r.renamed place code).ofFresh answered drained fresh := by
  unfold ofFresh renamed
  cases Batch.normalize fresh <;> rfl

theorem renamed_ofDrained (drained : List Pending) :
    (r.ofDrained drained).renamed place code = (r.renamed place code).ofDrained drained := by
  unfold ofDrained
  split
  · rfl
  · split
    · exact renamed_ofFresh ..
    · rfl

theorem renamed_mapExecution (f : Execution → Execution) :
    (r.mapExecution f).renamed place code = (r.renamed place code).mapExecution f := by
  obtain ⟨firing, attempt, ticket, leftOut, phase⟩ := r
  cases phase <;> rfl

section
variable {σ : Type} [Store σ] [LawfulStore σ] [SeparateStore σ] {s s' : σ}

theorem dropAnswered_congr {answered answered' : List String}
    (h : ∀ id, answered.contains id = answered'.contains id) (ms : List Pending) :
    Batch.dropAnswered answered ms = Batch.dropAnswered answered' ms := by
  simp only [Batch.dropAnswered, h]

theorem onlyAnswered_congr {answered answered' : List String}
    (h : ∀ id, answered.contains id = answered'.contains id) (ms : List Pending) :
    Batch.onlyAnswered answered ms = Batch.onlyAnswered answered' ms := by
  simp only [Batch.onlyAnswered, h]

theorem renamed_access (h : belongings s r.ticket.user = belongings s' r.ticket.user)
    (outputs : List Output) (fault : Option StoreError) :
    (r.access outputs fault s).2.renamed place code =
      ((r.renamed place code).access outputs fault s').2 := by
  have hfixed : ∀ p : Phase, p.coded code = p →
      ({ r with phase := p } : BatchRun).renamed place code =
        { r.renamed place code with phase := p } := fun p hp =>
    congrArg (fun p => ({ r.renamed place code with phase := p } : BatchRun)) hp
  obtain ⟨firing, attempt, ticket, leftOut, phase⟩ := r
  cases phase with
  | draining =>
    cases fault with
    | none =>
      have hdrained := takeAll_eq_of_belongings h
      simp only [access, renamed, Phase.coded]
      rw [← hdrained]
      exact renamed_ofDrained ..
    | some cause =>
      refine hfixed _ ?_
      split
      · exact coded_ofNotice ..
      · rfl
  | checking drained =>
    cases fault with
    | none =>
      have hseen := contains_seen_of_belongings h (Batch.sourceIds drained)
      simp only [access]
      rw [onlyAnswered_congr hseen, dropAnswered_congr hseen]
      exact renamed_ofFresh ..
    | some cause => exact renamed_ofFresh ..
  | executing batch lease x =>
    simp only [access, renamed, Phase.coded, x.keep_congr fault s s']
  | marking batch => cases fault <;> rfl
  | requeuing batch deposit =>
    simp only [access, renamed, Phase.coded, deposit.push_congr fault s s']
    cases (deposit.push fault s').2.result? <;> rfl
  | restoring batch left cause =>
    cases left with
    | nil => cases fault <;> rfl
    | cons m left =>
      cases fault with
      | none => exact hfixed _ (coded_restored ..)
      | some reason => exact hfixed _ (coded_ofNotice ..)
  | _ => cases fault <;> rfl

/-- What becomes of a run depends on what the store has for its user, and on what the relay says. -/
theorem renamed_turn (h : belongings s r.ticket.user = belongings s' r.ticket.user)
    (c : Circumstances) (e : Relay.RunEvent) :
    (r.turn setup c s e).2.renamed place code =
      ((r.renamed place code).turn setup { c with lease := code c.lease } s' e).2 := by
  cases e with
  | access fault => exact renamed_access h ..
  | lease =>
    obtain ⟨firing, attempt, ticket, leftOut, phase⟩ := r
    cases phase <;> rfl
  | release =>
    obtain ⟨firing, attempt, ticket, leftOut, phase⟩ := r
    cases phase with
    | executing batch lease x =>
      cases x with
      | finished result =>
        exact congrArg (fun p => BatchRun.mk (firing.map place) attempt ticket leftOut p)
          (coded_concluded ..)
      | _ => rfl
    | _ => rfl
  | arm =>
    obtain ⟨firing, attempt, ticket, leftOut, phase⟩ := r
    cases phase with
    | requeuing batch deposit =>
      simp only [turn, isArming_renamed]
      split
      · simp only [armed, renamed, Phase.coded]
        cases (deposit.armed c.armed).result? <;> rfl
      · rfl
    | _ => rfl
  | notified slot success =>
    obtain ⟨firing, attempt, ticket, leftOut, phase⟩ := r
    cases phase with
    | notifying slots ending =>
      exact congrArg (fun p => BatchRun.mk (firing.map place) attempt ticket leftOut p)
        (coded_ofNotice ..)
    | _ => rfl
  | _ => exact renamed_mapExecution ..

end

section
variable {σ : Type} [Store σ] {s : σ}

/-- Only a run that takes its lease looks at the next one. -/
theorem turn_congr_lease {a b : Nat} (c : Circumstances) {e : Relay.RunEvent}
    (h : ∀ user, r.leaseEvent? e = some (.register user) → a = b) :
    r.turn setup { c with lease := a } s e = r.turn setup { c with lease := b } s e := by
  cases e with
  | lease =>
    obtain ⟨firing, attempt, ticket, leftOut, phase⟩ := r
    cases phase with
    | leasing batch => rw [h _ rfl]
    | _ => rfl
  | _ => rfl

theorem access_store (hr : r.Steady) (outputs : List Output) (fault : Option StoreError) :
    (r.access outputs fault s).1 =
      (r.operation? (.access fault)).elim s fun op => (Store.perform s op).2 := by
  obtain ⟨firing, attempt, ticket, leftOut, phase⟩ := r
  cases phase with
  | executing batch lease x => cases fault <;> cases x <;> rfl
  | requeuing batch deposit =>
    obtain ⟨ht, hd⟩ := hr
    obtain ⟨dticket, messages, dphase⟩ := deposit
    obtain rfl := ht
    rcases hd with rfl | ⟨m, left, rfl⟩ <;> cases fault <;> rfl
  | restoring batch left cause => cases left <;> cases fault <;> rfl
  | _ => cases fault <;> rfl

/-- What an event of a run does to the store is one operation at most. -/
theorem turn_store (hr : r.Steady) (c : Circumstances) (e : Relay.RunEvent) :
    (r.turn setup c s e).1 = (r.operation? e).elim s fun op => (Store.perform s op).2 := by
  cases e with
  | access fault => exact access_store hr ..
  | _ => rfl

/-- A run does nothing to the store that concerns other users. -/
theorem operation_concerns (hx : r.Addressed) {e : Relay.RunEvent} {op : Store.Operation}
    (h : r.operation? e = some op) : op.Concerns r.ticket.user := by
  obtain ⟨firing, attempt, ticket, leftOut, phase⟩ := r
  cases e with
  | access fault =>
    cases fault with
    | some cause => cases h
    | none =>
      cases phase with
      | draining =>
        obtain rfl := Option.some.inj h
        rfl
      | executing batch lease x =>
        cases x with
        | keeping p message reply =>
          obtain rfl := Option.some.inj h
          exact hx _ _ _ _ rfl rfl
        | _ => cases h
      | marking batch =>
        obtain rfl := Option.some.inj h
        rfl
      | _ =>
        simp only [operation?] at h
        obtain ⟨m, -, rfl⟩ := Option.map_eq_some_iff.mp h
        rfl
  | _ => cases h

end

/-! ## Requests -/

theorem isFor_of_mem_sayings {r' : BatchRun} (hx : r.Addressed) {y : Saying}
    (hy : y ∈ r.sayings setup r') : y.IsFor r.ticket.user := by
  obtain ⟨firing, attempt, ticket, leftOut, phase⟩ := r
  obtain ⟨firing', attempt', ticket', leftOut', phase'⟩ := r'
  have hnotice : ∀ {outputs : List Output} {d : Dispatch}, d.user = ticket.user →
      y ∈ outputs.map (fun o => Saying.sends o.name d) → y.IsFor ticket.user := by
    intro outputs d hd hy
    obtain ⟨o, -, rfl⟩ := List.mem_map.mp hy
    exact hd
  cases phase with
  | leasing batch =>
    cases phase' with
    | executing batch' lease x =>
      obtain rfl := List.mem_singleton.mp hy
      rfl
    | notifying slots ending => exact hnotice rfl hy
    | _ => cases hy
  | executing batch lease x =>
    cases phase' with
    | executing batch' lease' x' => exact x.isFor_of_mem_sayings (fun q => hx _ _ _ _ rfl) hy
    | notifying slots ending => exact hnotice rfl hy
    | _ => cases hy
  | notifying slots ending => cases phase' <;> cases hy
  | _ =>
    cases phase' with
    | notifying slots ending => exact hnotice rfl hy
    | _ => cases hy

theorem addressed_ofPayload (payload : Json) (attempt : Timer.Attempt) (firing : Option Nat) :
    (ofPayload payload attempt firing).Addressed := by
  intro batch lease x q hp
  unfold ofPayload at hp
  split at hp <;> cases hp

theorem follows_advance {σ : Type} [Store σ] [LawfulStore σ] (calledOff : Bool) (s : σ)
    (x : Execution) (e : Relay.RunEvent) : x.Follows (advance calledOff s x e) := by
  cases e with
  | access fault => exact (x.follows_keep fault s).1
  | enriched slot outcome => exact x.follows_enriched slot outcome
  | compose => exact x.follows_compose calledOff
  | generated outcome => exact x.follows_generated calledOff outcome
  | delivered slot success => exact x.follows_delivered slot success
  | _ => exact .refl x

/-- The request stays that of its user. -/
theorem Addressed.turn {σ : Type} [Store σ] [LawfulStore σ] {s : σ} (h : r.Addressed)
    (hr : r.Steady) (c : Circumstances) (e : Relay.RunEvent) :
    (r.turn setup c s e).2.Addressed := by
  intro batch lease x' q hp' hq
  have hturn : r.Turns setup s e _ _ := turns_turn c hr e
  rw [hturn.frame.1]
  rcases hturn.executing_of hp' with ⟨rfl, hp⟩ | ⟨x, hp⟩
  · simp only [BatchRun.turn, BatchRun.leased, hp] at hp'
    obtain ⟨-, -, rfl⟩ := Phase.executing.inj hp'
    rw [Execution.request?_begin _ _ _ hq]
    rfl
  · obtain rfl := turn_executing c hp hp'
    exact h _ _ _ _ hp ((follows_advance c.calledOff s x e).request hq)

end
end BatchRun
end ChatRelay
