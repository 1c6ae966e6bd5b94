import ChatRelay.Proofs.Relay.Records

/-!
# What a batch that was given up leaves behind

When a batch cannot be put back as a whole, the user is told that it is given up, and the messages
before the one that met the failure stay in the list. The shelf of a run is the list of its user
with a mark on every text that the run has put there.
-/

namespace ChatRelay

/-- A text of a list, and whether a certain run put it there. -/
structure Shelved where
  text : String
  mine : Bool
deriving DecidableEq

def ownTexts (l : List Shelved) : List String := (l.filter (·.mine)).map (·.text)

namespace Touch

def onShelf (user : String) (mine : Bool) (l : List Shelved) : Touch → List Shelved
  | .none => l
  | .put u m => if user = u then l ++ [⟨m.encode, mine⟩] else l
  | .take u => if user = u then [] else l

theorem texts_onShelf (t : Touch) (user : String) (mine : Bool) (l : List Shelved) :
    (t.onShelf user mine l).map (·.text) = t.on user (l.map (·.text)) := by
  cases t with
  | none => rfl
  | put u m =>
    simp only [onShelf, on]
    split <;> simp
  | take u =>
    simp only [onShelf, on]
    split <;> simp

def putTo (user : String) : Touch → List Pending
  | .put u m => if user = u then [m] else []
  | _ => []

theorem ownTexts_onShelf (t : Touch) (user : String) (mine : Bool) (l : List Shelved) :
    ownTexts (t.onShelf user mine l) =
      if t = .take user then []
      else ownTexts l ++ if mine then (t.putTo user).map (·.encode) else [] := by
  cases t with
  | none => simp [onShelf, putTo]
  | put u m =>
    simp only [onShelf, putTo]
    split <;> cases mine <;> simp [ownTexts]
  | take u =>
    by_cases hu : user = u
    · simp [onShelf, hu, ownTexts]
    · simp [onShelf, putTo, hu, Ne.symm hu]

end Touch

/-- A run puts what it returns into the list of its user. -/
theorem BatchRun.putTo_touch (r : BatchRun) (e : Relay.RunEvent) :
    (r.touch e).putTo r.ticket.user = returned (r.noted? e).toList := by
  cases e with
  | access fault =>
    cases fault with
    | none =>
      cases hp : r.phase with
      | draining => simp [noted?, touch, nextBack?, hp, returned, Touch.putTo]
      | requeuing batch deposit =>
        cases hl : deposit.phase.left <;>
          simp [noted?, touch, nextBack?, hp, hl, returned, Touch.putTo]
      | restoring batch left cause =>
        cases left <;> simp [noted?, touch, nextBack?, hp, returned, Touch.putTo]
      | _ => simp [noted?, touch, nextBack?, hp, returned, Touch.putTo]
    | some cause =>
      cases hb : r.nextBack? <;> simp [noted?, touch, hb, returned, Touch.putTo]
  | lease => cases hp : r.phase <;> simp [noted?, touch, hp, returned, Touch.putTo]
  | release =>
    simp only [noted?]
    split <;> simp [touch, returned, Touch.putTo]
  | notified slot success =>
    cases hp : r.phase <;> simp [noted?, touch, hp, returned, Touch.putTo]
  | _ => rfl

namespace Relay
open KeyedLists

/-! ## The shelves of a history -/

def Transition.isOf (i : Nat) (t : Transition) : Bool :=
  match t.event with
  | .run j _ => j = i
  | _ => false

/-- The list of a user by a history that starts with some texts, as the shelf of a run. -/
def shelf (user : String) (i : Nat) (start : List String) : History → List Shelved
  | [] => start.map (⟨·, false⟩)
  | t :: h => (t.before.touch t.event).onShelf user (t.isOf i) (shelf user i start h)

/-- Whether the list of a user has been taken since a run put the first of its messages back. -/
def takenSince (user : String) (i : Nat) : History → Bool
  | [] => false
  | t :: h => takenSince user i h ||
      (t.before.touch t.event = .take user && !(BatchRun.returned (record i h)).isEmpty)

section
variable {σ : Type} [Store σ] [LawfulStore σ] {setup : Setup} {s₀ s : σ} {policy : RetryPolicy}
  {h : History} {relay : Relay}

/-- The list of a user is what stands on the shelf. -/
theorem Occurs.texts_eq_shelf (ho : Occurs setup s₀ policy h s relay) (hs : LawfulStore.Sound s₀)
    (user : String) (i : Nat) :
    texts s (Pending.listKey user) =
      (shelf user i (texts s₀ (Pending.listKey user)) h).map (·.text) := by
  induction ho with
  | fresh => simp [shelf, Function.comp_def]
  | step e ho ih =>
    rw [(stores_step ho.steady e).texts (ho.sound hs), ih, shelf, Touch.texts_onShelf]

/-- What a transition puts into the list for a run. -/
theorem Transition.putTo_eq {t : Transition} {user : String} {i : Nat}
    (hu : ∀ {r : BatchRun}, t.before.runs[i]? = some r → r.ticket.user = user) :
    (if t.isOf i then (t.before.touch t.event).putTo user else []) =
      BatchRun.returned (t.noted? i).toList := by
  cases heq : t.event with
  | run j re =>
    by_cases hj : j = i
    · subst hj
      cases hr : t.before.runs[j]? with
      | none => simp [isOf, noted?, heq, touch, hr, Touch.putTo]
      | some r => simpa [isOf, noted?, heq, touch, hr, hu hr] using r.putTo_touch re
    · simp [isOf, noted?, heq, hj]
  | _ => simp [isOf, noted?, heq]

/-- Of the texts that a run put into the list, the last ones are still there, and all of them if the
list has not been taken. -/
theorem Occurs.own_suffix (ho : Occurs setup s₀ policy h s relay) (user : String) (i : Nat)
    (start : List String)
    (hu : ∀ {r : BatchRun}, relay.runs[i]? = some r → r.ticket.user = user) :
    ownTexts (shelf user i start h) <:+
        (BatchRun.returned (record i h)).map (·.encode) ∧
      (takenSince user i h = false → ownTexts (shelf user i start h) =
        (BatchRun.returned (record i h)).map (·.encode)) := by
  induction ho with
  | fresh => simp [shelf, ownTexts, record, BatchRun.returned]
  | @step h s relay e ho ih =>
    let t : Transition := ⟨relay, e, (relay.step setup s e).2⟩
    have hbefore : ∀ {r : BatchRun}, relay.runs[i]? = some r → r.ticket.user = user := by
      intro r hr
      obtain ⟨r', hr', hticket⟩ := run_stays setup s ho.steady e hr
      rw [← hu hr', hticket]
    obtain ⟨hsuffix, hall⟩ := ih hbefore
    have hput := t.putTo_eq (i := i) hbefore
    rw [shelf, Touch.ownTexts_onShelf, takenSince, record, BatchRun.returned_append,
      List.map_append]
    by_cases htake : relay.touch e = .take user
    · -- whoever takes the list takes the texts of the run too, and puts nothing in the same event
      have hnone : BatchRun.returned (t.noted? i).toList = [] := by
        rw [← hput]
        simp [t, htake, Touch.putTo]
      rw [if_pos htake, hnone]
      refine ⟨List.nil_suffix, fun htaken => ?_⟩
      have hback : BatchRun.returned (record i h) = [] := by
        simpa [htake] using (Bool.or_eq_false_iff.mp htaken).2
      simp [hback]
    · have hown : (if t.isOf i then ((relay.touch e).putTo user).map (·.encode) else []) =
          (BatchRun.returned (t.noted? i).toList).map (·.encode) := by
        rw [← hput]
        split <;> rfl
      rw [if_neg htake, hown]
      obtain ⟨front, hfront⟩ := hsuffix
      refine ⟨⟨front, by rw [← hfront, List.append_assoc]⟩, fun htaken => ?_⟩
      rw [hall (by simpa [htake] using htaken)]

end

/-! ## Batches that were given up -/

section
variable {σ : Type} [Store σ] [LawfulStore σ] {setup : Setup} {s₀ : σ} {policy : RetryPolicy}

/-- Of a batch that is given up, the user finds those messages in the list again that stand before
the one which met the failure, unless somebody has taken them since. Nothing is left behind if the
run put nothing back, or met the failure at once. -/
theorem given_up_leaves_behind (hs : LawfulStore.Sound s₀) (es : List Event) {i : Nat}
    {r : BatchRun} {batch : List Pending} {ending : BatchRun.Ending}
    (hr : (course setup s₀ policy es).2.2.runs[i]? = some r)
    (hb : .leased batch ∈ record i (course setup s₀ policy es).1)
    (he : r.ending? = some ending) (ht : ending.tells) :
    let last := course setup s₀ policy es
    let user := r.ticket.user
    let attempts := BatchRun.attempts (record i last.1)
    let l := shelf user i (texts s₀ (Pending.listKey user)) last.1
    texts last.2.1 (Pending.listKey user) = l.map (·.text) ∧
      (∃ back left, batch = back ++ left ∧
        ((∃ cause, ending = .dismissed batch cause) ∧ attempts = [] ∧ back = [] ∨
          ∃ cause m rest, ending = .abandoned batch cause ∧ left = m :: rest ∧
            attempts = back.map (·, none) ++ [(m, some cause)]) ∧
        ownTexts l <:+ back.map (·.encode) ∧
        (takenSince user i last.1 = false → ownTexts l = back.map (·.encode))) ∧
      (attempts.length ≤ 1 → ownTexts l = []) ∧
      (1 < attempts.length → takenSince user i last.1 = false → ownTexts l ≠ []) := by
  intro last user attempts l
  have ho := occurs_course setup s₀ policy es
  obtain ⟨back, left, hback, hreturned, hwhy⟩ := ((ho.records i).1 hr).given_up hb he ht
  have hown := ho.own_suffix user i (texts s₀ (Pending.listKey user)) fun {r'} hr' =>
    congrArg (·.ticket.user) (Option.some.inj (hr'.symm.trans hr))
  rw [hreturned] at hown
  obtain ⟨hsuffix, hall⟩ := hown
  -- one attempt is that of the message that met the failure
  have hlength : attempts.length ≤ 1 ↔ back = [] := by
    rcases hwhy with ⟨-, hnone, rfl⟩ | ⟨cause, m, rest, -, -, hsome⟩
    · simp [attempts, last, hnone]
    · simp [attempts, last, hsome]
  refine ⟨ho.texts_eq_shelf hs user i, ⟨back, left, hback, hwhy, hsuffix, hall⟩, fun hfew => ?_,
    fun hmany htaken hnil => ?_⟩
  · rw [hlength.mp hfew] at hsuffix
    exact List.suffix_nil.mp hsuffix
  · have hnone : back = [] := by simpa using (hall htaken).symm.trans hnil
    exact absurd (hlength.mpr hnone) (by omega)

end

/-- A run of two messages gets as far as the engine, which fails for a while. -/
def failingPair : List Event :=
  accepting 0 ⟨"u", "chat", "A"⟩ "one" "m1" 5 ++ accepting 1 ⟨"u", "chat", "A"⟩ "two" "m2" 6 ++
    starting 1 ++ asking 0 ++
    [.run 0 (.generated (.error (.requestFailed "p" "down"))), .run 0 .release]

/-- The list takes nothing, and the user is told. -/
def stoppingAtOnce : List Event :=
  failingPair ++ [.run 0 (.access (some (.unavailable "full"))), .run 0 (.notified 0 true)]

theorem stoppingAtOnce_leaves_nothing :
    let last := course spoken ({} : Memory) .standard stoppingAtOnce
    last.2.2.runs[0]?.bind (·.ending?) = some (.abandoned
        [⟨"one", "m1", 5, "A"⟩, ⟨"two", "m2", 6, "A"⟩] (.unavailable "full")) ∧
      ownTexts (shelf "u" 0 [] last.1) = [] := by
  let last := course spoken ({} : Memory) .standard stoppingAtOnce
  have hfacts : last.2.2.runs[0]?.map (·.ticket.user) = some "u" ∧
      last.2.2.runs[0]?.bind (·.ending?) = some (.abandoned
        [⟨"one", "m1", 5, "A"⟩, ⟨"two", "m2", 6, "A"⟩] (.unavailable "full")) ∧
      .leased [⟨"one", "m1", 5, "A"⟩, ⟨"two", "m2", 6, "A"⟩] ∈ record 0 last.1 ∧
      (BatchRun.attempts (record 0 last.1)).length ≤ 1 := by decide +kernel
  obtain ⟨hticket, hending, hleased, hfew⟩ := hfacts
  obtain ⟨r, hr, hu⟩ := Option.map_eq_some_iff.mp hticket
  have he := hending
  rw [hr] at he
  have h := given_up_leaves_behind trivial stoppingAtOnce hr hleased he rfl
  rw [hu] at h
  exact ⟨hending, h.2.2.1 hfew⟩

/-- The list takes one of the two messages, and the user is told. -/
def stoppingHalfway : List Event :=
  failingPair ++ [.run 0 (.access none), .run 0 (.access (some (.unavailable "full"))),
    .run 0 (.notified 0 true)]

/-- The first message is in the list after the user was told that both are given up, and the next
run answers it. -/
theorem stoppingHalfway_leaves_first :
    let last := course spoken ({} : Memory) .standard stoppingHalfway
    let later := course spoken ({} : Memory) .standard
      (stoppingHalfway ++ returning 0 1 ++ accepting 2 ⟨"u", "chat", "A"⟩ "three" "m3" 7 ++
        starting 2 ++ asking 1 ++ replying 1 "reply")
    last.2.2.runs[0]?.bind (·.ending?) = some (.abandoned
        [⟨"one", "m1", 5, "A"⟩, ⟨"two", "m2", 6, "A"⟩] (.unavailable "full")) ∧
      record 0 last.1 = [.leased [⟨"one", "m1", 5, "A"⟩, ⟨"two", "m2", 6, "A"⟩],
        .concluded (.error (.generation (.requestFailed "p" "down"))),
        .attempted ⟨"one", "m1", 5, "A"⟩ none,
        .attempted ⟨"two", "m2", 6, "A"⟩ (some (.unavailable "full")), .noticed 0] ∧
      waiting last.2.1 "u" = [⟨"one", "m1", 5, "A"⟩] ∧
      later.2.2.runs[1]?.bind (·.ending?) = some (.answered
        [⟨"one", "m1", 5, "A"⟩, ⟨"three", "m3", 7, "A"⟩]) := by
  decide +kernel

end Relay
end ChatRelay
