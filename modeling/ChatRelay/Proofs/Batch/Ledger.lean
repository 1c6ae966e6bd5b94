import ChatRelay.Proofs.Batch.Overtaking
import ChatRelay.Proofs.Batch.Progress

/-!
# A ledger of open messages

The ledger of a user has the messages that are neither answered nor given up, in the order in which
they came: those that the run at work has taken, or the next one will take, and those that came in
meanwhile. When a batch is put back, the latter stand in front of it in the list, and the ledger has
it that they have crossed if one of them rivals a message that was held when it came in.
-/

namespace ChatRelay
open Batch

/-- How the messages of a user stand: those that wait, those that a run holds, and whether the run
is putting them back. -/
structure Standing where
  waiting : List Pending
  held : List Pending
  returning : Bool

/-- What may become of the messages of a user. -/
inductive Standing.Moves (answered : String → Prop) (user : String) :
    Deed → Standing → Standing → Prop
  | stays {d : Deed} (b : Standing) (ha : ∀ m, d ≠ .accepted user m)
      (hp : ∀ m, d ≠ .putBack user m) : Moves answered user d b b
  | arrived (m : Pending) (b : Standing) :
      Moves answered user (.accepted user m) b { b with waiting := b.waiting ++ [m] }
  | taken {ms held : List Pending} (hh : held = ms ∨ held = normalize ms) :
      Moves answered user .none ⟨ms, [], false⟩ ⟨[], held, false⟩
  | checked {ms held : List Pending} {ids : List String} (hi : ∀ id ∈ ids, answered id) :
      Moves answered user .none ⟨ms, held, false⟩ ⟨ms, normalize (dropAnswered ids held), false⟩
  | closed (ms held : List Pending) :
      Moves answered user .none ⟨ms, held, false⟩ ⟨ms, [], false⟩
  | turned (ms held : List Pending) :
      Moves answered user .none ⟨ms, held, false⟩ ⟨ms, held, true⟩
  | putBack {ms left : List Pending} {m : Pending} (p : Bool) (hd : DistinctIds (m :: left))
      (hp : left ≠ [] → p) :
      Moves answered user (.putBack user m) ⟨ms, m :: left, true⟩ ⟨ms ++ [m], left, p⟩
  | rearmed (t : Ticket) (ms : List Pending) :
      Moves answered user (.rearmed t) ⟨ms, [], true⟩ ⟨ms, [], false⟩

namespace BatchRun

def isReturning (r : BatchRun) : Bool :=
  match r.phase with
  | .requeuing _ _ | .restoring _ _ _ => true
  | _ => false

theorem held_ofFresh (r : BatchRun) (answered drained fresh : List Pending) :
    (r.ofFresh answered drained fresh).held = normalize fresh := by
  unfold ofFresh
  cases hb : normalize fresh <;> simp [held]

theorem isReturning_ofFresh (r : BatchRun) (answered drained fresh : List Pending) :
    (r.ofFresh answered drained fresh).isReturning = false := by
  unfold ofFresh
  cases hb : normalize fresh <;> rfl

theorem held_ofDrained (r : BatchRun) (drained : List Pending) :
    (r.ofDrained drained).held = drained ∨ (r.ofDrained drained).held = normalize drained := by
  unfold ofDrained
  split
  · next h =>
    rw [List.isEmpty_iff.mp h]
    exact .inl rfl
  · split
    · exact .inr (held_ofFresh ..)
    · exact .inl rfl

theorem isReturning_ofDrained (r : BatchRun) (drained : List Pending) :
    (r.ofDrained drained).isReturning = false := by
  unfold ofDrained
  split
  · rfl
  · split
    · exact isReturning_ofFresh ..
    · rfl

theorem held_ofNotice (r : BatchRun) (slots : List (Option Bool)) (ending : Ending) :
    ({ r with phase := .ofNotice slots ending } : BatchRun).held = [] ∧
      ({ r with phase := .ofNotice slots ending } : BatchRun).isReturning = false := by
  unfold Phase.ofNotice
  cases filled? slots <;> exact ⟨rfl, rfl⟩

/-- A batch that has been executed is closed, or is to be put back. -/
theorem held_concluded (r : BatchRun) (outputs : List Output) (batch : List Pending)
    (result : Except PipelineError Completion) :
    let r' : BatchRun := { r with phase := .concluded r outputs batch result }
    r'.held = [] ∧ r'.isReturning = false ∨ r'.held = batch ∧ r'.isReturning = true := by
  dsimp only
  unfold Phase.concluded
  split
  · left
    split <;> exact ⟨rfl, rfl⟩
  · exact .inr ⟨Deposit.Phase.left_ofLeft batch, rfl⟩
  · split
    · exact .inr ⟨rfl, rfl⟩
    · exact .inl (held_ofNotice ..)

section
variable {σ : Type} [Store σ]

/-- How the messages of its user stand while the run is the only one at work. -/
def standing (r : BatchRun) (s : σ) : Standing := ⟨waiting s r.ticket.user, r.held, r.isReturning⟩

variable [LawfulStore σ] {s s' : σ} {r r' : BatchRun} {d : Deed}

/-- What an event in a run makes of the messages of its user. -/
theorem Progress.moves (h : r.Progress s d s' r') (hs : LawfulStore.Sound s) (hr : r.Orderly)
    (hm : ∀ m ∈ r.held, m.IsStorable) :
    Standing.Moves (AnsweredIds.Marked s r.ticket.user) r.ticket.user d (r.standing s)
      (r'.standing s') := by
  -- whatever leaves the list, the held messages and the direction as they are
  have hstays : ∀ {s' : σ} {r' : BatchRun}, waiting s' r'.ticket.user = waiting s r.ticket.user →
      r'.held = r.held → r'.isReturning = r.isReturning →
      Standing.Moves (AnsweredIds.Marked s r.ticket.user) r.ticket.user .none (r.standing s)
        (r'.standing s') := by
    intro s' r' hw hh hp
    rw [standing, standing, hw, hh, hp]
    exact .stays _ (by simp) (by simp)
  have hpush : ∀ {m : Pending}, m ∈ r.held →
      waiting (Pending.push s r.ticket.user m) r.ticket.user = waiting s r.ticket.user ++ [m] :=
    fun hmem => (waiting_push hs _ _ (hm _ hmem)).trans (if_pos rfl)
  cases h with
  | idle => exact hstays rfl rfl rfl
  | drained hp =>
    have hnow : r.standing s = ⟨waiting s r.ticket.user, [], false⟩ := by
      simp [standing, held, isReturning, hp]
    rw [hnow, standing, (ofDrained_frame ..).1, waiting_takeAll hs, if_pos rfl,
      isReturning_ofDrained]
    exact .taken (held_ofDrained ..)
  | @checked drained answered hp ha =>
    have hnow : r.standing s = ⟨waiting s r.ticket.user, drained, false⟩ := by
      simp [standing, held, isReturning, hp]
    rw [hnow, standing, held_ofFresh, isReturning_ofFresh]
    exact .checked ha
  | leased lease x hp hx => exact hstays rfl (by simp [held, hp]) (by simp [isReturning, hp])
  | executed hp hx hst =>
    exact hstays (hst.waiting _) (by simp [held, hp]) (by simp [isReturning, hp])
  | @concluded batch lease result outputs hp =>
    have hnow : r.standing s = ⟨waiting s r.ticket.user, batch, false⟩ := by
      simp [standing, held, isReturning, hp]
    rw [hnow, standing]
    rcases held_concluded r outputs batch result with ⟨hh, hret⟩ | ⟨hh, hret⟩
    · rw [hh, hret]
      exact .closed _ batch
    · rw [hh, hret]
      exact .turned _ batch
  | @requeued batch left deposit m hp hd =>
    simp only [Orderly, hp, hd, Deposit.Phase.left] at hr
    obtain ⟨-, hids, -, back, rfl⟩ := hr
    have hheld : r.held = m :: left := by simp [held, hp, hd, Deposit.Phase.left]
    have hnow : r.standing s = ⟨waiting s r.ticket.user, m :: left, true⟩ := by
      simp [standing, hheld, isReturning, hp]
    rw [hnow, standing, hpush (hheld ▸ List.mem_cons_self)]
    simp only [held, isReturning, Deposit.Phase.left_ofLeft]
    exact .putBack true hids.of_append fun _ => rfl
  | rearmed outcome hp hd =>
    have hnow : r.standing s = ⟨waiting s r.ticket.user, [], true⟩ := by
      simp [standing, held, isReturning, hp, hd, Deposit.Phase.left]
    rw [hnow]
    exact .rearmed r.ticket _
  | @restored batch left m cause hp =>
    simp only [Orderly, hp] at hr
    obtain ⟨-, hids, -, back, rfl⟩ := hr
    have hheld : r.held = m :: left := by simp [held, hp]
    have hnow : r.standing s = ⟨waiting s r.ticket.user, m :: left, true⟩ := by
      simp [standing, hheld, isReturning, hp]
    rw [hnow, standing, hpush (hheld ▸ List.mem_cons_self)]
    cases left with
    | nil => exact .putBack false hids.of_append fun hne => absurd rfl hne
    | cons n left => exact .putBack true hids.of_append fun _ => rfl
  | marked hp =>
    exact hstays (congrArg Pending.decodeAll (LawfulStore.texts_mark ..)) (by simp [held, hp])
      (by simp [isReturning, hp])
  | unmarked hp => exact hstays rfl (by simp [held, hp]) (by simp [isReturning, hp])
  | notified slots' hp =>
    have hnotice := held_ofNotice r slots'
    exact hstays rfl ((hnotice _).1.trans (by simp [held, hp]))
      ((hnotice _).2.trans (by simp [isReturning, hp]))

end

end BatchRun

/-! ## The ledger -/

structure Ledger where
  /-- The messages of the batch that is at work, or of the next one. -/
  covered : List Pending := []
  /-- The messages that have come in since the batch was taken. -/
  arrived : List Pending := []
  /-- Whether some of the covered messages have crossed. -/
  crossed : Bool := false
  /-- Whether some of those that have come in since will cross once the batch is put back. -/
  rivalled : Bool := false
deriving DecidableEq, Repr

namespace Ledger

/-- The entry for an event, by what the runs of the user hold before and after it. -/
def next (l : Ledger) (user : String) (d : Deed) (before after : List Pending) : Ledger :=
  match d with
  | .accepted u m =>
    if u ≠ user then l
    else if before = [] then { l with covered := l.covered ++ [m] }
    else
      { l with
        arrived := l.arrived ++ [m]
        rivalled := l.rivalled || decide (Rivals (l.covered ++ l.arrived) before m) }
  | .putBack u _ =>
    if u = user ∧ after = [] then
      { covered := l.covered ++ l.arrived, crossed := l.crossed || l.rivalled }
    else l
  | _ => if before ≠ [] ∧ after = [] then { covered := l.arrived } else l

theorem next_stays (l : Ledger) {user : String} {d : Deed} {held : List Pending}
    (ha : ∀ m, d ≠ .accepted user m) (hp : ∀ m, d ≠ .putBack user m) :
    l.next user d held held = l := by
  cases d with
  | accepted u m =>
    have hu : u ≠ user := fun hu => ha m (hu ▸ rfl)
    exact if_pos hu
  | putBack u m =>
    have hu : ¬ (u = user ∧ held = []) := fun hu => hp m (hu.1 ▸ rfl)
    exact if_neg hu
  | _ => exact if_neg fun h => h.1 h.2

theorem next_suffix {l : Ledger} {user : String} {d : Deed} {before after ms : List Pending}
    (h : l.covered ++ l.arrived <:+ ms) (hidle : before = [] → l.arrived = []) :
    (l.next user d before after).covered ++ (l.next user d before after).arrived <:+
      ms ++ match d with
        | .accepted u m => if u = user then [m] else []
        | _ => [] := by
  have hclosed : ∀ {b : Prop} [Decidable b],
      (if b then { covered := l.arrived } else l : Ledger).covered ++
        (if b then { covered := l.arrived } else l : Ledger).arrived <:+ ms ++ [] := by
    intro b _
    rw [List.append_nil]
    split
    · rw [List.append_nil]
      exact (List.suffix_append _ _).trans h
    · exact h
  cases d with
  | accepted u m =>
    obtain ⟨old, rfl⟩ := h
    by_cases hu : u = user
    · by_cases hb : before = []
      · refine ⟨old, ?_⟩
        simp [next, hu, hb, hidle hb]
      · refine ⟨old, ?_⟩
        simp [next, hu, hb]
    · refine ⟨old, ?_⟩
      simp [next, hu]
  | putBack u m =>
    rw [List.append_nil]
    unfold next
    dsimp only
    split
    · rw [List.append_nil]
      exact h
    · exact h
  | _ => exact hclosed

def Unanswered (answered : String → Prop) (ms : List Pending) : Prop :=
  ∀ m ∈ ms, m.sourceId ≠ "" → ¬ answered m.sourceId

theorem Unanswered.of_append {answered : String → Prop} {ms ns : List Pending}
    (h : Unanswered answered (ms ++ ns)) : Unanswered answered ms :=
  fun m hm => h m (List.mem_append_left ns hm)

/-- The ledger agrees with how the messages of the user stand, unless some have been answered. -/
structure Keeps (answered : String → Prop) (l : Ledger) (b : Standing) : Prop where
  idle : b.held = [] → l.arrived = [] ∧ l.rivalled = false
  behind : b.returning = false → b.held ≠ [] → b.waiting = l.arrived
  all : Unanswered answered (l.covered ++ l.arrived) →
    Tracks b.waiting b.held (l.covered ++ l.arrived) (l.crossed ∨ l.rivalled)
  batch : b.returning = false → b.held ≠ [] → Unanswered answered l.covered →
    Tracks [] b.held l.covered l.crossed

namespace Keeps
variable {answered answered' : String → Prop} {l : Ledger} {b b' : Standing}

theorem mono (h : Keeps answered l b) (ha : ∀ id, answered id → answered' id) :
    Keeps answered' l b where
  idle := h.idle
  behind := h.behind
  all hu := h.all fun m hm hne hid => hu m hm hne (ha _ hid)
  batch hp hh hu := h.batch hp hh fun m hm hne hid => hu m hm hne (ha _ hid)

/-- A new account, of messages that wait. -/
theorem opened (answered : String → Prop) (ms : List Pending) (p : Bool) :
    Keeps answered { covered := ms } ⟨ms, [], p⟩ where
  idle _ := ⟨rfl, rfl⟩
  behind _ h := absurd rfl h
  all _ := by simpa using Tracks.self ms
  batch _ h := absurd rfl h

/-- The batch at work is through, and those that came in meanwhile remain. -/
theorem closed (h : Keeps answered l b) (hp : b.returning = false) (user : String) :
    Keeps answered (l.next user .none b.held []) ⟨b.waiting, [], false⟩ := by
  by_cases hh : b.held = []
  · have hl : l.next user .none b.held [] = l := if_neg fun hne => hne.1 hh
    rw [hl]
    exact ⟨fun _ => h.idle hh, fun _ hne => absurd rfl hne, fun hu => hh ▸ h.all hu,
      fun _ hne => absurd rfl hne⟩
  · have hl : l.next user .none b.held [] = { covered := l.arrived } := if_pos ⟨hh, rfl⟩
    rw [hl, h.behind hp hh]
    exact opened answered l.arrived false

theorem arrived (h : Keeps answered l b) (user : String) (m : Pending) :
    Keeps answered (l.next user (.accepted user m) b.held b.held)
      { b with waiting := b.waiting ++ [m] } := by
  by_cases hh : b.held = []
  · have hl : l.next user (.accepted user m) b.held b.held =
        { l with covered := l.covered ++ [m] } := by simp [next, hh]
    obtain ⟨harr, hriv⟩ := h.idle hh
    rw [hl]
    refine ⟨fun _ => ⟨harr, hriv⟩, fun _ hne => absurd hh hne, fun hu => ?_,
      fun _ hne => absurd hh hne⟩
    have hall := h.all
    simp only [harr, hriv, hh, List.append_nil] at hall hu ⊢
    simpa [not_rivals_nil] using (hall hu.of_append).arrived m
  · have hl : l.next user (.accepted user m) b.held b.held =
        { l with
          arrived := l.arrived ++ [m]
          rivalled := l.rivalled || decide (Rivals (l.covered ++ l.arrived) b.held m) } := by
      simp [next, hh]
    rw [hl]
    refine ⟨fun hnil => absurd hnil hh, fun hp hne => congrArg (· ++ [m]) (h.behind hp hne),
      fun hu => ?_, h.batch⟩
    rw [← List.append_assoc] at hu
    simpa [or_assoc] using (h.all hu.of_append).arrived m

theorem taken {ms held : List Pending} (h : Keeps answered l ⟨ms, [], false⟩) (user : String)
    (hh : held = ms ∨ held = normalize ms) :
    Keeps answered (l.next user .none [] held) ⟨[], held, false⟩ := by
  have hl : l.next user .none [] held = l := by simp [next]
  obtain ⟨harr, hriv⟩ := h.idle rfl
  have hall : Unanswered answered l.covered → Tracks [] held l.covered l.crossed := by
    intro hu
    have htaken := (h.all (by simpa [harr] using hu)).taken
    simp only [harr, hriv, List.append_nil, Bool.false_eq_true, or_false] at htaken
    rcases hh with rfl | rfl
    · exact htaken
    · exact htaken.normalized
  rw [hl]
  refine ⟨fun _ => ⟨harr, hriv⟩, fun _ _ => harr.symm, fun hu => ?_, fun _ _ => hall⟩
  simpa [harr, hriv] using hall hu.of_append

/-- None of the messages that a run holds is left out as answered. -/
theorem dropAnswered_eq {opened front held : List Pending} {crossed : Prop} {ids : List String}
    (ht : Tracks front held opened crossed) (hu : Unanswered answered opened)
    (hi : ∀ id ∈ ids, answered id) : dropAnswered ids held = held := by
  apply dropAnswered_eq_self
  intro m hm
  by_cases he : m.sourceId = ""
  · exact .inl he
  · refine .inr fun hid => ?_
    exact hu m (ht.mem m (List.mem_append_right front hm)) he (hi _ hid)

theorem checked {ms held : List Pending} {ids : List String}
    (h : Keeps answered l ⟨ms, held, false⟩) (user : String) (hi : ∀ id ∈ ids, answered id) :
    Keeps answered (l.next user .none held (normalize (dropAnswered ids held)))
      ⟨ms, normalize (dropAnswered ids held), false⟩ := by
  by_cases hn : normalize (dropAnswered ids held) = []
  · rw [hn]
    exact h.closed rfl user
  · have hl : l.next user .none held (normalize (dropAnswered ids held)) = l :=
      if_neg fun hne => hn hne.2
    have hheld : held ≠ [] := by
      rintro rfl
      exact hn rfl
    rw [hl]
    refine ⟨fun hnil => absurd hnil hn, fun _ _ => h.behind rfl hheld, fun hu => ?_,
      fun _ _ hu => ?_⟩
    · have ht := h.all hu
      rw [dropAnswered_eq ht hu hi]
      exact ht.normalized
    · have ht := h.batch rfl hheld hu
      rw [dropAnswered_eq ht hu hi]
      exact ht.normalized

theorem putBack {ms left : List Pending} {m : Pending} {p : Bool}
    (h : Keeps answered l ⟨ms, m :: left, true⟩) (user : String) (hd : DistinctIds (m :: left))
    (hp : left ≠ [] → p) :
    Keeps answered (l.next user (.putBack user m) (m :: left) left) ⟨ms ++ [m], left, p⟩ := by
  by_cases hleft : left = []
  · subst hleft
    have hl : l.next user (.putBack user m) [m] [] =
        { covered := l.covered ++ l.arrived, crossed := l.crossed || l.rivalled } := by simp [next]
    rw [hl]
    refine ⟨fun _ => ⟨rfl, rfl⟩, fun _ hne => absurd rfl hne, fun hu => ?_,
      fun _ hne => absurd rfl hne⟩
    rw [List.append_nil] at hu ⊢
    simpa using (h.all hu).putBack hd
  · have hl : l.next user (.putBack user m) (m :: left) left = l := if_neg fun hu => hleft hu.2
    have hp : p = true := hp hleft
    rw [hl, hp]
    exact ⟨fun hnil => absurd hnil hleft, nofun, fun hu => (h.all hu).putBack hd, nofun⟩

theorem step {user : String} {d : Deed} (h : Keeps answered l b)
    (hm : b.Moves answered user d b') : Keeps answered (l.next user d b.held b'.held) b' := by
  cases hm with
  | stays b ha hp =>
    rw [next_stays l ha hp]
    exact h
  | arrived m b => exact h.arrived user m
  | taken hh => exact h.taken user hh
  | checked hi => exact h.checked user hi
  | closed ms held => exact h.closed rfl user
  | turned ms held =>
    rw [next_stays l (by simp) (by simp)]
    exact ⟨h.idle, nofun, h.all, nofun⟩
  | putBack p hd hp => exact h.putBack user hd hp
  | rearmed t ms =>
    rw [next_stays l (by simp) (by simp)]
    exact ⟨h.idle, fun _ hne => absurd rfl hne, h.all, fun _ hne => absurd rfl hne⟩

end Keeps

end Ledger

end ChatRelay
