import ChatRelay.Proofs.Relay.Records
import Mathlib.Data.List.Perm.Basic

/-!
# Nothing that was accepted is lost

Every message that was accepted from a user is in one place: it waits in the list, or some run holds
it, or it belongs to a batch that was answered or to one that was given up with a notice, or it was
left out of a batch. Messages are left out only for the sake of others with the same source id.
-/

namespace ChatRelay

namespace BatchRun

def answered (r : BatchRun) : List Pending :=
  match r.phase with
  | .marking batch | .finished (.answered batch) => batch
  | _ => []

/-- The messages that the run has given up, telling the user so. -/
def dismissed (r : BatchRun) : List Pending :=
  match r.phase with
  | .notifying _ (.dismissed batch _) | .notifying _ (.abandoned batch _)
  | .finished (.dismissed batch _) | .finished (.abandoned batch _) => batch
  | _ => []

/-- The batch that the run has made of what it took. -/
def batch (r : BatchRun) : List Pending :=
  match r.phase with
  | .leasing batch | .executing batch _ _ | .marking batch | .requeuing batch _
  | .restoring batch _ _ | .notifying _ (.dismissed batch _) | .notifying _ (.abandoned batch _)
  | .finished (.answered batch) | .finished (.superseded batch _) | .finished (.restored batch _)
  | .finished (.dismissed batch _) | .finished (.abandoned batch _) => batch
  | _ => []

/-- All messages that the run has taken and not put back. -/
def messages (r : BatchRun) : List Pending := r.held ++ r.answered ++ r.dismissed ++ r.leftOut

theorem messages_ofFresh (r : BatchRun) (answered drained fresh : List Pending) :
    (r.ofFresh answered drained fresh).messages.Perm (fresh ++ answered) := by
  have hn := Batch.normalize_repeats_perm fresh
  have hmessages : (r.ofFresh answered drained fresh).messages =
      Batch.normalize fresh ++ (answered ++ Batch.repeats [] fresh) := by
    unfold messages ofFresh
    cases hb : Batch.normalize fresh <;> simp [held, BatchRun.answered, dismissed]
  rw [hmessages]
  apply (List.Perm.append_left _ List.perm_append_comm).trans
  rw [← List.append_assoc]
  exact hn.append_right _

theorem messages_ofDrained {r : BatchRun} (hr : r.leftOut = []) (drained : List Pending) :
    (r.ofDrained drained).messages.Perm drained := by
  unfold ofDrained
  split
  · next h =>
    simp only [List.isEmpty_iff] at h
    simp [messages, held, answered, dismissed, hr, h]
  · split
    · simpa using messages_ofFresh r [] drained drained
    · simp [messages, held, answered, dismissed, hr]

theorem messages_ofNotice (r : BatchRun) (slots : List (Option Bool)) (batch : List Pending)
    (cause : PipelineError) :
    ({ r with phase := .ofNotice slots (.dismissed batch cause) } : BatchRun).messages =
      batch ++ r.leftOut := by
  unfold Phase.ofNotice
  cases filled? slots <;> simp [messages, held, answered, dismissed]

theorem messages_concluded (r : BatchRun) (outputs : List Output) (batch : List Pending)
    (result : Except PipelineError Completion) :
    ({ r with phase := .concluded r outputs batch result } : BatchRun).messages =
      batch ++ r.leftOut := by
  unfold Phase.concluded
  split
  · split <;> simp [messages, held, answered, dismissed]
  · simp [messages, held, answered, dismissed, Deposit.start, Deposit.Phase.left_ofLeft]
  · split
    · simp [messages, held, answered, dismissed]
    · exact messages_ofNotice ..

variable {σ : Type} [Store σ] [LawfulStore σ]

/-- What a run gets hold of and what waits for its user are the same messages before and after. -/
theorem Progress.messages {s s' : σ} {r r' : BatchRun} {d : Deed}
    (h : Progress s r d s' r') (hs : LawfulStore.Sound s) (hr : r.Orderly)
    (hm : ∀ m ∈ r.held, m.IsStorable) :
    (waiting s' r.ticket.user ++ r'.messages).Perm (waiting s r.ticket.user ++ r.messages) ∧
      ∀ user, user ≠ r.ticket.user → waiting s' user = waiting s user := by
  have hleft : ∀ {left : List Pending} {m : Pending}, m.IsStorable →
      waiting (Pending.push s r.ticket.user m) r.ticket.user ++ (left ++ r.leftOut) =
        waiting s r.ticket.user ++ (m :: left ++ r.leftOut) := by
    intro left m hm
    rw [waiting_push hs _ _ hm, if_pos rfl]
    simp
  have hother : ∀ {m : Pending}, m.IsStorable → ∀ user, user ≠ r.ticket.user →
      waiting (Pending.push s r.ticket.user m) user = waiting s user := by
    intro m hm user hu
    rw [waiting_push hs _ _ hm, if_neg hu]
  cases h with
  | idle => exact ⟨List.Perm.refl _, fun _ _ => rfl⟩
  | drained hp =>
    simp only [Orderly, hp] at hr
    have hnone : r.messages = [] := by simp [BatchRun.messages, held, answered, dismissed, hp, hr]
    constructor
    · rw [waiting_takeAll hs, if_pos rfl, hnone, List.append_nil]
      exact messages_ofDrained hr _
    · intro user hu
      rw [waiting_takeAll hs, if_neg hu]
  | @checked drained seen hp ha =>
    simp only [Orderly, hp] at hr
    have hall : r.messages = drained := by
      simp [BatchRun.messages, held, answered, dismissed, hp, hr.2]
    refine ⟨List.Perm.append_left _ ?_, fun _ _ => rfl⟩
    rw [hall]
    exact (messages_ofFresh ..).trans (Batch.dropAnswered_perm seen drained)
  | leased lease x hp hx =>
    exact ⟨by simp [BatchRun.messages, held, answered, dismissed, hp], fun _ _ => rfl⟩
  | executed hp hx hst =>
    refine ⟨?_, fun user _ => hst.waiting user⟩
    rw [hst.waiting]
    simp [BatchRun.messages, held, answered, dismissed, hp]
  | concluded outputs hp =>
    refine ⟨?_, fun _ _ => rfl⟩
    rw [messages_concluded]
    simp [BatchRun.messages, held, answered, dismissed, hp]
  | @requeued batch left deposit m hp hd =>
    have hheld : r.held = m :: left := by simp [held, hp, hd, Deposit.Phase.left]
    have hstor : m.IsStorable := hm m (hheld ▸ List.mem_cons_self)
    refine ⟨?_, hother hstor⟩
    have hmine : r.messages = m :: left ++ r.leftOut := by
      simp [BatchRun.messages, hheld, answered, dismissed, hp]
    rw [hmine, ← hleft hstor]
    simp [BatchRun.messages, held, answered, dismissed, Deposit.Phase.left_ofLeft]
  | rearmed outcome hp hd =>
    refine ⟨?_, fun _ _ => rfl⟩
    simp [BatchRun.messages, held, answered, dismissed, hp, hd, Deposit.Phase.left]
  | @restored batch left m cause hp =>
    have hheld : r.held = m :: left := by simp [held, hp]
    have hstor : m.IsStorable := hm m (hheld ▸ List.mem_cons_self)
    refine ⟨?_, hother hstor⟩
    have hmine : r.messages = m :: left ++ r.leftOut := by
      simp [BatchRun.messages, hheld, answered, dismissed, hp]
    rw [hmine, ← hleft hstor]
    cases left <;> simp [BatchRun.messages, held, answered, dismissed, Phase.restored]
  | @marked batch hp =>
    have hw : ∀ user, waiting (AnsweredIds.mark s r.ticket.user (Batch.sourceIds batch)) user =
        waiting s user := fun user => congrArg Pending.decodeAll (LawfulStore.texts_mark ..)
    refine ⟨?_, fun user _ => hw user⟩
    rw [hw]
    simp [BatchRun.messages, held, answered, dismissed, hp]
  | unmarked hp =>
    exact ⟨by simp [BatchRun.messages, held, answered, dismissed, hp], fun _ _ => rfl⟩
  | notified slots' hp =>
    simp only [Orderly, hp] at hr
    obtain ⟨batch, cause, rfl⟩ := hr
    refine ⟨?_, fun _ _ => rfl⟩
    rw [messages_ofNotice]
    simp [BatchRun.messages, held, answered, dismissed, hp]

/-! ## What a run has answered, given up and left out -/

theorem batch_ofFresh (r : BatchRun) (answered drained fresh : List Pending) :
    (r.ofFresh answered drained fresh).batch = Batch.normalize fresh := by
  unfold ofFresh
  cases hb : Batch.normalize fresh <;> simp [batch]

theorem answered_ofFresh (r : BatchRun) (answered drained fresh : List Pending) :
    (r.ofFresh answered drained fresh).answered = [] := by
  unfold ofFresh
  cases hb : Batch.normalize fresh <;> simp [BatchRun.answered]

theorem answered_ofDrained (r : BatchRun) (drained : List Pending) :
    (r.ofDrained drained).answered = [] := by
  unfold ofDrained
  split
  · rfl
  · split
    · exact answered_ofFresh ..
    · rfl

/-- What is left out of a batch repeats a message of it, or has been answered. -/
theorem leftOut_ofFresh {r : BatchRun} {seen : List String} {drained : List Pending} {m : Pending}
    (hm : m ∈ (r.ofFresh (Batch.onlyAnswered seen drained) drained
      (Batch.dropAnswered seen drained)).leftOut) :
    m.sourceId ≠ "" ∧ ((∃ kept ∈ (r.ofFresh (Batch.onlyAnswered seen drained) drained
      (Batch.dropAnswered seen drained)).batch, kept.sourceId = m.sourceId) ∨
      m.sourceId ∈ seen) := by
  rcases List.mem_append.mp hm with hm | hm
  · obtain ⟨-, hne, hseen⟩ := Batch.mem_onlyAnswered.mp hm
    exact ⟨hne, .inr hseen⟩
  · obtain ⟨hne, hmet | ⟨kept, hkept, hid⟩⟩ := Batch.mem_repeats hm
    · cases hmet
    · refine ⟨hne, .inl ⟨kept, ?_, hid⟩⟩
      rw [batch_ofFresh]
      exact Batch.mem_normalize.mpr hkept

theorem Progress.answered_stays {s s' : σ} {r r' : BatchRun} {d : Deed}
    (h : Progress s r d s' r') (ha : r.answered ≠ []) : r'.answered = r.answered := by
  cases h with
  | marked hp => simp [answered, hp]
  | unmarked hp => simp [answered, hp]
  | idle => rfl
  | _ => simp_all [answered]

theorem answered_ofNotice (r : BatchRun) (slots : List (Option Bool)) (batch : List Pending)
    (cause : PipelineError) :
    ({ r with phase := .ofNotice slots (.dismissed batch cause) } : BatchRun).answered = [] := by
  unfold Phase.ofNotice
  cases filled? slots <;> rfl

/-- Only a batch whose execution came to a reply is answered. -/
theorem Progress.answered_of {s s' : σ} {r r' : BatchRun} {d : Deed}
    (h : Progress s r d s' r') (hr : r.Orderly) (ha : r'.answered ≠ []) :
    r'.answered = r.answered ∨
      ∃ lease reply, r.phase = .executing r'.answered lease (.finished (.ok reply)) := by
  cases h with
  | idle => exact .inl rfl
  | drained hp => exact absurd (answered_ofDrained ..) ha
  | checked seen hp hs => exact absurd (answered_ofFresh ..) ha
  | leased lease x hp hx => exact absurd rfl ha
  | executed hp hx hs => exact absurd rfl ha
  | @concluded batch lease result outputs hp =>
    cases result with
    | ok reply =>
      have hb : ({ r with phase := .concluded r outputs batch (.ok reply) } : BatchRun).answered =
          batch := by
        unfold Phase.concluded
        dsimp only
        split <;> rfl
      rw [hb]
      exact .inr ⟨lease, reply, hp⟩
    | error cause =>
      refine absurd ?_ ha
      unfold Phase.concluded
      cases cause with
      | cancelled => rfl
      | _ =>
        dsimp only
        split
        · rfl
        · exact answered_ofNotice ..
  | requeued hp hd => exact absurd rfl ha
  | rearmed outcome hp hd => exact absurd rfl ha
  | @restored batch left m cause hp => cases left <;> exact absurd rfl ha
  | marked hp => simp [answered, hp]
  | unmarked hp => simp [answered, hp]
  | notified slots' hp =>
    simp only [Orderly, hp] at hr
    obtain ⟨batch, cause, rfl⟩ := hr
    exact absurd (answered_ofNotice ..) ha

/-- The user is told of a batch that is given up. -/
theorem exists_tells_of_dismissed {r : BatchRun} (hd : r.dismissed ≠ []) :
    ∃ ending, r.ending? = some ending ∧ ending.tells := by
  unfold dismissed at hd
  unfold ending?
  split at hd <;> simp_all [Ending.tells]

/-- As long as lists do not fail, the user is told of nothing else. -/
theorem Orderly.mayTell_eq_false {r : BatchRun} (hr : r.Orderly) {setup : Relay.Setup}
    {log : List Entry} (hl : r.Records setup log) (hd : r.dismissed = []) {ending : Ending}
    (he : r.ending? = some ending) : ending.mayTell = false := by
  obtain ⟨before, told, hbefore, -⟩ := hl.of_ending he
  cases hp : r.phase with
  | notifying slots ending' =>
    simp only [Orderly, hp] at hr
    obtain ⟨batch, cause, rfl⟩ := hr
    obtain rfl : .dismissed batch cause = ending := by simpa [ending?, hp] using he
    exact absurd (by simpa [dismissed, hp] using hd) hbefore.1
  | finished ending' =>
    obtain rfl : ending' = ending := by simpa [ending?, hp] using he
    cases ending' with
    | dismissed batch cause => exact absurd (by simpa [dismissed, hp] using hd) hbefore.1
    | unavailable cause => simp [Orderly, hp] at hr
    | abandoned batch cause => simp [Orderly, hp] at hr
    | _ => rfl
  | _ => simp [ending?, hp] at he

theorem batch_concluded (r : BatchRun) (outputs : List Output) (batch : List Pending)
    (result : Except PipelineError Completion) :
    ({ r with phase := .concluded r outputs batch result } : BatchRun).batch = batch := by
  unfold Phase.concluded
  split
  · split <;> rfl
  · rfl
  · split
    · rfl
    · unfold Phase.notify Phase.ofNotice
      cases filled? (Execution.emptySlots outputs) <;> rfl

/-- What a run leaves out, it leaves out of its batch when this is made. -/
theorem Progress.leftOut {s s' : σ} {r r' : BatchRun} {d : Deed}
    (h : Progress s r d s' r') (hr : r.Orderly) :
    r'.leftOut = r.leftOut ∧ (r.leftOut ≠ [] → r'.batch = r.batch) ∨
      ∀ m ∈ r'.leftOut, m.sourceId ≠ "" ∧ ((∃ kept ∈ r'.batch, kept.sourceId = m.sourceId) ∨
        AnsweredIds.Marked s r.ticket.user m.sourceId) := by
  cases h with
  | idle => exact .inl ⟨rfl, fun _ => rfl⟩
  | drained hp =>
    simp only [Orderly, hp] at hr
    unfold ofDrained
    split
    · exact .inl ⟨rfl, fun h => absurd hr h⟩
    · split
      · refine .inr fun m hm => ?_
        have hm : m ∈ (r.ofFresh (Batch.onlyAnswered [] (waiting s r.ticket.user))
            (waiting s r.ticket.user)
            (Batch.dropAnswered [] (waiting s r.ticket.user))).leftOut := by
          simpa using hm
        obtain ⟨hne, hkept | hseen⟩ := leftOut_ofFresh hm
        · exact ⟨hne, .inl (by simpa using hkept)⟩
        · cases hseen
      · exact .inl ⟨rfl, fun h => absurd hr h⟩
  | checked seen hp hs =>
    refine .inr fun m hm => ?_
    obtain ⟨hne, hkept | hseen⟩ := leftOut_ofFresh hm
    · exact ⟨hne, .inl hkept⟩
    · exact ⟨hne, .inr (hs _ hseen)⟩
  | leased lease x hp hx => exact .inl ⟨rfl, fun _ => by simp [batch, hp]⟩
  | executed hp hx hs => exact .inl ⟨rfl, fun _ => by simp [batch, hp]⟩
  | concluded outputs hp =>
    exact .inl ⟨rfl, fun _ => (batch_concluded ..).trans (by simp [batch, hp])⟩
  | requeued hp hd => exact .inl ⟨rfl, fun _ => by simp [batch, hp]⟩
  | rearmed outcome hp hd => exact .inl ⟨rfl, fun _ => by simp [batch, hp]⟩
  | @restored batch left m cause hp =>
    exact .inl ⟨rfl, fun _ => by cases left <;> simp [BatchRun.batch, Phase.restored, hp]⟩
  | marked hp => exact .inl ⟨rfl, fun _ => by simp [batch, hp]⟩
  | unmarked hp => exact .inl ⟨rfl, fun _ => by simp [batch, hp]⟩
  | notified slots' hp =>
    simp only [Orderly, hp] at hr
    obtain ⟨b, cause, rfl⟩ := hr
    refine .inl ⟨rfl, fun _ => ?_⟩
    unfold Phase.ofNotice
    cases filled? slots' <;> simp [batch, hp]

/-- An id becomes answered only with a batch that has it. -/
theorem Progress.marked_of {s s' : σ} {r r' : BatchRun} {d : Deed}
    (h : Progress s r d s' r') {user id : String} (hm : AnsweredIds.Marked s' user id) :
    AnsweredIds.Marked s user id ∨ r'.ticket.user = user ∧ id ∈ Batch.sourceIds r'.answered := by
  cases h with
  | drained hp => exact .inl (marked_takeAll.mp hm)
  | executed hp hx hs => exact .inl ((hs.marked user id).mp hm)
  | requeued hp hd => exact .inl (marked_push.mp hm)
  | restored hp => exact .inl (marked_push.mp hm)
  | marked hp =>
    rcases LawfulStore.marked_mark.mp hm with ⟨hu, hid⟩ | hm
    · exact .inr ⟨hu.symm, hid⟩
    · exact .inl hm
  | _ => exact .inl hm

end BatchRun

namespace Relay

/-- What the runs of a user have of some kind. -/
def inRuns (relay : Relay) (part : BatchRun → List Pending) (user : String) : List Pending :=
  relay.runs.flatMap fun r => if r.ticket.user = user then part r else []

theorem perm_flatMap_set {α β : Type} [DecidableEq β] {l : List α} {f : α → List β} {i : Nat}
    {a b : α} {w w' : List β} (ha : l[i]? = some a) (h : (w' ++ f b).Perm (w ++ f a)) :
    (w' ++ (l.set i b).flatMap f).Perm (w ++ l.flatMap f) := by
  obtain ⟨hi, rfl⟩ := List.getElem?_eq_some_iff.mp ha
  have hsplit : l = l.take i ++ l[i] :: l.drop (i + 1) := by
    rw [List.getElem_cons_drop hi, List.take_append_drop]
  have hset : l.set i b = l.take i ++ b :: l.drop (i + 1) := by
    rw [List.set_eq_take_append_cons_drop, if_pos hi]
  rw [List.perm_iff_count] at h ⊢
  intro x
  have hx := h x
  have hl : (l.flatMap f).count x = ((l.take i).flatMap f).count x +
      ((f l[i]).count x + ((l.drop (i + 1)).flatMap f).count x) := by
    rw [← List.count_append, ← List.flatMap_cons, ← List.count_append, ← List.flatMap_append,
      ← hsplit]
  rw [hset, List.count_append, List.count_append, hl]
  simp only [List.flatMap_append, List.flatMap_cons, List.count_append] at hx ⊢
  omega

theorem mem_inRuns {relay : Relay} {part : BatchRun → List Pending} {i : Nat} {r : BatchRun}
    (hr : relay.runs[i]? = some r) {m : Pending} (hm : m ∈ part r) :
    m ∈ relay.inRuns part r.ticket.user :=
  List.mem_flatMap.mpr ⟨r, List.mem_of_getElem? hr, by simpa using hm⟩

theorem accepted_of_ne {t : Transition} {d : Deed} (hd : t.deed = d)
    (hne : ∀ user m, d ≠ .accepted user m) (user : String) (h : History) :
    accepted user (t :: h) = accepted user h := by
  rw [accepted, hd]
  cases d with
  | accepted u m => exact absurd rfl (hne u m)
  | _ => exact List.append_nil _

theorem accepted_of_accepted {t : Transition} {u : String} {m : Pending}
    (hd : t.deed = .accepted u m) (user : String) (h : History) :
    accepted user (t :: h) = accepted user h ++ if u = user then [m] else [] := by
  rw [accepted, hd]

variable {σ : Type} [Store σ]

/-- The accounts balance, and all that is to be put into lists can be read again. -/
structure Balanced (h : History) (s : σ) (relay : Relay) : Prop where
  storable : ∀ {user : String}, ∀ m ∈ accepted user h, m.IsStorable
  deposits : ∀ {i : Nat} {d : Deposit}, relay.deposits[i]? = some d →
    ∀ m ∈ d.phase.left, m.IsStorable
  balance : ∀ user, (waiting s user ++ relay.inRuns BatchRun.messages user).Perm (accepted user h)

namespace Balanced
variable {h : History} {s s' : σ} {relay relay' : Relay} {t : Transition}

theorem of_same (hb : Balanced h s relay) {d : Deed} (hd : t.deed = d)
    (hne : ∀ user m, d ≠ .accepted user m) (hw : ∀ user, waiting s' user = waiting s user)
    (hr : ∀ user, relay'.inRuns BatchRun.messages user = relay.inRuns BatchRun.messages user)
    (hdep : ∀ {i : Nat} {d : Deposit}, relay'.deposits[i]? = some d →
      ∀ m ∈ d.phase.left, m.IsStorable) : Balanced (t :: h) s' relay' where
  storable {user} := accepted_of_ne hd hne user h ▸ hb.storable
  deposits := hdep
  balance user := by
    rw [accepted_of_ne hd hne, hw, hr]
    exact hb.balance user

theorem heldStorable (hb : Balanced h s relay) {i : Nat} {r : BatchRun}
    (hr : relay.runs[i]? = some r) : ∀ m ∈ r.held, m.IsStorable := by
  intro m hm
  refine hb.storable m ((hb.balance r.ticket.user).mem_iff.mp (List.mem_append_right _ ?_))
  exact mem_inRuns hr (by simp [BatchRun.messages, hm])

variable [LawfulStore σ]

theorem progress (hb : Balanced h s relay) (hs : LawfulStore.Sound s) (ht : relay.Tended) {d : Deed}
    (hd : t.deed = d) (hne : ∀ user m, d ≠ .accepted user m) {i : Nat} {r r' : BatchRun}
    (hr : relay.runs[i]? = some r) (hp : r.Progress s d s' r')
    (hruns : relay'.runs = relay.runs.set i r') (hdep : relay'.deposits = relay.deposits) :
    Balanced (t :: h) s' relay' where
  storable {user} := accepted_of_ne hd hne user h ▸ hb.storable
  deposits := hdep ▸ hb.deposits
  balance user := by
    rw [accepted_of_ne hd hne]
    refine List.Perm.trans ?_ (hb.balance user)
    obtain ⟨hmine, hothers⟩ := hp.messages hs (ht.orderly hr) (hb.heldStorable hr)
    rw [inRuns, hruns]
    apply perm_flatMap_set hr
    rw [hp.frame.1]
    by_cases hu : r.ticket.user = user
    · subst hu
      simpa using hmine
    · simp [hu, hothers user (Ne.symm hu)]

theorem step {setup : Setup} {d : Deed} (hb : Balanced h s relay) (hs : LawfulStore.Sound s)
    (ht : relay.Tended) (hd : t.deed = d) (hap : Happens setup s relay d s' relay') :
    Balanced (t :: h) s' relay' := by
  cases hap with
  | enqueued ticket m hm =>
    refine hb.of_same hd (by simp) (fun _ => rfl) (fun _ => rfl) fun {i d'} hi => ?_
    rcases List.mem_append.mp (List.mem_of_getElem? hi) with hmem | hmem
    · obtain ⟨k, hk⟩ := List.mem_iff_getElem?.mp hmem
      exact hb.deposits hk
    · rw [List.mem_singleton] at hmem
      subst hmem
      simpa [Deposit.start, Deposit.Phase.left_ofLeft] using hm
  | @accepted i d' m left hi hp =>
    have hstor : ∀ n ∈ m :: left, n.IsStorable := by
      have := hb.deposits hi
      rwa [hp] at this
    have hm := hstor m List.mem_cons_self
    constructor
    · intro user n hn
      rw [accepted_of_accepted hd] at hn
      rcases List.mem_append.mp hn with hn | hn
      · exact hb.storable n hn
      · split at hn
        · rw [List.mem_singleton] at hn
          exact hn ▸ hm
        · cases hn
    · intro k dk hk
      rcases getElem?_set_cases hk with ⟨-, rfl⟩ | ⟨-, hk⟩
      · intro n hn
        rw [Deposit.Phase.left_ofLeft] at hn
        exact hstor n (List.mem_cons_of_mem m hn)
      · exact hb.deposits hk
    · intro user
      rw [accepted_of_accepted hd, waiting_push hs _ _ hm]
      by_cases hu : d'.ticket.user = user
      · subst hu
        rw [if_pos rfl, if_pos rfl, List.append_assoc]
        apply (List.Perm.append_left _ List.perm_append_comm).trans
        rw [← List.append_assoc]
        exact (hb.balance _).append_right [m]
      · rw [if_neg (Ne.symm hu), if_neg hu, List.append_nil]
        exact hb.balance user
  | @armed i d' queue handedOver outcome hi hp hq =>
    refine hb.of_same hd (by simp) (fun _ => rfl) (fun _ => rfl) fun {k dk} hk => ?_
    rcases getElem?_set_cases hk with ⟨-, rfl⟩ | ⟨-, hk⟩
    · simp [Deposit.armed, hp, Deposit.Phase.left]
    · exact hb.deposits hk
  | started hf hp htask hl =>
    refine hb.of_same hd (by simp) (fun _ => rfl) (fun user => ?_) hb.deposits
    simp [inRuns, BatchRun.messages, BatchRun.held, BatchRun.answered, BatchRun.dismissed]
  | ran leases hr hp hne => exact hb.progress hs ht hd hp.ne_accepted hr hp rfl rfl
  | rearmed hr hp hdep hq => exact hb.progress hs ht hd (by simp) hr (.rearmed _ hp hdep) rfl rfl
  | _ => exact hb.of_same hd (by simp) (fun _ => rfl) (fun _ => rfl) hb.deposits

end Balanced

variable [LawfulStore σ]

theorem Comes.balanced {setup : Setup} {s₀ s : σ} {policy : RetryPolicy} {h : History}
    {relay : Relay} (hc : Comes setup s₀ policy h s relay) (hs : IsEmptied s₀) :
    Balanced h s relay := by
  refine hc.invariant ?_ ?_
  · refine ⟨by simp [accepted], by simp [Relay.fresh], fun user => ?_⟩
    have hw : waiting s₀ user = [] := congrArg Pending.decodeAll (hs.texts user)
    simp [hw, accepted, inRuns, Relay.fresh]
  · intro h s relay d s' relay' t hc hb _ _ hd hap
    exact hb.step (hc.sound hs.sound) hc.tended hd hap

/-! ## Reasons for what a run has done -/

/-- Whether the batch that some run has answered has an id. -/
def HasAnswered (relay : Relay) (user id : String) : Prop :=
  ∃ (i : Nat) (r : BatchRun), relay.runs[i]? = some r ∧ r.ticket.user = user ∧
    id ∈ Batch.sourceIds r.answered

structure Justified (s₀ : σ) (h : History) (s : σ) (relay : Relay) : Prop where
  marked : ∀ {user id}, AnsweredIds.Marked s user id →
    AnsweredIds.Marked s₀ user id ∨ relay.HasAnswered user id
  executed : ∀ {i : Nat} {r : BatchRun}, relay.runs[i]? = some r → r.answered ≠ [] →
    ∃ t ∈ h, ∃ r₀ lease reply, t.before.runs[i]? = some r₀ ∧
      r₀.phase = .executing r.answered lease (.finished (.ok reply))
  leftOut : ∀ {i : Nat} {r : BatchRun}, relay.runs[i]? = some r → ∀ m ∈ r.leftOut,
    m.sourceId ≠ "" ∧ ((∃ kept ∈ r.batch, kept.sourceId = m.sourceId) ∨
      AnsweredIds.Marked s₀ r.ticket.user m.sourceId ∨ relay.HasAnswered r.ticket.user m.sourceId)

section
variable {setup : Setup} {s₀ s s' : σ} {relay relay' : Relay} {d : Deed} {t : Transition}
  {h : History}

theorem HasAnswered.stays (hap : Happens setup s relay d s' relay') {user id : String}
    (ha : relay.HasAnswered user id) : relay'.HasAnswered user id := by
  obtain ⟨i, r, hr, rfl, hid⟩ := ha
  have hne : r.answered ≠ [] := by
    intro hnil
    simp [hnil, Batch.sourceIds] at hid
  obtain ⟨r', hr', rfl | hp⟩ := hap.run_before hr
  · exact ⟨i, r', hr', rfl, hid⟩
  · exact ⟨i, r', hr', congrArg Ticket.user hp.frame.1, hp.answered_stays hne ▸ hid⟩

theorem Happens.marked (hap : Happens setup s relay d s' relay') {user id : String}
    (hm : AnsweredIds.Marked s' user id) :
    AnsweredIds.Marked s user id ∨ relay'.HasAnswered user id := by
  have hrun : ∀ {i : Nat} {r r' : BatchRun}, relay.runs[i]? = some r →
      r.Progress s d s' r' → relay'.runs = relay.runs.set i r' →
      AnsweredIds.Marked s user id ∨ relay'.HasAnswered user id := by
    intro i r r' hr hp hruns
    refine (hp.marked_of hm).imp_right fun hnew => ⟨i, r', ?_, hnew⟩
    rw [hruns, List.getElem?_set_self (List.getElem?_eq_some_iff.mp hr).1]
  cases hap with
  | accepted hd hp => exact .inl (marked_push.mp hm)
  | ran leases hr hp hne => exact hrun hr hp rfl
  | _ => exact .inl hm

theorem Justified.step (hj : Justified s₀ h s relay) (ht : relay.Tended) (hb : t.before = relay)
    (hap : Happens setup s relay d s' relay') :
    Justified s₀ (t :: h) s' relay' where
  marked hm := (hap.marked hm).elim (fun hold => (hj.marked hold).imp_right (·.stays hap)) .inr
  executed {i r'} hr' hne := by
    have hback : ∀ {r : BatchRun}, relay.runs[i]? = some r → r'.answered = r.answered →
        ∃ t' ∈ t :: h, ∃ r₀ lease reply, t'.before.runs[i]? = some r₀ ∧
          r₀.phase = .executing r'.answered lease (.finished (.ok reply)) := by
      intro r hr heq
      obtain ⟨t', ht', hex⟩ := hj.executed hr (heq ▸ hne)
      exact ⟨t', List.mem_cons_of_mem t ht', heq ▸ hex⟩
    rcases hap.run_after hr' with hr | ⟨r, hr, hp⟩ | ⟨-, -, hstart⟩
    · exact hback hr rfl
    · rcases hp.answered_of (ht.orderly hr) hne with heq | ⟨lease, reply, hex⟩
      · exact hback hr heq
      · exact ⟨t, List.mem_cons_self, r, lease, reply, hb ▸ hr, hex⟩
    · simp [BatchRun.answered, hstart.phase] at hne
  leftOut {i r'} hr' m hm := by
    have hback : ∀ {r : BatchRun}, relay.runs[i]? = some r → m ∈ r.leftOut → r'.batch = r.batch →
        r'.ticket = r.ticket → m.sourceId ≠ "" ∧ ((∃ kept ∈ r'.batch, kept.sourceId = m.sourceId) ∨
          AnsweredIds.Marked s₀ r'.ticket.user m.sourceId ∨
            relay'.HasAnswered r'.ticket.user m.sourceId) := by
      intro r hr hmem hbatch hticket
      obtain ⟨hne, hwhy⟩ := hj.leftOut hr m hmem
      rw [hbatch, hticket]
      exact ⟨hne, hwhy.imp_right fun hans => hans.imp_right (·.stays hap)⟩
    rcases hap.run_after hr' with hr | ⟨r, hr, hp⟩ | ⟨-, -, hstart⟩
    · exact hback hr hm rfl rfl
    · rcases hp.leftOut (ht.orderly hr) with ⟨heq, hbatch⟩ | hnew
      · have hmem : m ∈ r.leftOut := heq ▸ hm
        exact hback hr hmem (hbatch (List.ne_nil_of_mem hmem)) hp.frame.1
      · obtain ⟨hne, hwhy⟩ := hnew m hm
        rw [hp.frame.1]
        exact ⟨hne, hwhy.imp_right fun hmark => (hj.marked hmark).imp_right (·.stays hap)⟩
    · rw [hstart.leftOut] at hm
      cases hm

theorem Comes.justified {policy : RetryPolicy} (hc : Comes setup s₀ policy h s relay) :
    Justified s₀ h s relay := by
  refine hc.invariant (P := Justified s₀) ?_ ?_
  · exact ⟨.inl, by simp [Relay.fresh], by simp [Relay.fresh]⟩
  · intro h s relay d s' relay' t hc hj hb _ _ hap
    exact hj.step hc.tended hb hap

end

/-! ## The accounts of a user -/

theorem perm_inRuns_messages (relay : Relay) (user : String) :
    (relay.inRuns BatchRun.messages user).Perm
      (relay.inRuns BatchRun.held user ++ relay.inRuns BatchRun.answered user ++
        relay.inRuns BatchRun.dismissed user ++ relay.inRuns (·.leftOut) user) := by
  have happend : ∀ f g : BatchRun → List Pending,
      (relay.inRuns (fun r => f r ++ g r) user).Perm
        (relay.inRuns f user ++ relay.inRuns g user) := by
    intro f g
    refine List.Perm.trans (.of_eq ?_) (List.flatMap_append_perm relay.runs _ _).symm
    apply List.flatMap_congr
    intro r _
    split <;> simp
  apply (happend (fun r => r.held ++ r.answered ++ r.dismissed) (·.leftOut)).trans
  apply List.Perm.append_right _
  apply (happend (fun r => r.held ++ r.answered) BatchRun.dismissed).trans
  exact List.Perm.append_right _ (happend BatchRun.held BatchRun.answered)

/-- Every message that was accepted from a user is in exactly one place. A run that holds messages
is not finished, and a batch that it has answered or given up is neither held nor the other. What is
answered was executed with a reply. When a batch is given up, every output of the primary channel
gets one notice of it, and nobody gets a notice otherwise. -/
theorem accepted_in_one_place {setup : Setup} {s₀ s : σ} {policy : RetryPolicy} {h : History}
    {relay : Relay} (hs : IsEmptied s₀) (hc : Comes setup s₀ policy h s relay) (user : String) :
    (accepted user h).Perm
      (waiting s user ++ (relay.inRuns BatchRun.held user ++ relay.inRuns BatchRun.answered user ++
        relay.inRuns BatchRun.dismissed user ++ relay.inRuns (·.leftOut) user)) ∧
    ∀ {i : Nat} {r : BatchRun}, relay.runs[i]? = some r →
      (r.held ≠ [] → r.result? = none ∧ r.answered = [] ∧ r.dismissed = []) ∧
      (r.answered ≠ [] → r.dismissed = [] ∧ ∃ t ∈ h, ∃ r₀ lease reply,
        t.before.runs[i]? = some r₀ ∧
          r₀.phase = .executing r.answered lease (.finished (.ok reply))) ∧
      (r.dismissed ≠ [] → r.Notifies setup (record i h)) ∧
      (r.dismissed = [] → ∀ k, .noticed k ∉ record i h) ∧
      ∀ m ∈ r.leftOut, m.sourceId ≠ "" ∧
        ((∃ kept ∈ r.batch, kept.sourceId = m.sourceId) ∨
          AnsweredIds.Marked s₀ r.ticket.user m.sourceId ∨
            relay.HasAnswered r.ticket.user m.sourceId) := by
  have hj := hc.justified
  refine ⟨?balance, fun {i r} hr => ?places⟩
  case balance =>
    refine ((hc.balanced hs).balance user).symm.trans (List.Perm.append_left _ ?_)
    exact perm_inRuns_messages relay user
  case places =>
    have hrecords := (hc.occurs.records i).1 hr
    refine ⟨?held, fun hans => ⟨?answered, hj.executed hr hans⟩, ?notices, ?quiet, hj.leftOut hr⟩
    case held =>
      intro hheld
      cases hp : r.phase <;>
        simp_all [BatchRun.held, BatchRun.answered, BatchRun.dismissed, BatchRun.result?]
    case answered =>
      cases hp : r.phase <;> simp_all [BatchRun.answered, BatchRun.dismissed]
      split <;> simp_all
    case notices =>
      intro hd
      obtain ⟨ending, he, ht⟩ := BatchRun.exists_tells_of_dismissed hd
      exact hrecords.notifies he ht
    case quiet =>
      intro hd
      exact hrecords.not_noticed fun ending => (hc.tended.orderly hr).mayTell_eq_false hrecords hd

/-- A message is answered while a copy of it and another message come in. The next run takes these
and fails at its only attempt, and the output does not take the notice either. -/
def givingUp : List Event :=
  accepting 0 ⟨"u", "chat", "A"⟩ "one" "m1" 5 ++ starting 0 ++ asking 0 ++
    accepting 1 ⟨"u", "chat", "A"⟩ "one" "m1" 6 ++ accepting 2 ⟨"u", "chat", "A"⟩ "two" "m2" 7 ++
    replying 0 "reply" ++ returning 0 0 ++ starting 2 ++ asking 1 ++
    [.run 1 (.generated (.error (.authFailed "p"))), .run 1 .release, .run 1 (.notified 0 false)] ++
    returning 1 2 ++ accepting 3 ⟨"u", "chat", "A"⟩ "three" "m3" 8 ++ starting 3 ++
    [.run 2 (.access none), .run 2 (.access none)]

theorem givingUp_in_one_place :
    let last := course spoken ({} : Memory) .none givingUp
    ((last.2.2.inRuns BatchRun.held "u").map (·.sourceId) = ["m3"] ∧
      (last.2.2.inRuns BatchRun.answered "u").map (·.sourceId) = ["m1"] ∧
      (last.2.2.inRuns BatchRun.dismissed "u").map (·.sourceId) = ["m2"] ∧
      (last.2.2.inRuns (·.leftOut) "u").map (·.sourceId) = ["m1"]) ∧
      (accepted "u" last.1).Perm
        (waiting last.2.1 "u" ++ (last.2.2.inRuns BatchRun.held "u" ++
          last.2.2.inRuns BatchRun.answered "u" ++ last.2.2.inRuns BatchRun.dismissed "u" ++
          last.2.2.inRuns (·.leftOut) "u")) ∧
      .noticed 0 ∉ record 0 last.1 ∧ (record 1 last.1).count (.noticed 0) = 1 := by
  intro last
  have hc := comes_course spoken ({} : Memory) .none givingUp (by decide +kernel)
  obtain ⟨hperm, hruns⟩ := accepted_in_one_place isEmptied_memory hc "u"
  have hfacts : last.2.2.runs[0]?.map (·.dismissed) = some [] ∧
      last.2.2.runs[1]?.map (fun r => (r.dismissed, r.result?.isSome)) =
        some ([⟨"two", "m2", 7, "A"⟩], true) := by decide +kernel
  obtain ⟨hfirst, hsecond⟩ := hfacts
  obtain ⟨r₀, hr₀, hquiet⟩ := Option.map_eq_some_iff.mp hfirst
  obtain ⟨r₁, hr₁, hgiven⟩ := Option.map_eq_some_iff.mp hsecond
  obtain ⟨hbatch, hthrough⟩ := Prod.mk.inj hgiven
  have hnotice := (hruns hr₁).2.2.1 (by simp [hbatch])
  have hheard : .noticed 0 ∈ record 1 last.1 :=
    hnotice.all (Option.isSome_iff_ne_none.mp hthrough) _ rfl 0 (by decide)
  refine ⟨by decide +kernel, hperm, (hruns hr₀).2.2.2.1 hquiet 0, ?_⟩
  exact Nat.le_antisymm (hnotice.once 0) (List.count_pos_iff.mpr hheard)

end Relay
end ChatRelay
