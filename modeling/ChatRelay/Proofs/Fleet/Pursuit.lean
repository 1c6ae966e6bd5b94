import ChatRelay.Proofs.Batch.Turns
import ChatRelay.Proofs.Relay.Conservation

/-!
# Runs at work on a source id

A run is at work on a source id from the time it has made a batch with the id until it has marked
the id as answered, or given the batch away. It gets there only by a look at the answered ids that
does not show the id, and once it has answered the batch, the id is marked.
-/

namespace ChatRelay
open AnsweredIds

theorem Batch.mem_sourceIds_dropAnswered {ids : List String} {ms : List Pending} {id : String} :
    id ∈ sourceIds (dropAnswered ids ms) ↔ id ∈ sourceIds ms ∧ id ∉ ids := by
  simp only [mem_sourceIds, dropAnswered, List.mem_filter, Bool.or_eq_true, decide_eq_true_eq,
    Bool.not_eq_true', List.contains_eq_mem, decide_eq_false_iff_not]
  constructor
  · rintro ⟨hne, m, ⟨hm, hid | hid⟩, rfl⟩
    · exact absurd hid hne
    · exact ⟨⟨hne, m, hm, rfl⟩, hid⟩
  · rintro ⟨⟨hne, m, hm, rfl⟩, hid⟩
    exact ⟨hne, m, ⟨hm, .inr hid⟩, rfl⟩

theorem Batch.ne_nil_of_mem_sourceIds {ms : List Pending} {id : String} (h : id ∈ sourceIds ms) :
    ms ≠ [] := by
  rintro rfl
  cases h

namespace BatchRun

/-- The batch that the run is at work on. -/
def pursued (r : BatchRun) : List Pending :=
  match r.phase with
  | .leasing batch | .executing batch _ _ | .marking batch => batch
  | _ => []

def sparesIds (r : BatchRun) : Relay.RunEvent → Bool
  | .access fault =>
    match r.phase with
    | .checking _ | .marking _ => fault.isNone
    | _ => true
  | _ => true

section
variable (r : BatchRun)

theorem pursued_ofFresh (answered drained fresh : List Pending) :
    (r.ofFresh answered drained fresh).pursued = Batch.normalize fresh := by
  unfold ofFresh
  cases hb : Batch.normalize fresh <;> simp [pursued]

theorem pursued_ofNotice (slots : List (Option Bool)) (ending : Ending) :
    ({ r with phase := .ofNotice slots ending } : BatchRun).pursued = [] := by
  unfold Phase.ofNotice
  cases filled? slots <;> rfl

theorem answered_ofNotice_of_mayTell (slots : List (Option Bool)) {ending : Ending}
    (he : ending.mayTell) :
    ({ r with phase := .ofNotice slots ending } : BatchRun).answered = [] := by
  unfold Phase.ofNotice
  cases filled? slots with
  | none => rfl
  | some _ => cases ending <;> first | rfl | cases he

/-- Telling the user changes nothing about the batch. -/
theorem batch_ofNotice_of_mayTell (slots slots' : List (Option Bool)) {ending : Ending}
    (he : ending.mayTell) :
    ({ r with phase := .ofNotice slots ending } : BatchRun).batch =
      ({ r with phase := .notifying slots' ending } : BatchRun).batch := by
  unfold Phase.ofNotice
  cases filled? slots with
  | none => cases ending <;> rfl
  | some _ => cases ending <;> first | rfl | cases he

theorem pursued_ofPayload (payload : Json) (attempt : Timer.Attempt) (firing : Option Nat) :
    (ofPayload payload attempt firing).pursued = [] := by
  unfold ofPayload
  split <;> rfl

theorem answered_ofPayload (payload : Json) (attempt : Timer.Attempt) (firing : Option Nat) :
    (ofPayload payload attempt firing).answered = [] := by
  unfold ofPayload
  split <;> rfl

/-- A run that is done with the execution pursues the ids that it has answered, if there are any. -/
theorem concluded_pursues (outputs : List Output) (batch : List Pending)
    (result : Except PipelineError Completion) :
    let r' : BatchRun := { r with phase := .concluded r outputs batch result }
    (r'.pursued = [] ∨ r'.pursued = batch) ∧
      ∀ id ∈ Batch.sourceIds r'.answered, id ∈ Batch.sourceIds r'.pursued := by
  intro r'
  unfold r' Phase.concluded
  split
  · split
    · next hids =>
      simp only [List.isEmpty_iff] at hids
      exact ⟨.inl rfl, by simp [answered, hids]⟩
    · exact ⟨.inr rfl, fun id hid => hid⟩
  · exact ⟨.inl rfl, by simp [answered, Batch.sourceIds]⟩
  · split
    · exact ⟨.inl rfl, by simp [answered, Batch.sourceIds]⟩
    · refine ⟨.inl (pursued_ofNotice ..), ?_⟩
      simp [Phase.notify, answered_ofNotice, Batch.sourceIds]

variable {r}

/-- A run is at work on its batch, or on nothing. -/
theorem batch_of_pursued (h : r.pursued ≠ []) : r.pursued = r.batch := by
  cases hp : r.phase <;> simp_all [pursued, batch]

theorem batch_of_answered (h : r.answered ≠ []) : r.answered = r.batch := by
  cases hp : r.phase with
  | finished ending => cases ending <;> simp_all [answered, batch]
  | _ => simp_all [answered, batch]

end

section
variable {σ : Type} [Store σ] [LawfulStore σ] {setup : Relay.Setup} {s s' : σ} {r r' : BatchRun}
  {e : Relay.RunEvent} {id : String}

theorem pursued_ofDrained_ids (drained : List Pending) :
    id ∉ Batch.sourceIds (r.ofDrained drained).pursued := by
  unfold ofDrained
  split
  · simp [pursued, Batch.sourceIds]
  · split
    · next hids =>
      simp only [List.isEmpty_iff] at hids
      rw [pursued_ofFresh, Batch.mem_sourceIds_normalize, hids]
      exact List.not_mem_nil
    · simp [pursued, Batch.sourceIds]

/-- A run gets to work on an id only if the id has not been marked. -/
theorem Turns.pursues_of (h : r.Turns setup s e s' r') (hs : r.sparesIds e)
    (hid : id ∈ Batch.sourceIds r'.pursued) :
    id ∈ Batch.sourceIds r.pursued ∨ ¬ Marked s' r.ticket.user id := by
  cases h with
  | unmoved hd he => exact .inl hid
  | drained hp => exact absurd hid (pursued_ofDrained_ids _)
  | checked hp =>
    right
    rw [pursued_ofFresh, Batch.mem_sourceIds_normalize, Batch.mem_sourceIds_dropAnswered,
      LawfulStore.mem_seen] at hid
    exact fun hm => hid.2 ⟨hid.1, hm⟩
  | unchecked cause hp => simp [sparesIds, hp] at hs
  | leased lease x hp => exact .inl (by simpa [pursued, hp] using hid)
  | executed hp hs he => exact .inl (by simpa [pursued, hp] using hid)
  | @concluded batch lease result hp =>
    left
    rcases (concluded_pursues r (outputsOf setup) batch result).1 with hnone | hall
    · rw [hnone] at hid
      cases hid
    · rw [hall] at hid
      simpa [pursued, hp] using hid
  | undrained cause hp =>
    split at hid
    · simp [Phase.notify, pursued_ofNotice, Batch.sourceIds] at hid
    · cases hid
  | unrestored cause hp => simp [Phase.notify, pursued_ofNotice, Batch.sourceIds] at hid
  | notified slot success hp => simp [pursued_ofNotice, Batch.sourceIds] at hid
  | @restored batch left m cause hp => cases left <;> cases hid
  | _ => cases hid

/-- A run answers only what it is at work on, and is so still unless the ids are marked. -/
theorem Turns.answers_of (h : r.Turns setup s e s' r') (hr : r.Steady) (hs : r.sparesIds e)
    (hid : id ∈ Batch.sourceIds r'.answered) :
    r' = r ∧ s' = s ∨ id ∈ Batch.sourceIds r.pursued ∧
      (id ∈ Batch.sourceIds r'.pursued ∨ Marked s' r.ticket.user id) := by
  cases h with
  | unmoved hd he => exact .inl ⟨rfl, rfl⟩
  | drained hp =>
    rw [answered_ofDrained] at hid
    cases hid
  | checked hp =>
    rw [answered_ofFresh] at hid
    cases hid
  | unchecked cause hp => simp [sparesIds, hp] at hs
  | undrained cause hp =>
    split at hid
    · rw [Phase.notify, answered_ofNotice_of_mayTell r _ rfl] at hid
      cases hid
    · cases hid
  | @concluded batch lease result hp =>
    obtain ⟨hphase, hpursues⟩ := concluded_pursues r (outputsOf setup) batch result
    have hpur := hpursues id hid
    refine .inr ⟨?_, .inl hpur⟩
    rcases hphase with hnone | hall
    · rw [hnone] at hpur
      cases hpur
    · rw [hall] at hpur
      simpa [pursued, hp] using hpur
  | unrestored cause hp =>
    rw [Phase.notify, answered_ofNotice_of_mayTell r _ rfl] at hid
    cases hid
  | notified slot success hp =>
    rw [answered_ofNotice_of_mayTell r _ (by simpa [Steady, hp] using hr)] at hid
    cases hid
  | @restored batch left m cause hp => cases left <;> cases hid
  | marked hp =>
    refine .inr ⟨by simpa [pursued, answered, hp] using hid, .inr ?_⟩
    exact LawfulStore.marked_mark.mpr (.inl ⟨rfl, hid⟩)
  | unmarked cause hp => simp [sparesIds, hp] at hs
  | _ => cases hid

/-- A run that has made a batch stays with it. -/
theorem Turns.batch_stays (h : r.Turns setup s e s' r') (hr : r.Steady) (hb : r.batch ≠ []) :
    r'.batch = r.batch := by
  cases h with
  | unmoved hd he => rfl
  | drained hp => simp [batch, hp] at hb
  | undrained cause hp => simp [batch, hp] at hb
  | checked hp => simp [batch, hp] at hb
  | unchecked cause hp => simp [batch, hp] at hb
  | concluded hp => exact (batch_concluded ..).trans (by simp [batch, hp])
  | @restored b left m cause hp => cases left <;> simp [batch, Phase.restored, hp]
  | unrestored cause hp =>
    rw [Phase.notify, batch_ofNotice_of_mayTell r _ [] rfl]
    simp [batch, hp]
  | @notified slots ending slot success hp =>
    rw [batch_ofNotice_of_mayTell r _ slots (by simpa [Steady, hp] using hr)]
    simp [batch, hp]
  | leased lease x hp => simp [batch, hp]
  | executed hp hs he => simp [batch, hp]
  | requeued hp hd => simp [batch, hp]
  | unrequeued cause hp hd => simp [batch, hp]
  | rearmed outcome hp hd => simp [batch, hp]
  | marked hp => simp [batch, hp]
  | unmarked cause hp => simp [batch, hp]

end

end BatchRun
end ChatRelay
