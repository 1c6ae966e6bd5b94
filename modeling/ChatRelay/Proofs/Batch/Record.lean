import ChatRelay.Proofs.Batch.Turns
import ChatRelay.Proofs.Channel.Slots
import Mathlib.Data.List.Count

/-!
# The record of a run

Whatever fails, a run leases its batch, executes it, and then does one of three things: it is done
with an answered batch, it puts the messages back one after the other until one cannot be put back,
or it tells the user that the batch is given up. `BatchRun.Records` says which entries a run has by
the phase that it is in.
-/

namespace ChatRelay

namespace BatchRun

/-- The attempts to put messages back, each with the failure that it met. -/
def attempts (log : List Entry) : List (Pending × Option StoreError) :=
  log.filterMap fun
    | .attempted m fault => some (m, fault)
    | _ => none

def returned (log : List Entry) : List Pending :=
  log.filterMap fun
    | .attempted m none => some m
    | _ => none

def backEntries (ms : List Pending) : List Entry := ms.map (.attempted · none)

section
variable (log log' : List Entry) (ms : List Pending) (slots : List Nat)

@[simp] theorem attempts_nil : attempts [] = [] := rfl

@[simp] theorem returned_nil : returned [] = [] := rfl

@[simp] theorem attempts_leased (batch : List Pending) :
    attempts (.leased batch :: log) = attempts log := rfl

@[simp] theorem returned_leased (batch : List Pending) :
    returned (.leased batch :: log) = returned log := rfl

@[simp] theorem attempts_concluded (result : Except PipelineError Completion) :
    attempts (.concluded result :: log) = attempts log := rfl

@[simp] theorem returned_concluded (result : Except PipelineError Completion) :
    returned (.concluded result :: log) = returned log := rfl

@[simp] theorem attempts_attempted (m : Pending) (fault : Option StoreError) :
    attempts (.attempted m fault :: log) = (m, fault) :: attempts log := rfl

@[simp] theorem returned_failed (m : Pending) (cause : StoreError) :
    returned (.attempted m (some cause) :: log) = returned log := rfl

@[simp] theorem attempts_append : attempts (log ++ log') = attempts log ++ attempts log' :=
  List.filterMap_append

@[simp] theorem returned_append : returned (log ++ log') = returned log ++ returned log' :=
  List.filterMap_append

@[simp] theorem attempts_backEntries : attempts (backEntries ms) = ms.map (·, none) := by
  simp [attempts, backEntries, List.filterMap_map]

@[simp] theorem returned_backEntries : returned (backEntries ms) = ms := by
  simp [returned, backEntries, List.filterMap_map]

@[simp] theorem attempts_noticed : attempts (slots.map .noticed) = [] := by
  simp [attempts, List.filterMap_map]

@[simp] theorem returned_noticed : returned (slots.map .noticed) = [] := by
  simp [returned, List.filterMap_map]

end

/-- The entries of a batch that was put back up to a message that met a failure. -/
def Stops (batch : List Pending) (cause : StoreError) (log : List Entry) : Prop :=
  ∃ back m left, batch = back ++ m :: left ∧
    log = backEntries back ++ [.attempted m (some cause)]

/-- The entries of a run that ended so, before the user is told. -/
def Ending.Records (log : List Entry) : Ending → Prop
  | .unreadable _ | .unavailable _ | .idle | .stale _ => log = []
  | .answered batch => ∃ c, log = [.leased batch, .concluded (.ok c)]
  | .superseded batch (.error (.store cause)) => ∃ stop, Stops batch cause stop ∧
      log = [.leased batch, .concluded (.error .cancelled)] ++ stop
  | .superseded batch _ =>
      log = [.leased batch, .concluded (.error .cancelled)] ++ backEntries batch
  | .restored batch cause => cause ≠ .cancelled ∧
      log = [.leased batch, .concluded (.error cause)] ++ backEntries batch
  | .dismissed batch cause => batch ≠ [] ∧ cause ≠ .cancelled ∧
      log = [.leased batch, .concluded (.error cause)]
  | .abandoned batch cause => ∃ reason stop, reason ≠ .cancelled ∧ Stops batch cause stop ∧
      log = [.leased batch, .concluded (.error reason)] ++ stop

def ending? (r : BatchRun) : Option Ending :=
  match r.phase with
  | .notifying _ ending | .finished ending => some ending
  | _ => none

def Ending.tells : Ending → Bool
  | .dismissed _ _ | .abandoned _ _ => true
  | _ => false

/-- The entries of a run by its phase. Of the outputs, those that are done have an entry. -/
def Records (setup : Relay.Setup) (r : BatchRun) (log : List Entry) : Prop :=
  match r.phase with
  | .draining | .checking _ | .leasing _ => log = []
  | .executing batch _ _ => log = [.leased batch]
  | .marking batch => ∃ c, log = [.leased batch, .concluded (.ok c)]
  | .requeuing batch deposit => ∃ back, batch = back ++ deposit.phase.left ∧
      log = [.leased batch, .concluded (.error .cancelled)] ++ backEntries back
  | .restoring batch left cause => cause ≠ .cancelled ∧ ∃ back, batch = back ++ left ∧
      log = [.leased batch, .concluded (.error cause)] ++ backEntries back
  | .notifying slots ending => ∃ (before : List Entry) (rs : List Report),
      ending.Records before ∧ log = before ++ (rs.map (·.slot)).map .noticed ∧
      ending.mayTell ∧ slots.length = (outputsOf setup).length ∧ Tells rs slots
  | .finished ending => ∃ (before : List Entry) (told : List Nat), ending.Records before ∧
      log = before ++ told.map .noticed ∧
      (ending.mayTell ∧ told.Perm (List.range (outputsOf setup).length) ∨
        told = [] ∧ ending.tells = false)

section
variable {setup : Relay.Setup} {r : BatchRun} {log : List Entry}

/-- Which outputs are done with the notice of an ending. -/
structure Told (setup : Relay.Setup) (r : BatchRun) (ending : Ending) (told : List Nat) : Prop where
  once : told.Nodup
  lt : ∀ k ∈ told, k < (outputsOf setup).length
  all : ending.tells → r.result? ≠ none → ∀ k < (outputsOf setup).length, k ∈ told
  nobody : ending.mayTell = false → told = []

theorem Records.of_ending {ending : Ending} (hl : r.Records setup log)
    (he : r.ending? = some ending) : ∃ before told,
      ending.Records before ∧ log = before ++ told.map .noticed ∧ Told setup r ending told := by
  cases hp : r.phase with
  | notifying slots ending' =>
    obtain rfl : ending' = ending := by simpa [ending?, hp] using he
    simp only [Records, hp] at hl
    obtain ⟨before, rs, hbefore, hlog, hmay, hlen, ht⟩ := hl
    refine ⟨before, _, hbefore, hlog, ht.once, fun k hk => ?_, ?_, by simp [hmay]⟩
    · obtain ⟨report, hreport, rfl⟩ := List.mem_map.mp hk
      exact hlen ▸ (List.getElem?_eq_some_iff.mp ((ht.filled report).mp hreport)).1
    · simp [result?, hp]
  | finished ending' =>
    obtain rfl : ending' = ending := by simpa [ending?, hp] using he
    simp only [Records, hp] at hl
    obtain ⟨before, told, hbefore, hlog, ⟨hmay, hperm⟩ | ⟨rfl, hquiet⟩⟩ := hl
    · refine ⟨before, told, hbefore, hlog, hperm.nodup_iff.mpr List.nodup_range, fun k hk => ?_,
        fun _ _ k hk => hperm.mem_iff.mpr (List.mem_range.mpr hk), by simp [hmay]⟩
      exact List.mem_range.mp (hperm.mem_iff.mp hk)
    · exact ⟨before, [], hbefore, hlog, List.nodup_nil, by simp, by simp [hquiet], fun _ => rfl⟩
  | _ => simp [ending?, hp] at he

/-- What a run has put back whose batch is given up: nothing, or the messages before the one that
met the failure. -/
theorem Records.given_up {batch : List Pending} {ending : Ending} (hl : r.Records setup log)
    (hb : .leased batch ∈ log) (he : r.ending? = some ending) (ht : ending.tells) :
    ∃ back left, batch = back ++ left ∧ returned log = back ∧
      ((∃ cause, ending = .dismissed batch cause) ∧ attempts log = [] ∧ back = [] ∨
        ∃ cause m rest, ending = .abandoned batch cause ∧ left = m :: rest ∧
          attempts log = back.map (·, none) ++ [(m, some cause)]) := by
  obtain ⟨before, told, hbefore, rfl, -⟩ := hl.of_ending he
  cases ending with
  | dismissed b cause =>
    obtain ⟨-, -, rfl⟩ := hbefore
    obtain rfl : batch = b := by simpa using hb
    exact ⟨[], batch, rfl, by simp, .inl ⟨⟨cause, rfl⟩, by simp, rfl⟩⟩
  | abandoned b cause =>
    obtain ⟨reason, stop, -, ⟨back, m, rest, hback, rfl⟩, rfl⟩ := hbefore
    obtain rfl : batch = b := by simpa [backEntries] using hb
    exact ⟨back, m :: rest, hback, by simp, .inr ⟨cause, m, rest, rfl, rfl, by simp⟩⟩
  | _ => cases ht

/-! ## The notice -/

/-- What the outputs of the primary channel hear of a batch that is given up. Nobody else hears of
it, nobody hears twice, and all have heard by the time the run is through. -/
structure Notifies (setup : Relay.Setup) (r : BatchRun) (log : List Entry) : Prop where
  once : ∀ k, log.count (.noticed k) ≤ 1
  outputs : ∀ k, .noticed k ∈ log → ∃ channel,
    setup.channels.find? setup.primary = some channel ∧ k < channel.outputs.length
  all : r.result? ≠ none → ∀ channel, setup.channels.find? setup.primary = some channel →
    ∀ k < channel.outputs.length, .noticed k ∈ log

theorem outputsOf_eq {channel : Channel}
    (h : setup.channels.find? setup.primary = some channel) :
    outputsOf setup = channel.outputs := by
  simp [outputsOf, noticeOutputs, h]

theorem exists_of_lt_outputsOf {k : Nat} (hk : k < (outputsOf setup).length) : ∃ channel,
    setup.channels.find? setup.primary = some channel ∧ k < channel.outputs.length := by
  cases h : setup.channels.find? setup.primary with
  | none => simp [outputsOf, noticeOutputs, h] at hk
  | some channel => exact ⟨channel, rfl, outputsOf_eq h ▸ hk⟩

theorem Ending.Records.not_noticed {ending : Ending} (h : ending.Records log) (k : Nat) :
    .noticed k ∉ log := by
  unfold Ending.Records at h
  split at h <;> grind [Stops, backEntries]

theorem mem_noticed {before : List Entry} {told : List Nat} {k : Nat}
    (hbefore : .noticed k ∉ before) : .noticed k ∈ before ++ told.map .noticed ↔ k ∈ told := by
  simp [hbefore]

theorem Records.notifies {ending : Ending} (hl : r.Records setup log)
    (he : r.ending? = some ending) (ht : ending.tells) : r.Notifies setup log := by
  obtain ⟨before, told, hbefore, rfl, htold⟩ := hl.of_ending he
  have hmem (k : Nat) : .noticed k ∈ before ++ told.map .noticed ↔ k ∈ told :=
    mem_noticed (hbefore.not_noticed k)
  constructor
  · intro k
    have hcount : (told.map Entry.noticed).count (.noticed k) = told.count k :=
      List.count_map_of_injective _ _ (fun _ _ => Entry.noticed.inj) _
    rw [List.count_append, List.count_eq_zero.mpr (hbefore.not_noticed k), hcount, Nat.zero_add]
    exact List.nodup_iff_count_le_one.mp htold.once k
  · exact fun k hk => exists_of_lt_outputsOf (htold.lt k ((hmem k).mp hk))
  · intro hthrough channel hchannel k hk
    exact (hmem k).mpr (htold.all ht hthrough k (outputsOf_eq hchannel ▸ hk))

/-- Of a run that has nothing to tell, nobody hears. -/
theorem Records.not_noticed (hl : r.Records setup log)
    (hq : ∀ ending, r.ending? = some ending → ending.mayTell = false) (k : Nat) :
    .noticed k ∉ log := by
  cases he : r.ending? with
  | some ending =>
    obtain ⟨before, told, hbefore, rfl, htold⟩ := hl.of_ending he
    rw [mem_noticed (hbefore.not_noticed k), htold.nobody (hq ending he)]
    exact List.not_mem_nil
  | none =>
    unfold Records at hl
    split at hl <;> grind [ending?, backEntries]

/-! ## One turn -/

theorem records_finished {ending : Ending} (h : ending.Records log) (ht : ending.tells = false) :
    ({ r with phase := .finished ending } : BatchRun).Records setup log :=
  ⟨log, [], h, by simp, .inr ⟨rfl, ht⟩⟩

theorem records_ofNotice {slots : List (Option Bool)} {ending : Ending} {before : List Entry}
    {rs : List Report} (hm : ending.mayTell) (h : ending.Records before)
    (hlog : log = before ++ (rs.map (·.slot)).map .noticed)
    (hlen : slots.length = (outputsOf setup).length) (ht : Tells rs slots) :
    ({ r with phase := .ofNotice slots ending } : BatchRun).Records setup log := by
  unfold Phase.ofNotice
  cases hf : filled? slots with
  | none => exact ⟨before, rs, h, hlog, hm, hlen, ht⟩
  | some successes =>
    obtain rfl := eq_map_of_filled? hf
    rw [List.length_map] at hlen
    exact ⟨before, _, h, hlog, .inl ⟨hm, hlen ▸ ht.perm⟩⟩

theorem records_notify {ending : Ending} (hm : ending.mayTell) (h : ending.Records log) :
    ({ r with phase := .notify (outputsOf setup) ending } : BatchRun).Records setup log := by
  refine records_ofNotice hm h ?_ ?_ (tells_emptySlots _)
  · exact (List.append_nil log).symm
  · simp [Execution.emptySlots]

theorem records_ofFresh (answered drained fresh : List Pending) :
    (r.ofFresh answered drained fresh).Records setup [] := by
  unfold ofFresh
  cases Batch.normalize fresh with
  | nil => exact ⟨[], [], rfl, rfl, .inr ⟨rfl, rfl⟩⟩
  | cons m batch => rfl

theorem records_ofDrained (drained : List Pending) : (r.ofDrained drained).Records setup [] := by
  unfold ofDrained
  split
  · exact records_finished rfl rfl
  · split
    · exact records_ofFresh ..
    · rfl

theorem records_concluded {batch : List Pending} (hb : batch ≠ [])
    (result : Except PipelineError Completion) :
    ({ r with phase := .concluded r (outputsOf setup) batch result } : BatchRun).Records setup
      [.leased batch, .concluded result] := by
  unfold Phase.concluded
  split
  · next c =>
    split
    · exact records_finished ⟨c, rfl⟩ rfl
    · exact ⟨c, rfl⟩
  · exact ⟨[], by simp [Deposit.start, Deposit.Phase.left_ofLeft], by simp [backEntries]⟩
  · next cause hne =>
    have hc : cause ≠ .cancelled := fun heq => hne (by rw [heq])
    split
    · exact ⟨hc, [], rfl, by simp [backEntries]⟩
    · exact records_notify rfl ⟨hb, hc, rfl⟩

theorem records_ofPayload (payload : Json) (attempt : Timer.Attempt) (firing : Option Nat) :
    (ofPayload payload attempt firing).Records setup [] := by
  unfold ofPayload
  split
  · rfl
  · exact ⟨[], [], rfl, rfl, .inr ⟨rfl, rfl⟩⟩

variable {σ : Type} [Store σ] [LawfulStore σ] {s s' : σ} {r' : BatchRun} {e : Relay.RunEvent}

/-- An event makes its entry, and the run goes on by its record. -/
theorem Turns.records (h : r.Turns setup s e s' r') (hr : r.Steady) (hl : r.Records setup log) :
    r'.Records setup (log ++ (r.noted? e).toList) := by
  cases h with
  | unmoved hd he => simpa [he] using hl
  | drained hp =>
    simp only [Records, hp] at hl
    simpa [noted?, nextBack?, hp, hl] using records_ofDrained _
  | undrained cause hp =>
    simp only [Records, hp] at hl
    simp only [noted?, nextBack?, hp, hl, Option.map_none, Option.toList_none, List.append_nil]
    split
    · exact records_notify rfl rfl
    · exact records_finished rfl rfl
  | checked hp =>
    simp only [Records, hp] at hl
    simpa [noted?, nextBack?, hp, hl] using records_ofFresh ..
  | unchecked cause hp =>
    simp only [Records, hp] at hl
    simpa [noted?, nextBack?, hp, hl] using records_ofFresh ..
  | leased lease x hp =>
    simp only [Records, hp] at hl
    simp [Records, noted?, hp, hl]
  | executed hp hs he =>
    simp only [Records, hp] at hl
    simpa [Records, he] using hl
  | concluded hp =>
    simp only [Records, hp] at hl
    simp only [Steady, hp] at hr
    simpa [noted?, hp, hl] using records_concluded hr _
  | @requeued batch left deposit m hp hd =>
    simp only [Records, hp, hd, Deposit.Phase.left] at hl
    obtain ⟨back, hback, rfl⟩ := hl
    refine ⟨back ++ [m], ?_, ?_⟩
    · simpa [Deposit.Phase.left_ofLeft] using hback
    · simp [noted?, nextBack?, hp, hd, Deposit.Phase.left, backEntries]
  | @unrequeued batch left deposit m cause hp hd =>
    simp only [Records, hp, hd, Deposit.Phase.left] at hl
    obtain ⟨back, hback, rfl⟩ := hl
    apply records_finished _ rfl
    refine ⟨_, ⟨back, m, left, hback, rfl⟩, ?_⟩
    simp [noted?, nextBack?, hp, hd, Deposit.Phase.left]
  | @rearmed batch deposit outcome hp hd =>
    simp only [Records, hp, hd, Deposit.Phase.left] at hl
    obtain ⟨back, hback, rfl⟩ := hl
    obtain rfl : batch = back := by simpa using hback
    apply records_finished _ rfl
    cases outcome <;> simp [Ending.Records, Except.mapError, noted?]
  | @restored batch left m cause hp =>
    simp only [Records, hp] at hl
    obtain ⟨hne, back, rfl, rfl⟩ := hl
    cases left with
    | nil =>
      apply records_finished _ rfl
      simp [Ending.Records, hne, noted?, nextBack?, hp, backEntries]
    | cons n left =>
      refine ⟨hne, back ++ [m], by simp, ?_⟩
      simp [noted?, nextBack?, hp, backEntries]
  | @unrestored batch left m reason cause hp =>
    simp only [Records, hp] at hl
    obtain ⟨hne, back, rfl, rfl⟩ := hl
    apply records_notify rfl
    refine ⟨reason, _, hne, ⟨back, m, left, rfl, rfl⟩, ?_⟩
    simp [noted?, nextBack?, hp]
  | marked hp =>
    simp only [Records, hp] at hl
    obtain ⟨c, rfl⟩ := hl
    exact records_finished ⟨c, by simp [noted?, nextBack?, hp]⟩ rfl
  | unmarked cause hp =>
    simp only [Records, hp] at hl
    obtain ⟨c, rfl⟩ := hl
    exact records_finished ⟨c, by simp [noted?, nextBack?, hp]⟩ rfl
  | @notified slots ending slot success hp =>
    simp only [Records, hp] at hl
    simp only [Steady, hp] at hr
    obtain ⟨before, rs, hbefore, rfl, -, hlen, ht⟩ := hl
    rw [← length_fillSlot _ slot success] at hlen
    -- an output that is done already, or is none, leaves no entry
    by_cases hslot : slots[slot]? = some none
    · exact records_ofNotice hr hbefore (by simp [noted?, hp, hslot]) hlen
        (ht.fillSlot hslot success)
    · rw [fillSlot_of_not hslot] at hlen ⊢
      exact records_ofNotice hr hbefore (by simp [noted?, hp, hslot]) hlen ht

end

end BatchRun
end ChatRelay
