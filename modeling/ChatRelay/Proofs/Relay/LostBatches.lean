import ChatRelay.Proofs.Relay.ClosedBatches
import ChatRelay.Proofs.Timer.Due

/-!
# Batches that disappear

A run that leased a batch answers it, or puts all of it back, or tells the user that it is given up,
with one exception: if newer input called the batch off and it cannot be put back as a whole, what
was not put back is gone, and nobody is told.
-/

namespace ChatRelay

namespace BatchRun
variable {setup : Relay.Setup} {r : BatchRun} {log : List Entry} {batch : List Pending}
  {ending : Ending}

/-- Whether newer input called the batch off and some message of it could not be put back. -/
def IsLost (log : List Entry) : Prop :=
  .concluded (.error .cancelled) ∈ log ∧ ∃ m cause, .attempted m (some cause) ∈ log

/-- Whether every output of the primary channel is done with the notice that the batch is given
up. -/
def IsTold (setup : Relay.Setup) (ending : Ending) (log : List Entry) : Prop :=
  ending.tells ∧ ∃ channel, setup.channels.find? setup.primary = some channel ∧
    ∀ k < channel.outputs.length, .noticed k ∈ log

theorem exists_find?_iff : (∃ channel, setup.channels.find? setup.primary = some channel) ↔
    setup.channels.has setup.primary := Option.isSome_iff_exists.symm

/-- What a run that is through with its batch has on record: one of four things. -/
inductive Closes (setup : Relay.Setup) (batch : List Pending) (ending : Ending) (log : List Entry) :
    Prop
  | answered (completion : Completion) (hl : log = [.leased batch, .concluded (.ok completion)])
      (ht : ending.tells = false)
  | back (cause : PipelineError)
      (hl : log = [.leased batch, .concluded (.error cause)] ++ backEntries batch)
      (ht : ending.tells = false)
  | lost (cause : StoreError) (stop : List Entry) (hs : Stops batch cause stop)
      (hl : log = [.leased batch, .concluded (.error .cancelled)] ++ stop)
      (ht : ending.tells = false)
  | givenUp (cause : PipelineError) (hc : cause ≠ .cancelled) (tried : List Entry)
      (told : List Nat) (hne : returned tried ≠ batch) (ho : ∀ c, .concluded c ∉ tried)
      (hl : log = [.leased batch, .concluded (.error cause)] ++ tried ++ told.map .noticed)
      (hn : ∀ k < (outputsOf setup).length, k ∈ told) (ht : ending.tells)

theorem Stops.returned_ne {cause : StoreError} {stop : List Entry} (h : Stops batch cause stop) :
    returned stop ≠ batch := by
  obtain ⟨back, m, left, rfl, rfl⟩ := h
  simp

theorem Stops.not_concluded {cause : StoreError} {stop : List Entry} (h : Stops batch cause stop)
    (result : Except PipelineError Completion) : .concluded result ∉ stop := by
  obtain ⟨back, m, left, rfl, rfl⟩ := h
  simp [backEntries]

theorem Records.closes (hl : r.Records setup log) (hp : r.phase = .finished ending)
    (hb : .leased batch ∈ log) : Closes setup batch ending log := by
  have he : r.ending? = some ending := by simp [ending?, hp]
  obtain ⟨before, told, hbefore, rfl, htold⟩ := hl.of_ending he
  have hthrough : r.result? ≠ none := by simp [result?, hp]
  cases ending with
  | answered b =>
    obtain ⟨c, rfl⟩ := hbefore
    obtain rfl := htold.nobody rfl
    obtain rfl : batch = b := by simpa using hb
    exact .answered c (by simp) rfl
  | superseded b result =>
    obtain rfl := htold.nobody rfl
    have hback : before = [.leased b, .concluded (.error .cancelled)] ++ backEntries b →
        Closes setup batch (.superseded b result) (before ++ [].map .noticed) := by
      rintro rfl
      obtain rfl : batch = b := by simpa [backEntries] using hb
      exact .back .cancelled (by simp) rfl
    cases result with
    | ok _ => exact hback hbefore
    | error cause =>
      cases cause with
      | store cause =>
        obtain ⟨stop, hs, rfl⟩ := hbefore
        obtain rfl : batch = b := by
          obtain ⟨back, m, left, -, rfl⟩ := hs
          simpa [backEntries] using hb
        exact .lost cause stop hs (by simp) rfl
      | _ => exact hback hbefore
  | restored b cause =>
    obtain ⟨-, rfl⟩ := hbefore
    obtain rfl := htold.nobody rfl
    obtain rfl : batch = b := by simpa [backEntries] using hb
    exact .back cause (by simp) rfl
  | dismissed b cause =>
    obtain ⟨hne, hc, rfl⟩ := hbefore
    obtain rfl : batch = b := by simpa using hb
    exact .givenUp cause hc [] told (Ne.symm hne) (by simp) (by simp) (htold.all rfl hthrough) rfl
  | abandoned b cause =>
    obtain ⟨reason, stop, hc, hs, rfl⟩ := hbefore
    obtain rfl : batch = b := by
      obtain ⟨back, m, left, -, rfl⟩ := hs
      simpa [backEntries] using hb
    exact .givenUp reason hc stop told hs.returned_ne hs.not_concluded (by simp)
      (htold.all rfl hthrough) rfl
  | _ =>
    obtain rfl := hbefore
    simp at hb

/-- One of the three has happened, unless the batch is lost. -/
theorem Closes.accounted (h : Closes setup batch ending log) :
    (∃ completion, .concluded (.ok completion) ∈ log) ∨ returned log = batch ∨
        IsTold setup ending log ↔
      ¬ IsLost log ∧ (ending.tells → setup.channels.has setup.primary) := by
  cases h with
  | answered completion hl ht =>
    have hkept : ¬ IsLost log := by simp [IsLost, hl]
    have hanswered : .concluded (.ok completion) ∈ log := by simp [hl]
    exact iff_of_true (.inl ⟨completion, hanswered⟩) ⟨hkept, by simp [ht]⟩
  | back cause hl ht =>
    have hkept : ¬ IsLost log := by simp [IsLost, hl, backEntries]
    have hback : returned log = batch := by simp [hl]
    exact iff_of_true (.inr (.inl hback)) ⟨hkept, by simp [ht]⟩
  | lost cause stop hs hl ht =>
    have hlost : IsLost log := by
      obtain ⟨back, m, left, -, rfl⟩ := hs
      exact ⟨by simp [hl], m, cause, by simp [hl]⟩
    refine iff_of_false ?_ fun hnot => hnot.1 hlost
    rintro (⟨completion, hc⟩ | hback | htold)
    · simp [hl, hs.not_concluded] at hc
    · exact hs.returned_ne (by simpa [hl] using hback)
    · simp [IsTold, ht] at htold
  | givenUp cause hc tried told hne ho hl hn ht =>
    have hkept : ¬ IsLost log := by simp [IsLost, hl, Ne.symm hc, ho]
    constructor
    · rintro (⟨completion, hcomp⟩ | hback | htold)
      · simp [hl, ho] at hcomp
      · exact absurd (by simpa [hl] using hback) hne
      · exact ⟨hkept, fun _ => exists_find?_iff.mp (htold.2.imp fun _ h => h.1)⟩
    · intro hhas
      obtain ⟨channel, hchannel⟩ := exists_find?_iff.mpr (hhas.2 ht)
      have hall : ∀ k < channel.outputs.length, .noticed k ∈ log := fun k hk => by
        simp [hl, hn k (outputsOf_eq hchannel ▸ hk)]
      exact .inr (.inr ⟨ht, channel, hchannel, hall⟩)

/-- Of a lost batch the messages before the one that met the failure are back, and the rest is
gone. -/
theorem Closes.of_lost (h : Closes setup batch ending log) (hlost : IsLost log) :
    ending.tells = false ∧ ∃ cause stop, Stops batch cause stop ∧
      log = [.leased batch, .concluded (.error .cancelled)] ++ stop := by
  cases h with
  | lost cause stop hs hl ht => exact ⟨ht, cause, stop, hs, hl⟩
  | answered completion hl ht => simp [IsLost, hl] at hlost
  | back cause hl ht => simp [IsLost, hl, backEntries] at hlost
  | givenUp cause hc tried told hne ho hl hn ht => simp [IsLost, hl, Ne.symm hc, ho] at hlost

end BatchRun

namespace Relay
open KeyedLists

variable {σ : Type} [Store σ] [LawfulStore σ] {setup : Setup} {s₀ : σ} {policy : RetryPolicy}

/-- A run that is through with a batch has answered it, or put all of it back, or told the user that
it is given up, unless the batch is lost. What is back is in the list until somebody takes it. -/
theorem leased_batch_accounted_for (hs : LawfulStore.Sound s₀) (es : List Event) {i : Nat}
    {r : BatchRun} {batch : List Pending} {ending : BatchRun.Ending}
    (hr : (course setup s₀ policy es).2.2.runs[i]? = some r)
    (hb : .leased batch ∈ record i (course setup s₀ policy es).1)
    (hp : r.phase = .finished ending) :
    let last := course setup s₀ policy es
    let log := record i last.1
    let l := shelf r.ticket.user i (texts s₀ (Pending.listKey r.ticket.user)) last.1
    ((∃ completion, .concluded (.ok completion) ∈ log) ∨ BatchRun.returned log = batch ∨
        BatchRun.IsTold setup ending log ↔
      ¬ BatchRun.IsLost log ∧ (ending.tells → setup.channels.has setup.primary)) ∧
    (BatchRun.IsLost log → ending.tells = false ∧ ∃ cause stop, BatchRun.Stops batch cause stop ∧
      log = [.leased batch, .concluded (.error .cancelled)] ++ stop) ∧
    texts last.2.1 (Pending.listKey r.ticket.user) = l.map (·.text) ∧
    (BatchRun.returned log = batch → ownTexts l <:+ batch.map (·.encode) ∧
      (takenSince r.ticket.user i last.1 = false → ownTexts l = batch.map (·.encode))) := by
  intro last log l
  have ho := occurs_course setup s₀ policy es
  have hcloses : BatchRun.Closes setup batch ending log := ((ho.records i).1 hr).closes hp hb
  refine ⟨hcloses.accounted, hcloses.of_lost, ho.texts_eq_shelf hs .., fun hback => ?_⟩
  have hown := ho.own_suffix r.ticket.user i (texts s₀ (Pending.listKey r.ticket.user))
    fun {r'} hr' => congrArg (·.ticket.user) (Option.some.inj (hr'.symm.trans hr))
  rwa [show BatchRun.returned (record i last.1) = batch from hback] at hown

/-- A failed batch is put back as a whole. -/
def restoringPair : List Event := failingPair ++ [.run 0 (.access none), .run 0 (.access none)]

theorem restoringPair_accounted_for :
    let last := course spoken ({} : Memory) .standard restoringPair
    let batch : List Pending := [⟨"one", "m1", 5, "A"⟩, ⟨"two", "m2", 6, "A"⟩]
    last.2.2.runs[0]?.map (·.ticket.user) = some "u" ∧
      BatchRun.returned (record 0 last.1) = batch ∧
      texts last.2.1 (Pending.listKey "u") = (shelf "u" 0 [] last.1).map (·.text) ∧
      ownTexts (shelf "u" 0 [] last.1) = batch.map (·.encode) := by
  intro last batch
  have hfacts : last.2.2.runs[0]?.map (·.ticket.user) = some "u" ∧
      last.2.2.runs[0]?.bind (·.ending?) = some (.restored batch
        (.generation (.requestFailed "p" "down"))) ∧
      last.2.2.runs[0]?.any (·.result?.isSome) ∧ .leased batch ∈ record 0 last.1 ∧
      BatchRun.returned (record 0 last.1) = batch ∧ takenSince "u" 0 last.1 = false := by
    decide +kernel
  obtain ⟨hticket, hending, hthrough, hleased, hback, htaken⟩ := hfacts
  obtain ⟨r, hr, hu⟩ := Option.map_eq_some_iff.mp hticket
  rw [hr] at hending hthrough
  cases hp : r.phase with
  | finished ending =>
    have h := leased_batch_accounted_for trivial restoringPair hr hleased hp
    rw [hu] at h
    exact ⟨hticket, hback, h.2.2.1, (h.2.2.2 hback).2 htaken⟩
  | _ => simp [BatchRun.result?, hp] at hthrough

/-- Newer input calls a batch off, and the list does not take it back. -/
def losing : List Event :=
  accepting 0 ⟨"u", "chat", "A"⟩ "one" "m1" 5 ++ starting 0 ++ asking 0 ++
    [.notice "u", .run 0 (.generated (.error .cancelled)), .run 0 .release,
      .run 0 (.access (some (.unavailable "full")))] ++ returning 0 0 ++ [.timer (.settle 0 0)]

/-- The run is through and reports success. Its message is neither answered nor in the list, the
user is not told, and nothing is pending. -/
theorem losing_loses_batch :
    let last := course spoken ({} : Memory) .standard losing
    last.2.2.runs[0]?.bind (·.ending?) = some (.superseded [⟨"one", "m1", 5, "A"⟩]
        (.error (.store (.unavailable "full")))) ∧
      last.2.2.runs[0]?.bind (·.result?) = some (.ok ()) ∧
      record 0 last.1 = [.leased [⟨"one", "m1", 5, "A"⟩], .concluded (.error .cancelled),
        .attempted ⟨"one", "m1", 5, "A"⟩ (some (.unavailable "full"))] ∧
      waiting last.2.1 "u" = [] ∧ last.2.2.queue.due? (Ticket.dedupId "u") = none := by
  decide +kernel

end Relay
end ChatRelay
