import ChatRelay.Proofs.Settings.Reading
import Mathlib.Algebra.Order.Field.Rat
import Mathlib.Data.Rat.Floor
import Mathlib.Tactic.Linarith
import Mathlib.Tactic.Positivity
import Mathlib.Tactic.NormNum
import Mathlib.Tactic.Ring

/-!
# Delays between attempts

The delay after a failed attempt is computed in words of bounded width: the multiplier by a shift,
the product by a multiplication that stops at the longest span, the variation by one that can fail.
For the policies that settings give none of this shows. The limit lies below the longest span by
far, so what is stopped is capped anyway, and what is varied stays in range; the delay is the one of
exact arithmetic. The spread of the delays is then that of one product over the range of the factor.
-/

namespace ChatRelay.RetryPolicy
variable {p : RetryPolicy} {attempt : Nat} {jitter : Rat}

/-! ## Before the variation -/

/-- The delay before it is varied, in milliseconds, by exact arithmetic. -/
def exactMillis (p : RetryPolicy) (attempt : Nat) : Nat :=
  min (p.baseMillis * 2 ^ min (attempt - 1) maxDoublings) p.maxMillis

theorem toNat_shift : ∀ k < 17, ((1 : UInt32) <<< UInt32.ofNat k).toNat = 2 ^ k := by decide

theorem toNat_factor (attempt : Nat) :
    (factor attempt).toNat = 2 ^ min (attempt - 1) maxDoublings :=
  toNat_shift _ (Nat.lt_succ_of_le (Nat.min_le_right ..))

/-- A limit in words of milliseconds is out of reach of the longest span. -/
theorem limit_lt_longest (h : p.maxMillis < Numeral.values64) :
    (Span.ofMillis p.maxMillis).nanos < Span.longest.nanos := by
  simp only [Span.ofMillis, Span.longest, Numeral.values64] at h ⊢
  omega

/-- The product is stopped only where it is capped. -/
theorem nanos_capped (h : p.maxMillis < Numeral.values64) (attempt : Nat) :
    (p.capped attempt).nanos = p.exactMillis attempt * 1000000 := by
  have hlimit := limit_lt_longest h
  have hproduct : (Span.ofMillis p.baseMillis).nanos * (factor attempt).toNat =
      p.baseMillis * 2 ^ min (attempt - 1) maxDoublings * 1000000 := by
    rw [toNat_factor, Span.ofMillis, Nat.mul_right_comm]
  simp only [capped, Span.times, hproduct, exactMillis]
  simp only [Span.ofMillis] at hlimit ⊢
  omega

theorem exactMillis_le (p : RetryPolicy) (attempt : Nat) : p.exactMillis attempt ≤ p.maxMillis :=
  Nat.min_le_right ..

theorem exactMillis_mono {q : RetryPolicy} (hbase : p.baseMillis ≤ q.baseMillis)
    (hmax : p.maxMillis ≤ q.maxMillis) {later : Nat} (hlater : attempt ≤ later) :
    p.exactMillis attempt ≤ q.exactMillis later := by
  have hpower : 2 ^ min (attempt - 1) maxDoublings ≤ 2 ^ min (later - 1) maxDoublings :=
    Nat.pow_le_pow_right (by decide) (by omega)
  exact min_le_min (Nat.mul_le_mul hbase hpower) hmax

/-! ## The varied delay -/

/-- Varied by the greatest factor, a delay that is capped can still be told. -/
theorem scale?_capped (h : p.maxMillis < Numeral.values64) (hlow : leastJitter ≤ jitter)
    (hhigh : jitter ≤ greatestJitter) :
    (p.capped attempt).scale? jitter = some (p.exactMillis attempt * 1000000 * jitter) := by
  have hexact : (p.exactMillis attempt : Rat) ≤ Numeral.values64 :=
    Nat.cast_le.mpr ((p.exactMillis_le attempt).trans h.le)
  have hpositive : 0 ≤ jitter := le_trans (by norm_num [leastJitter]) hlow
  have hvaried : (p.exactMillis attempt * 1000000 * jitter : Rat) ≤
      Numeral.values64 * 1000000 * greatestJitter := by
    gcongr
  simp only [Span.scale?, nanos_capped h, Nat.cast_mul, Nat.cast_ofNat]
  rw [if_pos]
  refine ⟨by positivity, hvaried.trans_lt ?_⟩
  norm_num [greatestJitter, Numeral.values64]

theorem backoffNanos?_eq (h : p.maxMillis < Numeral.values64) (hlow : leastJitter ≤ jitter)
    (hhigh : jitter ≤ greatestJitter) : p.backoffNanos? attempt jitter =
      some (min (p.exactMillis attempt * jitter) p.maxMillis * 1000000) := by
  rw [backoffNanos?, nanos_capped h, scale?_capped h hlow hhigh]
  by_cases hzero : p.exactMillis attempt = 0
  · simp [hzero]
  · have hlimit : ((Span.ofMillis p.maxMillis).nanos : Rat) = p.maxMillis * 1000000 := by
      simp [Span.ofMillis]
    have hvaried : (p.exactMillis attempt * 1000000 * jitter : Rat) =
        p.exactMillis attempt * jitter * 1000000 := by ring
    rw [if_neg (by omega), Option.map_some, ← min_def, hlimit, hvaried,
      min_mul_of_nonneg _ _ (by norm_num)]

theorem backoff_eq (h : p.maxMillis < Numeral.values64) (hlow : leastJitter ≤ jitter)
    (hhigh : jitter ≤ greatestJitter) :
    p.backoff attempt jitter = min (p.exactMillis attempt * jitter) p.maxMillis := by
  rw [backoff, backoffNanos?_eq h hlow hhigh, Option.getD_some]
  exact mul_div_cancel_right₀ _ (by norm_num)

/-- The delay after a failed attempt, for every policy that settings give and every factor in range.
The multiplier is the power of two, the product is what exact arithmetic gives once it is capped,
and the varied delay can be told, so that the delay is the capped one times the factor, capped
again. It is no shorter than the least factor makes it and no longer than the greatest one does, nor
than the limit, and there is none only if there is none to vary. It does not get shorter with more
attempts, a longer first delay or a higher limit. -/
theorem backoff_bounded (h : p.IsConfigured) (attempt : Nat) (hlow : leastJitter ≤ jitter)
    (hhigh : jitter ≤ greatestJitter) :
    let c : Nat := min (p.baseMillis * 2 ^ min (attempt - 1) 16) p.maxMillis
    let delay := p.backoff attempt jitter
    (factor attempt).toNat = 2 ^ min (attempt - 1) 16 ∧
      (p.capped attempt).nanos = c * 1000000 ∧
      p.backoffNanos? attempt jitter = some (delay * 1000000) ∧
      delay = min (c * jitter) p.maxMillis ∧
      leastJitter * c ≤ delay ∧ delay ≤ p.maxMillis ∧ delay ≤ greatestJitter * c ∧
      (delay = 0 ↔ c = 0) ∧
      ∀ q : RetryPolicy, q.IsConfigured → p.baseMillis ≤ q.baseMillis →
        p.maxMillis ≤ q.maxMillis → ∀ later, attempt ≤ later →
          delay ≤ q.backoff later jitter := by
  intro c delay
  have hmax := (isConfigured_iff.mp h).2.2.2
  have hdelay : delay = min (c * jitter) p.maxMillis := backoff_eq hmax hlow hhigh
  have hc : (c : Rat) ≤ p.maxMillis := Nat.cast_le.mpr (p.exactMillis_le attempt)
  have hpositive : 0 < jitter := lt_of_lt_of_le (by norm_num [leastJitter]) hlow
  refine ⟨toNat_factor attempt, nanos_capped hmax attempt, ?told, hdelay, ?least, ?limit, ?greatest,
    ?zero, ?monotone⟩
  case told => rw [hdelay]; exact backoffNanos?_eq hmax hlow hhigh
  case least =>
    have hleast : leastJitter * c ≤ c * jitter := by
      rw [mul_comm]
      gcongr
    have hsmaller : leastJitter * (c : Rat) ≤ c :=
      mul_le_of_le_one_left (Nat.cast_nonneg c) (by norm_num [leastJitter])
    exact hdelay ▸ le_min hleast (hsmaller.trans hc)
  case limit => exact hdelay ▸ min_le_right _ _
  case greatest =>
    calc delay ≤ c * jitter := hdelay ▸ min_le_left _ _
      _ ≤ c * greatestJitter := by gcongr
      _ = greatestJitter * c := mul_comm ..
  case zero =>
    rw [hdelay]
    constructor
    · intro hzero
      by_contra hc0
      have hfirst : (0 : Rat) < c := Nat.cast_pos.mpr (Nat.pos_of_ne_zero hc0)
      exact (lt_min (mul_pos hfirst hpositive) (hfirst.trans_le hc)).ne' hzero
    · intro hzero
      simp [hzero]
  case monotone =>
    intro q hq hbase hlimit later hlater
    rw [hdelay, backoff_eq (isConfigured_iff.mp hq).2.2.2 hlow hhigh]
    have hexact : (c : Rat) ≤ q.exactMillis later :=
      Nat.cast_le.mpr (exactMillis_mono hbase hlimit hlater)
    exact min_le_min (by gcongr) (Nat.cast_le.mpr hlimit)

/-- A policy with the greatest limit. Its product outgrows the longest span. -/
def patient : RetryPolicy := ⟨3, 2 ^ 63, 2 ^ 64 - 1⟩

/-- After the last attempt that can be counted, the product is stopped and the delay is the limit;
it is longer than a standard one. -/
theorem backoff_patient :
    patient.IsConfigured ∧ RetryPolicy.standard.IsConfigured ∧
      (Span.ofMillis patient.baseMillis).times (factor (2 ^ 32 - 1)) = Span.longest ∧
      patient.backoff (2 ^ 32 - 1) greatestJitter = patient.maxMillis ∧
      RetryPolicy.standard.backoff 3 greatestJitter = 4800 ∧
      RetryPolicy.standard.backoff 3 greatestJitter ≤
        patient.backoff (2 ^ 32 - 1) greatestJitter := by
  have hpatient : patient.IsConfigured := isConfigured_iff.mpr (by decide)
  have hstandard : RetryPolicy.standard.IsConfigured := isConfigured_iff.mpr (by decide)
  have hrange : leastJitter ≤ greatestJitter := by norm_num [leastJitter, greatestJitter]
  obtain ⟨-, -, -, hlast, -⟩ := backoff_bounded hpatient (2 ^ 32 - 1) hrange le_rfl
  obtain ⟨-, -, -, hthird, -, -, -, -, hlonger⟩ := backoff_bounded hstandard 3 hrange le_rfl
  refine ⟨hpatient, hstandard, by decide, hlast.trans ?_, hthird.trans ?_,
    hlonger patient hpatient (by decide) (by decide) _ (by decide)⟩
  · norm_num [patient, greatestJitter]
  · norm_num [RetryPolicy.standard, greatestJitter]

/-! ## The spread of the delays -/

/-- The factors that are drawn; the greatest is not among them. -/
def IsDrawn (jitter : Rat) : Prop := leastJitter ≤ jitter ∧ jitter < greatestJitter

def backoffMicros (p : RetryPolicy) (attempt : Nat) (jitter : Rat) : Nat :=
  ⌊p.backoff attempt jitter * 1000⌋₊

theorem isDrawn_one : IsDrawn 1 := by
  constructor <;> norm_num [leastJitter, greatestJitter]

theorem cappedMillis_eq (h : p.maxMillis < Numeral.values64) (attempt : Nat) :
    p.cappedMillis attempt = p.exactMillis attempt := by
  rw [cappedMillis, nanos_capped h, Nat.mul_div_cancel _ (by decide)]

theorem backoffMicros_eq (h : p.maxMillis < Numeral.values64) (hjitter : IsDrawn jitter) :
    p.backoffMicros attempt jitter =
      min ⌊(p.exactMillis attempt : Rat) * 1000 * jitter⌋₊ (1000 * p.maxMillis) := by
  have hlimit : (p.maxMillis : Rat) * 1000 = (1000 * p.maxMillis : Nat) := by
    push_cast
    ring
  rw [backoffMicros, backoff_eq h hjitter.1 hjitter.2.le, min_mul_of_nonneg _ _ (by norm_num),
    Nat.floor_mono.map_min, hlimit, Nat.floor_natCast, mul_right_comm]

theorem spreadMicros_le (h : p.maxMillis < Numeral.values64) (attempt : Nat) :
    (p.spreadMicros attempt).1 ≤ (p.spreadMicros attempt).2 := by
  have hle := p.exactMillis_le attempt
  simp only [spreadMicros, cappedMillis_eq h]
  split_ifs <;> omega

/-- The spread of a delay that varies, without the case in which the limit cuts it off. -/
theorem spreadMicros_iff (h : p.maxMillis < Numeral.values64)
    (hpositive : p.exactMillis attempt ≠ 0) {n : Nat} :
    (p.spreadMicros attempt).1 ≤ n ∧ n ≤ (p.spreadMicros attempt).2 ↔
      800 * p.exactMillis attempt ≤ n ∧ n < 1200 * p.exactMillis attempt ∧
        n ≤ 1000 * p.maxMillis := by
  simp only [spreadMicros, cappedMillis_eq h, if_neg hpositive]
  split_ifs <;> dsimp only <;> omega

theorem cast_least (c : Nat) : ((800 * c : Nat) : Rat) = c * 1000 * leastJitter := by
  norm_num [leastJitter]
  ring

theorem cast_greatest (c : Nat) : ((1200 * c : Nat) : Rat) = c * 1000 * greatestJitter := by
  norm_num [greatestJitter]
  ring

theorem backoffMicros_within (h : p.maxMillis < Numeral.values64) (attempt : Nat)
    (hjitter : IsDrawn jitter) :
    (p.spreadMicros attempt).1 ≤ p.backoffMicros attempt jitter ∧
      p.backoffMicros attempt jitter ≤ (p.spreadMicros attempt).2 := by
  by_cases hzero : p.exactMillis attempt = 0
  · simp [backoffMicros_eq h hjitter, spreadMicros, cappedMillis_eq h, hzero]
  rw [spreadMicros_iff h hzero, backoffMicros_eq h hjitter]
  have hle := p.exactMillis_le attempt
  have hc : (0 : Rat) < p.exactMillis attempt := Nat.cast_pos.mpr (Nat.pos_of_ne_zero hzero)
  obtain ⟨hlow, hhigh⟩ := hjitter
  have hleast :
      800 * p.exactMillis attempt ≤ ⌊(p.exactMillis attempt : Rat) * 1000 * jitter⌋₊ := by
    apply Nat.le_floor
    rw [cast_least]
    gcongr
  have hgreatest :
      ⌊(p.exactMillis attempt : Rat) * 1000 * jitter⌋₊ < 1200 * p.exactMillis attempt := by
    rw [Nat.floor_lt' (by omega), cast_greatest]
    gcongr
  omega

/-- Every delay of the spread is met by the factor that makes it so long. -/
theorem exists_backoffMicros (h : p.maxMillis < Numeral.values64) {n : Nat}
    (hn : (p.spreadMicros attempt).1 ≤ n ∧ n ≤ (p.spreadMicros attempt).2) :
    ∃ jitter, IsDrawn jitter ∧ p.backoffMicros attempt jitter = n := by
  by_cases hzero : p.exactMillis attempt = 0
  · have hnone : n = 0 := by simpa [spreadMicros, cappedMillis_eq h, hzero] using hn
    exact ⟨1, isDrawn_one, by simp [backoffMicros_eq h isDrawn_one, hzero, hnone]⟩
  obtain ⟨hleast, hgreatest, hlimit⟩ := (spreadMicros_iff h hzero).mp hn
  have hc : (0 : Rat) < p.exactMillis attempt := Nat.cast_pos.mpr (Nat.pos_of_ne_zero hzero)
  have hdrawn : IsDrawn (n / (p.exactMillis attempt * 1000)) := by
    rw [IsDrawn, le_div_iff₀ (by positivity), div_lt_iff₀ (by positivity), mul_comm leastJitter,
      mul_comm greatestJitter, ← cast_least, ← cast_greatest]
    exact ⟨Nat.cast_le.mpr hleast, Nat.cast_lt.mpr hgreatest⟩
  refine ⟨_, hdrawn, ?_⟩
  rw [backoffMicros_eq h hdrawn, mul_div_cancel₀ _ (by positivity), Nat.floor_natCast]
  exact Nat.min_eq_left hlimit

/-- The delays that are met are those of the spread, all of them. -/
theorem exists_backoffMicros_iff (h : p.maxMillis < Numeral.values64) (attempt n : Nat) :
    (∃ jitter, IsDrawn jitter ∧ p.backoffMicros attempt jitter = n) ↔
      (p.spreadMicros attempt).1 ≤ n ∧ n ≤ (p.spreadMicros attempt).2 := by
  constructor
  · rintro ⟨jitter, hjitter, rfl⟩
    exact backoffMicros_within h attempt hjitter
  · exact exists_backoffMicros h

theorem forall_backoffMicros_iff (h : p.maxMillis < Numeral.values64) (attempt : Nat)
    {P : Nat → Prop} : (∀ jitter, IsDrawn jitter → P (p.backoffMicros attempt jitter)) ↔
      ∀ n, (p.spreadMicros attempt).1 ≤ n ∧ n ≤ (p.spreadMicros attempt).2 → P n := by
  simp only [← exists_backoffMicros_iff h]
  grind

theorem shareWithin_eq_all_iff (h : p.maxMillis < Numeral.values64) (attempt low high : Nat) :
    p.shareWithin attempt low high = .all ↔ ∀ jitter, IsDrawn jitter →
      low ≤ p.backoffMicros attempt jitter ∧ p.backoffMicros attempt jitter ≤ high := by
  have hspread := spreadMicros_le h attempt
  rw [shareWithin, forall_backoffMicros_iff h attempt (P := fun n => low ≤ n ∧ n ≤ high)]
  generalize p.spreadMicros attempt = spread at hspread ⊢
  obtain ⟨least, greatest⟩ := spread
  have hends : (∀ n, least ≤ n ∧ n ≤ greatest → low ≤ n ∧ n ≤ high) ↔
      low ≤ least ∧ greatest ≤ high :=
    ⟨fun hall => ⟨(hall _ ⟨le_rfl, hspread⟩).1, (hall _ ⟨hspread, le_rfl⟩).2⟩,
      fun hends n hn => ⟨hends.1.trans hn.1, hn.2.trans hends.2⟩⟩
  dsimp only at hspread ⊢
  rw [hends]
  split_ifs <;> simp_all

theorem shareWithin_eq_none_iff (h : p.maxMillis < Numeral.values64) (attempt : Nat)
    {low high : Nat} (hbounds : low ≤ high) :
    p.shareWithin attempt low high = .none ↔ ∀ jitter, IsDrawn jitter →
      ¬ (low ≤ p.backoffMicros attempt jitter ∧ p.backoffMicros attempt jitter ≤ high) := by
  have hspread := spreadMicros_le h attempt
  rw [shareWithin, forall_backoffMicros_iff h attempt (P := fun n => ¬ (low ≤ n ∧ n ≤ high))]
  generalize p.spreadMicros attempt = spread at hspread ⊢
  obtain ⟨least, greatest⟩ := spread
  have happart : (∀ n, least ≤ n ∧ n ≤ greatest → ¬ (low ≤ n ∧ n ≤ high)) ↔
      greatest < low ∨ high < least := by
    -- where the two ranges meet, they share the greater of their least members
    refine ⟨fun hnone => ?_, fun hapart n hn => by omega⟩
    have := hnone (max low least)
    omega
  dsimp only at hspread ⊢
  rw [happart]
  split_ifs <;> simp_all
  omega

/-- Only a delay of nothing does not vary. -/
theorem isConstant_iff (h : p.maxMillis < Numeral.values64) (attempt : Nat) :
    p.isConstant attempt ↔ ∀ jitter jitter', IsDrawn jitter → IsDrawn jitter' →
      p.backoff attempt jitter = p.backoff attempt jitter' := by
  rw [isConstant, decide_eq_true_iff, cappedMillis_eq h]
  constructor
  · intro hzero jitter jitter' hjitter hjitter'
    rw [backoff_eq h hjitter.1 hjitter.2.le, backoff_eq h hjitter'.1 hjitter'.2.le, hzero]
    simp
  · intro hconstant
    have hspread := spreadMicros_le h attempt
    obtain ⟨first, hfirst, hleast⟩ := exists_backoffMicros h ⟨le_rfl, hspread⟩
    obtain ⟨last, hlast, hgreatest⟩ := exists_backoffMicros h ⟨hspread, le_rfl⟩
    have hequal : (p.spreadMicros attempt).1 = (p.spreadMicros attempt).2 := by
      rw [← hleast, ← hgreatest, backoffMicros, hconstant first last hfirst hlast, backoffMicros]
    have hle := p.exactMillis_le attempt
    simp only [spreadMicros, cappedMillis_eq h] at hequal
    split_ifs at hequal <;> omega

end ChatRelay.RetryPolicy
