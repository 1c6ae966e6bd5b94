import ChatRelay.Tool.CurrentTime
import Mathlib.Data.List.Induction
import Mathlib.Data.List.TakeWhile

/-!
# Offsets from universal time

An offset is written as a sign, hours, and maybe a colon and minutes. Everything that is written so
is read as what it says. The other way round, what is read need not be written so: hours and minutes
are signed numerals for the reader, so that either may carry a second sign. Where neither does, the
reader takes the written offsets only, and none of its sums and products leaves the range of a word.
-/

namespace ChatRelay.CurrentTime
open Numeral

/-! ## How offsets are written -/

/-- Decimal digits, one or more, and the number they stand for. -/
inductive Decimal : List Char → Nat → Prop
  | digit {c : Char} (hc : c.isDigit) : Decimal [c] (digitValue c)
  | more {cs : List Char} {n : Nat} {c : Char} (h : Decimal cs n) (hc : c.isDigit) :
      Decimal (cs ++ [c]) (10 * n + digitValue c)

inductive SignedDecimal : List Char → Int → Prop
  | bare {cs : List Char} {n : Nat} (h : Decimal cs n) : SignedDecimal cs n
  | plus {cs : List Char} {n : Nat} (h : Decimal cs n) : SignedDecimal ('+' :: cs) n
  | minus {cs : List Char} {n : Nat} (h : Decimal cs n) : SignedDecimal ('-' :: cs) (-n)

/-- Numerals for hours and minutes with a colon between them, or one for hours alone. -/
inductive Clock (numeral : List Char → Int → Prop) : List Char → Int → Int → Prop
  | hours {cs : List Char} {h : Int} (hh : numeral cs h) : Clock numeral cs h 0
  | minutes {hs ms : List Char} {h m : Int} (hh : numeral hs h) (hm : numeral ms m) :
      Clock numeral (hs ++ ':' :: ms) h m

/-- The character of a sign, and the factor it stands for. -/
inductive Sign : Char → Int → Prop
  | plus : Sign '+' 1
  | minus : Sign '-' (-1)

/-- A text that, up to white space around it, is a sign with hours and minutes behind it. -/
def Signed (numeral : List Char → Int → Prop) (raw : String) (sign hours minutes : Int) : Prop :=
  ∃ c rest, (Text.trim raw).toList = c :: rest ∧ Sign c sign ∧ Clock numeral rest hours minutes

def Plain (cs : List Char) (v : Int) : Prop := ∃ n : Nat, Decimal cs n ∧ v = n

/-- The text says that local time is so many seconds ahead of universal time. -/
def Denotes (raw : String) (seconds : Int) : Prop :=
  ∃ sign hours minutes, Signed Plain raw sign hours minutes ∧ hours ≤ 14 ∧ minutes ≤ 59 ∧
    seconds = sign * (hours * 3600 + minutes * 60)

/-- A sign stands behind the first character or behind the first colon. -/
def HasInnerSign (raw : String) : Prop :=
  ∃ before c after v, (Text.trim raw).toList = before ++ c :: after ∧ Sign c v ∧
    (before.length = 1 ∨ ∃ first, ':' ∉ first ∧ before = first ++ [':'])

/-! ## Numerals -/

theorem Decimal.ne_nil {cs : List Char} {n : Nat} (h : Decimal cs n) : cs ≠ [] := by
  cases h <;> simp

theorem Decimal.isDigit {cs : List Char} {n : Nat} (h : Decimal cs n) : ∀ c ∈ cs, c.isDigit := by
  induction h with
  | digit hc => simpa using hc
  | more _ hc ih => simpa [or_imp, forall_and] using ⟨ih, hc⟩

theorem natural?_eq_some_iff {cs : List Char} {n : Nat} : natural? cs = some n ↔ Decimal cs n := by
  constructor
  · intro h
    simp only [natural?, Option.ite_none_left_eq_some, Option.some.injEq, Bool.or_eq_true,
      Bool.not_eq_true', not_or, List.isEmpty_iff, Bool.not_eq_false] at h
    obtain ⟨⟨hne, hall⟩, rfl⟩ := h
    induction cs using List.reverseRecOn with
    | nil => exact absurd rfl hne
    | append_singleton cs c ih =>
      rw [List.all_append, Bool.and_eq_true] at hall
      have hc : c.isDigit := by simpa using hall.2
      have hval : ofDigits 0 (cs ++ [c]) = 10 * ofDigits 0 cs + digitValue c := by simp [ofDigits]
      by_cases hcs : cs = []
      · subst hcs
        simpa [ofDigits] using Decimal.digit hc
      · exact hval ▸ .more (ih hcs hall.1) hc
  · intro h
    have hall : cs.all Char.isDigit = true := List.all_eq_true.mpr h.isDigit
    have hval : ofDigits 0 cs = n := by
      induction h with
      | digit hc => simp [ofDigits]
      | more h hc ih =>
        have := ih (List.all_eq_true.mpr h.isDigit)
        simp only [ofDigits, List.foldl_append, List.foldl_cons, List.foldl_nil] at this ⊢
        rw [this]
    simp [natural?, h.ne_nil, hall, hval]

theorem not_isDigit_of_sign {c : Char} {v : Int} (h : Sign c v) : ¬ c.isDigit := by
  cases h <;> decide

theorem signed?_eq_some_iff {bound : Nat} {cs : List Char} {v : Int} :
    signed? bound (.ofList cs) = some v ↔ SignedDecimal cs v ∧ -(bound : Int) ≤ v ∧ v < bound := by
  have hdigits {c : Char} {s : Int} {rest : List Char} {n : Nat} (hc : Sign c s) :
      ¬ Decimal (c :: rest) n := fun h => not_isDigit_of_sign hc (h.isDigit c List.mem_cons_self)
  simp only [signed?, String.toList_ofList, Option.filter_eq_some_iff, decide_eq_true_eq,
    Bool.and_eq_true]
  refine and_congr_left fun _ => ?_
  split
  · next rest =>
    simp only [Option.map_eq_some_iff, natural?_eq_some_iff]
    constructor
    · rintro ⟨n, hn, rfl⟩
      exact .plus hn
    · rintro (h | h)
      · exact absurd h (hdigits .plus)
      · exact ⟨_, h, rfl⟩
  · next rest =>
    simp only [Option.map_eq_some_iff, Option.bind_eq_bind, Option.bind_eq_some_iff,
      Option.pure_def, Option.some.injEq, natural?_eq_some_iff]
    constructor
    · rintro ⟨_, ⟨n, hn, rfl⟩, rfl⟩
      exact .minus hn
    · rintro (h | _ | h)
      · exact absurd h (hdigits .minus)
      · exact ⟨_, ⟨_, h, rfl⟩, rfl⟩
  · next hplus hminus =>
    simp only [Option.map_eq_some_iff, natural?_eq_some_iff]
    constructor
    · rintro ⟨n, hn, rfl⟩
      exact .bare hn
    · rintro (h | h | h)
      · exact ⟨_, h, rfl⟩
      · exact absurd rfl (hplus _)
      · exact absurd rfl (hminus _)

/-! ## Hours and minutes -/

theorem splitColon_of_notMem {cs : List Char} (h : ':' ∉ cs) : splitColon cs = (cs, ['0']) := by
  have hall : cs.dropWhile (· ≠ ':') = [] := by
    rw [List.dropWhile_eq_nil_iff]
    intro c hc
    simpa using fun heq : c = ':' => h (heq ▸ hc)
  rw [splitColon, hall]

theorem splitColon_append {hs ms : List Char} (h : ':' ∉ hs) :
    splitColon (hs ++ ':' :: ms) = (hs, ms) := by
  have hall : ∀ c ∈ hs, decide (c ≠ ':') = true := fun c hc => by
    simpa using fun heq : c = ':' => h (heq ▸ hc)
  rw [splitColon, List.dropWhile_append_of_pos hall, List.takeWhile_append_of_pos hall]
  simp

theorem SignedDecimal.colon_notMem {cs : List Char} {v : Int} (h : SignedDecimal cs v) :
    ':' ∉ cs := by
  have hdigits {ds : List Char} {n : Nat} (hd : Decimal ds n) : ':' ∉ ds :=
    fun hmem => absurd (hd.isDigit _ hmem) (by decide)
  cases h with
  | bare h => exact hdigits h
  | plus h => simpa using hdigits h
  | minus h => simpa using hdigits h

theorem signedDecimal_zero {v : Int} : SignedDecimal ['0'] v ↔ v = 0 := by
  have hzero : natural? ['0'] = some 0 := rfl
  constructor
  · rintro (h | _ | _)
    have := hzero.symm.trans (natural?_eq_some_iff.mpr h)
    simp_all
  · rintro rfl
    exact .bare (natural?_eq_some_iff.mp hzero)

/-- The reader takes apart what is written with a colon, and adds no minutes to what is not. -/
theorem clock_iff_splitColon {cs : List Char} {h m : Int} :
    Clock SignedDecimal cs h m ↔
      SignedDecimal (splitColon cs).1 h ∧ SignedDecimal (splitColon cs).2 m := by
  constructor
  · rintro (hh | ⟨hh, hm⟩)
    · rw [splitColon_of_notMem hh.colon_notMem]
      exact ⟨hh, signedDecimal_zero.mpr rfl⟩
    · rw [splitColon_append hh.colon_notMem]
      exact ⟨hh, hm⟩
  · rintro ⟨hh, hm⟩
    by_cases hcolon : ':' ∈ cs
    · obtain ⟨hs, ms, rfl, hnot⟩ := List.eq_append_cons_of_mem hcolon
      rw [splitColon_append hnot] at hh hm
      exact .minutes hh hm
    · rw [splitColon_of_notMem hcolon] at hh hm
      obtain rfl := signedDecimal_zero.mp hm
      exact .hours hh

/-- The sum of the parts with its sign, as a machine of 32 bits reckons it. -/
def total (sign hours minutes : Int) : Int :=
  word (sign * word (word (hours * 3600) + word (minutes * 60)))

/-- What the reader makes of the text behind the sign. -/
def behindSign? (sign : Int) (rest : List Char) : Option Int :=
  (signed? values31 (.ofList (splitColon rest).1)).bind fun hours =>
    (signed? values31 (.ofList (splitColon rest).2)).bind fun minutes =>
      if 14 < hours ∨ 59 < minutes then none
      else if (total sign hours minutes).natAbs < 86400 then some (total sign hours minutes)
      else none

theorem offset?_eq (raw : String) :
    offset? raw = match (Text.trim raw).toList with
      | '+' :: rest => behindSign? 1 rest
      | '-' :: rest => behindSign? (-1) rest
      | _ => none := by
  rw [offset?]
  generalize (Text.trim raw).toList = cs
  cases cs with
  | nil => rfl
  | cons c rest =>
    by_cases hplus : c = '+'
    · subst hplus
      rfl
    · by_cases hminus : c = '-'
      · subst hminus
        rfl
      · simp [hplus, hminus]

/-- Numerals that the reader takes, as they stand in words. -/
structure Taken (hours minutes : Int) : Prop where
  hours_lower : -(values31 : Int) ≤ hours
  hours_upper : hours ≤ 14
  minutes_lower : -(values31 : Int) ≤ minutes
  minutes_upper : minutes ≤ 59

theorem behindSign?_eq_some_iff {sign : Int} {rest : List Char} {seconds : Int} :
    behindSign? sign rest = some seconds ↔
      ∃ hours minutes, Clock SignedDecimal rest hours minutes ∧ Taken hours minutes ∧
        total sign hours minutes = seconds ∧ seconds.natAbs < 86400 := by
  simp only [behindSign?, Option.bind_eq_some_iff, signed?_eq_some_iff, clock_iff_splitColon]
  constructor
  · rintro ⟨hours, ⟨hh, hlow, -⟩, minutes, ⟨hm, mlow, -⟩, h⟩
    split at h
    · cases h
    · next hupper =>
      split at h
      · next hday =>
        obtain rfl := Option.some.inj h
        exact ⟨hours, minutes, ⟨hh, hm⟩, ⟨hlow, by omega, mlow, by omega⟩, rfl, hday⟩
      · cases h
  · rintro ⟨hours, minutes, ⟨hh, hm⟩, ht, rfl, hday⟩
    have hupper : ¬ (14 < hours ∨ 59 < minutes) := by
      have := ht.hours_upper
      have := ht.minutes_upper
      omega
    refine ⟨hours, ⟨hh, ht.hours_lower, ?_⟩, minutes, ⟨hm, ht.minutes_lower, ?_⟩, ?_⟩
    · exact Int.lt_of_le_of_lt ht.hours_upper (by decide)
    · exact Int.lt_of_le_of_lt ht.minutes_upper (by decide)
    · rw [if_neg hupper, if_pos hday]

/-- What the reader takes for an offset, and what it makes of it. -/
theorem offset?_eq_some_iff {raw : String} {seconds : Int} :
    offset? raw = some seconds ↔
      ∃ sign hours minutes, Signed SignedDecimal raw sign hours minutes ∧ Taken hours minutes ∧
        total sign hours minutes = seconds ∧ seconds.natAbs < 86400 := by
  rw [offset?_eq]
  constructor
  · intro h
    split at h
    · next rest hraw =>
      obtain ⟨hours, minutes, hclock, h⟩ := behindSign?_eq_some_iff.mp h
      exact ⟨1, hours, minutes, ⟨'+', rest, hraw, .plus, hclock⟩, h⟩
    · next rest hraw =>
      obtain ⟨hours, minutes, hclock, h⟩ := behindSign?_eq_some_iff.mp h
      exact ⟨-1, hours, minutes, ⟨'-', rest, hraw, .minus, hclock⟩, h⟩
    · cases h
  · rintro ⟨sign, hours, minutes, ⟨c, rest, hraw, hsign, hclock⟩, h⟩
    rw [hraw]
    cases hsign with
    | plus => exact behindSign?_eq_some_iff.mpr ⟨hours, minutes, hclock, h⟩
    | minus => exact behindSign?_eq_some_iff.mpr ⟨hours, minutes, hclock, h⟩

/-! ## One sign only -/

theorem Decimal.plain {cs : List Char} {n : Nat} (h : Decimal cs n) : Plain cs n := ⟨n, h, rfl⟩

theorem Plain.signedDecimal {cs : List Char} {v : Int} (h : Plain cs v) : SignedDecimal cs v := by
  obtain ⟨n, h, rfl⟩ := h
  exact .bare h

/-- A numeral with no sign in front has digits only. -/
theorem SignedDecimal.plain {cs : List Char} {v : Int} (h : SignedDecimal cs v)
    (hsign : ∀ c s rest, cs = c :: rest → ¬ Sign c s) : Plain cs v := by
  cases h with
  | bare h => exact h.plain
  | plus h => exact absurd .plus (hsign _ _ _ rfl)
  | minus h => exact absurd .minus (hsign _ _ _ rfl)

theorem Clock.imp {p q : List Char → Int → Prop} (hpq : ∀ cs v, p cs v → q cs v)
    {cs : List Char} {h m : Int} (hclock : Clock p cs h m) : Clock q cs h m := by
  cases hclock with
  | hours hh => exact .hours (hpq _ _ hh)
  | minutes hh hm => exact .minutes (hpq _ _ hh) (hpq _ _ hm)

theorem Clock.bounds {cs : List Char} {h m : Int} (hclock : Clock Plain cs h m) :
    0 ≤ h ∧ 0 ≤ m := by
  cases hclock with
  | hours hh =>
    obtain ⟨n, -, rfl⟩ := hh
    omega
  | minutes hh hm =>
    obtain ⟨n, -, rfl⟩ := hh
    obtain ⟨k, -, rfl⟩ := hm
    omega

/-- Without a second sign, what the reader takes for hours and minutes is written in digits. -/
theorem Signed.plain {raw : String} {sign hours minutes : Int}
    (h : Signed SignedDecimal raw sign hours minutes) (hinner : ¬ HasInnerSign raw) :
    Signed Plain raw sign hours minutes := by
  obtain ⟨c, rest, hraw, hsign, hclock⟩ := h
  refine ⟨c, rest, hraw, hsign, ?_⟩
  have hno (before : List Char) (d : Char) (after : List Char) (s : Int)
      (heq : c :: rest = before ++ d :: after)
      (hplace : before.length = 1 ∨ ∃ first, ':' ∉ first ∧ before = first ++ [':']) : ¬ Sign d s :=
    fun hd => hinner ⟨before, d, after, s, hraw.trans heq, hd, hplace⟩
  have hc : ':' ∉ [c] := by cases hsign <;> decide
  cases hclock with
  | hours hh =>
    refine .hours (hh.plain fun d s after heq => ?_)
    exact hno [c] d after s (by rw [heq]; rfl) (.inl rfl)
  | @minutes hs ms _ _ hh hm =>
    have hcolon : ':' ∉ c :: hs := by
      rw [← List.singleton_append, List.mem_append]
      exact not_or.mpr ⟨hc, hh.colon_notMem⟩
    refine .minutes (hh.plain fun d s after heq => ?_) (hm.plain fun d s after heq => ?_)
    · exact hno [c] d (after ++ ':' :: ms) s (by rw [heq]; rfl) (.inl rfl)
    · exact hno (c :: hs ++ [':']) d after s (by simp [heq]) (.inr ⟨_, hcolon, rfl⟩)

def Fits (v : Int) : Prop := -(values31 : Int) ≤ v ∧ v < values31

theorem word_of_fits {v : Int} (h : Fits v) : word v = v := by
  simp only [Fits, values31] at h
  apply Int.bmod_eq_of_le <;> simp only [values32] <;> omega

/-- Each product and sum on the way to the offset is the value of a word. -/
structure NoOverflow (sign hours minutes : Int) : Prop where
  inHours : Fits (hours * 3600)
  inMinutes : Fits (minutes * 60)
  sum : Fits (hours * 3600 + minutes * 60)
  signed : Fits (sign * (hours * 3600 + minutes * 60))

theorem NoOverflow.total_eq {sign hours minutes : Int} (h : NoOverflow sign hours minutes) :
    total sign hours minutes = sign * (hours * 3600 + minutes * 60) := by
  rw [total, word_of_fits h.inHours, word_of_fits h.inMinutes, word_of_fits h.sum,
    word_of_fits h.signed]

theorem Signed.sign_eq {numeral : List Char → Int → Prop} {raw : String}
    {sign hours minutes : Int} (h : Signed numeral raw sign hours minutes) :
    sign = 1 ∨ sign = -1 := by
  obtain ⟨c, rest, -, hsign, -⟩ := h
  cases hsign <;> simp

/-- Where hours and minutes have their upper bounds, a sum within a day has all its parts within
two. -/
theorem noOverflow_of_day {sign hours minutes : Int} (hsign : sign = 1 ∨ sign = -1)
    (hh : hours ≤ 14) (hm : minutes ≤ 59) (hday : (hours * 3600 + minutes * 60).natAbs < 86400) :
    NoOverflow sign hours minutes := by
  constructor <;> rcases hsign with rfl | rfl <;> simp only [Fits, values31] <;> omega

/-- A reading within a day is taken for what it says. -/
theorem offset?_of_signed {raw : String} {sign hours minutes : Int}
    (h : Signed SignedDecimal raw sign hours minutes) (hh : hours ≤ 14) (hm : minutes ≤ 59)
    (hday : (hours * 3600 + minutes * 60).natAbs < 86400) :
    offset? raw = some (sign * (hours * 3600 + minutes * 60)) := by
  have hfits := noOverflow_of_day h.sign_eq hh hm hday
  refine offset?_eq_some_iff.mpr ⟨sign, hours, minutes, h, ?_, hfits.total_eq, ?_⟩
  · exact ⟨by simp only [values31]; omega, hh, by simp only [values31]; omega, hm⟩
  · rcases h.sign_eq with rfl | rfl <;> omega

theorem Signed.bounds {raw : String} {sign hours minutes : Int}
    (h : Signed Plain raw sign hours minutes) (hh : hours ≤ 14) (hm : minutes ≤ 59) :
    0 ≤ hours ∧ 0 ≤ minutes ∧ (hours * 3600 + minutes * 60).natAbs ≤ 14 * 3600 + 59 * 60 := by
  obtain ⟨c, rest, -, -, hclock⟩ := h
  have := hclock.bounds
  omega

theorem Signed.of_plain {raw : String} {sign hours minutes : Int}
    (h : Signed Plain raw sign hours minutes) : Signed SignedDecimal raw sign hours minutes := by
  obtain ⟨c, rest, hraw, hsign, hclock⟩ := h
  exact ⟨c, rest, hraw, hsign, hclock.imp fun _ _ => Plain.signedDecimal⟩

theorem Denotes.offset?_eq {raw : String} {seconds : Int} (h : Denotes raw seconds) :
    offset? raw = some seconds := by
  obtain ⟨sign, hours, minutes, hs, hh, hm, rfl⟩ := h
  have := (hs.bounds hh hm).2.2
  exact offset?_of_signed hs.of_plain hh hm (by omega)

/-- An offset is less than a quarter of an hour short of fifteen hours, on the side of its sign. -/
theorem Denotes.range {raw : String} {seconds : Int} (h : Denotes raw seconds) :
    seconds.natAbs ≤ 14 * 3600 + 59 * 60 ∧
    ((Text.trim raw).toList.head? = some '+' → 0 ≤ seconds) ∧
    ((Text.trim raw).toList.head? = some '-' → seconds ≤ 0) := by
  obtain ⟨sign, hours, minutes, hs, hh, hm, rfl⟩ := h
  have := hs.bounds hh hm
  obtain ⟨c, rest, hraw, hsign, -⟩ := hs
  rw [hraw]
  cases hsign with
  | plus =>
    refine ⟨by omega, fun _ => by omega, fun h => ?_⟩
    exact absurd (Option.some.inj h) (by decide)
  | minus =>
    refine ⟨by omega, fun h => ?_, fun _ => by omega⟩
    exact absurd (Option.some.inj h) (by decide)

theorem Plain.sign_notMem {cs : List Char} {v : Int} (h : Plain cs v) {c : Char} {s : Int}
    (hc : Sign c s) : c ∉ cs := by
  obtain ⟨n, h, -⟩ := h
  exact fun hmem => not_isDigit_of_sign hc (h.isDigit c hmem)

theorem Clock.sign_notMem {cs : List Char} {hours minutes : Int}
    (h : Clock Plain cs hours minutes) {c : Char} {s : Int} (hc : Sign c s) : c ∉ cs := by
  cases h with
  | hours hh => exact hh.sign_notMem hc
  | minutes hh hm =>
    simp only [List.mem_append, List.mem_cons, not_or]
    exact ⟨hh.sign_notMem hc, by cases hc <;> decide, hm.sign_notMem hc⟩

/-- A text with a single sign, which it begins with, has no inner one. -/
theorem not_hasInnerSign {raw : String} {c : Char} {rest : List Char}
    (hraw : (Text.trim raw).toList = c :: rest) (hrest : ∀ d s, Sign d s → d ∉ rest) :
    ¬ HasInnerSign raw := by
  rintro ⟨before, d, after, s, heq, hsign, hplace⟩
  have hne : before ≠ [] := by
    rcases hplace with h | ⟨first, -, rfl⟩
    · exact List.ne_nil_of_length_pos (by omega)
    · simp
  obtain ⟨b, bs, rfl⟩ := List.exists_cons_of_ne_nil hne
  obtain ⟨-, rfl⟩ := List.cons.inj (hraw.symm.trans heq)
  exact hrest d s hsign (by simp)

theorem Denotes.not_hasInnerSign {raw : String} {seconds : Int} (h : Denotes raw seconds) :
    ¬ HasInnerSign raw := by
  obtain ⟨sign, hours, minutes, ⟨c, rest, hraw, hsign, hclock⟩, -⟩ := h
  exact CurrentTime.not_hasInnerSign hraw fun d s hd => hclock.sign_notMem hd

theorem denotes_of_offset? {raw : String} {seconds : Int} (h : offset? raw = some seconds)
    (hinner : ¬ HasInnerSign raw) : Denotes raw seconds := by
  obtain ⟨sign, hours, minutes, hs, ht, rfl, -⟩ := offset?_eq_some_iff.mp h
  have hplain := hs.plain hinner
  have := hplain.bounds ht.hours_upper ht.minutes_upper
  have hfits := noOverflow_of_day hs.sign_eq ht.hours_upper ht.minutes_upper (by omega)
  exact ⟨sign, hours, minutes, hplain, ht.hours_upper, ht.minutes_upper, hfits.total_eq⟩

/-! ## The tool -/

theorem run_of_offset? {params : Json} {raw : String}
    (h : Tool.optionalString params "utc_offset" = some raw) (clock : WallClock) :
    (tool.run clock params).result =
      match offset? raw with
      | some seconds => .ok (clock seconds)
      | none =>
        .error (.invalidParameters name ("bad utc_offset '" ++ raw ++ "', expected +HH:MM")) := by
  simp only [tool, requestedOffset, h]
  cases offset? raw <;> rfl

/-- Offsets are read as they are written, and the tool tells the time there. Unless a second sign
stands before the hours or the minutes, nothing else is taken for an offset, the tool refuses it,
and the reader's sums and products are those of whole numbers. A second sign does not stop the
reader: it takes the numeral with its sign. -/
theorem offset?_exact (raw : String) :
    (∀ seconds, Denotes raw seconds →
      offset? raw = some seconds ∧ ¬ HasInnerSign raw ∧ seconds.natAbs ≤ 14 * 3600 + 59 * 60 ∧
      ((Text.trim raw).toList.head? = some '+' → 0 ≤ seconds) ∧
      ((Text.trim raw).toList.head? = some '-' → seconds ≤ 0)) ∧
    (¬ HasInnerSign raw →
      (∀ seconds, offset? raw = some seconds → Denotes raw seconds) ∧
      ∀ sign hours minutes, Signed SignedDecimal raw sign hours minutes → Taken hours minutes →
        NoOverflow sign hours minutes) ∧
    (∀ clock params, Tool.optionalString params "utc_offset" = some raw →
      (∀ seconds, Denotes raw seconds → (tool.run clock params).result = .ok (clock seconds)) ∧
      (¬ HasInnerSign raw → (∀ seconds, ¬ Denotes raw seconds) →
        (tool.run clock params).result =
          .error (.invalidParameters name
            ("bad utc_offset '" ++ raw ++ "', expected +HH:MM")))) ∧
    ∀ sign hours minutes, Signed SignedDecimal raw sign hours minutes → hours ≤ 14 →
      minutes ≤ 59 → (hours * 3600 + minutes * 60).natAbs < 86400 →
      offset? raw = some (sign * (hours * 3600 + minutes * 60)) := by
  refine ⟨fun seconds h => ⟨h.offset?_eq, h.not_hasInnerSign, h.range⟩, fun hinner => ?_, ?_, ?_⟩
  · refine ⟨fun seconds h => denotes_of_offset? h hinner, fun sign hours minutes hs ht => ?_⟩
    have := (hs.plain hinner).bounds ht.hours_upper ht.minutes_upper
    exact noOverflow_of_day hs.sign_eq ht.hours_upper ht.minutes_upper (by omega)
  · intro clock params hparams
    rw [run_of_offset? hparams clock]
    refine ⟨fun seconds h => by rw [h.offset?_eq], fun hinner hnone => ?_⟩
    cases hoffset : offset? raw with
    | none => rfl
    | some seconds => exact absurd (denotes_of_offset? hoffset hinner) (hnone seconds)
  · exact fun sign hours minutes => offset?_of_signed

def asking (raw : String) : Json := .object [("utc_offset", .string raw)]

/-- Half an hour behind universal time is read and told; fifteen hours ahead of it are refused. -/
theorem halfHour_exact :
    Denotes "-0:30" (-1800) ∧ ¬ HasInnerSign "-0:30" ∧ offset? "-0:30" = some (-1800) ∧
    NoOverflow (-1) 0 30 ∧ (tool.run integerText (asking "-0:30")).result = .ok "-1800" ∧
    ¬ HasInnerSign "+15:00" ∧ (∀ seconds, ¬ Denotes "+15:00" seconds) ∧
    (tool.run integerText (asking "+15:00")).result =
      .error (.invalidParameters name
        ("bad utc_offset '" ++ "+15:00" ++ "', expected +HH:MM")) := by
  have hclock : Clock Plain (['0'] ++ ':' :: ['3', '0']) 0 30 :=
    .minutes ⟨0, natural?_eq_some_iff.mp rfl, rfl⟩ ⟨30, natural?_eq_some_iff.mp rfl, rfl⟩
  have hsigned : Signed Plain "-0:30" (-1) 0 30 :=
    ⟨'-', ['0', ':', '3', '0'], by decide +kernel, .minus, hclock⟩
  have hhalf : Denotes "-0:30" (-1800) :=
    ⟨-1, 0, 30, hsigned, by decide, by decide, by decide⟩
  obtain ⟨hread, hplain, htool, hsome⟩ := offset?_exact "-0:30"
  obtain ⟨-, hinner, -⟩ := hread _ hhalf
  have htaken : Taken 0 30 := by constructor <;> decide
  have hfifteen : ¬ HasInnerSign "+15:00" := by
    have hraw : (Text.trim "+15:00").toList = '+' :: ['1', '5', ':', '0', '0'] := by decide +kernel
    exact not_hasInnerSign hraw fun d s hd => by cases hd <;> decide
  have hnone : ∀ seconds, ¬ Denotes "+15:00" seconds := by
    intro seconds h
    have : offset? "+15:00" = none := by decide +kernel
    exact absurd (this.symm.trans h.offset?_eq) (by simp)
  obtain ⟨-, -, htool', -⟩ := offset?_exact "+15:00"
  have htold : (tool.run integerText (asking "-0:30")).result = .ok "-1800" := by
    rw [(htool integerText (asking "-0:30") rfl).1 _ hhalf]
    decide +kernel
  exact ⟨hhalf, hinner, hsome _ _ _ hsigned.of_plain (by decide) (by decide) (by decide),
    (hplain hinner).2 _ _ _ hsigned.of_plain htaken, htold, hfifteen, hnone,
    (htool' integerText (asking "+15:00") rfl).2 hfifteen hnone⟩

/-- With a second sign, five hours behind universal time pass for an offset ahead of it. -/
theorem plusMinus_taken :
    requestedOffset (asking "+-5") = .ok (-18000) ∧ ∀ seconds, ¬ Denotes "+-5" seconds := by
  refine ⟨by decide +kernel, fun seconds h => h.not_hasInnerSign ?_⟩
  exact ⟨['+'], '-', ['5'], -1, by decide +kernel, .minus, .inl rfl⟩

end ChatRelay.CurrentTime
