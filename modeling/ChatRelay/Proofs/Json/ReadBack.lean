import ChatRelay.Json.Printer
import ChatRelay.Json.Typed
import Mathlib.Tactic.IntervalCases
import Mathlib.Tactic.SplitIfs

/-!
# Reading back what was written

A string or a whole number that stands at the front of a text in compact form is read as the value
it was written from, and the rest of the text is left alone. The members of a record are then read
one field at a time.
-/

namespace ChatRelay.Json

/-! ## Steps of readers -/

section Steps
variable {α β : Type}

@[simp] theorem pure_apply (a : α) (cs : List Char) : (pure a : Reader α) cs = .ok (a, cs) := rfl

@[simp] theorem bind_apply (read : Reader α) (f : α → Reader β) (cs : List Char) :
    (read >>= f) cs = (read cs).bind fun p => f p.1 p.2 := rfl

@[simp] theorem map_apply (f : α → β) (read : Reader α) (cs : List Char) :
    (f <$> read) cs = (read cs).bind fun p => .ok (f p.1, p.2) := rfl

@[simp] theorem get_apply (cs : List Char) : (get : Reader (List Char)) cs = .ok (cs, cs) := rfl

@[simp] theorem lift_apply (outcome : Except Fault α) (cs : List Char) :
    (liftM outcome : Reader α) cs = outcome.bind fun a => .ok (a, cs) := rfl

@[simp] theorem ok_bind {ε : Type} (a : α) (f : α → Except ε β) :
    (Except.ok a : Except ε α).bind f = f a := rfl

@[simp] theorem ok_bind' {ε : Type} (a : α) (f : α → Except ε β) :
    ((Except.ok a : Except ε α) >>= f) = f a := rfl

@[simp] theorem pure_eq_ok {ε : Type} (a : α) : (pure a : Except ε α) = .ok a := rfl

end Steps

@[simp] theorem peek_cons (c : Char) (cs : List Char) : peek (c :: cs) = .ok (some c, c :: cs) :=
  rfl

@[simp] theorem eat_cons (c : Char) (cs : List Char) : eat (c :: cs) = .ok ((), cs) := rfl

@[simp] theorem next_cons (c : Char) (cs : List Char) : next (c :: cs) = .ok (some c, cs) := rfl

theorem peekToken_cons {c : Char} (h : isSpace c = false) (cs : List Char) :
    peekToken (c :: cs) = .ok (some c, c :: cs) := by
  have hd : (c :: cs).dropWhile isSpace = c :: cs := by simp [h]
  change peek ((c :: cs).dropWhile isSpace) = _
  rw [hd, peek_cons]

/-! ## Strings -/

theorem hexValue_hexDigit : ∀ n < 16, hexValue? (hexDigit n) = some n := by decide

theorem unicodeEscape_hexQuad {n : Nat} (hn : n < 0x20) (rest : List Char) :
    unicodeEscape (hexQuad n ++ rest) = .ok (Char.ofNat n, rest) := by
  have hq : hexQuad? (hexQuad n ++ rest) = .ok (n, rest) := by
    have hm (k : Nat) : hexValue? (hexDigit k) = some (k % 16) := by
      have := hexValue_hexDigit (k % 16) (Nat.mod_lt _ (by omega))
      rwa [hexDigit, Nat.mod_mod] at this
    simp only [hexQuad, List.cons_append, List.nil_append, hexQuad?, hm]
    congr 2
    omega
  have ht : isTrailing n = false := by simp [isTrailing]; omega
  have hl : isLeading n = false := by simp [isLeading]; omega
  simp [unicodeEscape, hq, ht, hl]

/-- An escaped character is read as the character, at the cost of one unit of fuel. -/
theorem stringBody_escapeChar (c : Char) (fuel : Nat) (read rest : List Char) :
    stringBody unicodeEscape (fuel + 1) read (escapeChar c ++ rest) =
      stringBody unicodeEscape fuel (c :: read) rest := by
  unfold escapeChar
  split_ifs with h1 h2 h3 h4 h5 h6 h7 h8
  all_goals try
    simp only [beq_iff_eq] at *
    subst c
    simp [stringBody, escape]
  · have := unicodeEscape_hexQuad h8 rest
    rw [Char.ofNat_toNat] at this
    simp [stringBody, escape, this]
  · simp only [beq_iff_eq] at h1 h2
    have h8' : ¬ c.toNat < 32 := h8
    simp [stringBody, h1, h2, h8']

theorem stringBody_flatMap (cs read rest : List Char) {fuel : Nat} (hf : cs.length < fuel) :
    stringBody unicodeEscape fuel read (cs.flatMap escapeChar ++ '"' :: rest) =
      .ok (read.reverse ++ cs, rest) := by
  induction cs generalizing fuel read with
  | nil =>
    obtain ⟨fuel, rfl⟩ : ∃ k, fuel = k + 1 := ⟨fuel - 1, by simp at hf; omega⟩
    simp [stringBody]
  | cons c cs ih =>
    obtain ⟨fuel, rfl⟩ : ∃ k, fuel = k + 1 := ⟨fuel - 1, by simp at hf; omega⟩
    rw [List.flatMap_cons, List.append_assoc, stringBody_escapeChar,
      ih (c :: read) (by simpa using hf)]
    simp

theorem escapeChar_length (c : Char) : 1 ≤ (escapeChar c).length := by
  unfold escapeChar
  split_ifs <;> simp

theorem length_le_flatMap (cs : List Char) : cs.length ≤ (cs.flatMap escapeChar).length := by
  induction cs with
  | nil => simp
  | cons c cs ih =>
    have := escapeChar_length c
    simp only [List.flatMap_cons, List.length_append, List.length_cons]
    omega

/-- A string is read back once its opening quote has been taken. -/
theorem restOfString_written (s : String) (rest : List Char) :
    restOfString (s.toList.flatMap escapeChar ++ '"' :: rest) = .ok (s, rest) := by
  have hl := length_le_flatMap s.toList
  have hf : s.toList.length < (s.toList.flatMap escapeChar ++ '"' :: rest).length := by
    rw [List.length_append, List.length_cons]
    omega
  unfold restOfString
  rw [stringBody_flatMap _ _ _ hf]
  simp

theorem readStringAs_written (expected s : String) (rest : List Char) :
    readStringAs expected (stringChars s ++ rest) = .ok (s, rest) := by
  have hq : isSpace '"' = false := by decide
  simp [readStringAs, stringChars, peekToken_cons hq, restOfString_written]

theorem readString_written (s : String) (rest : List Char) :
    readString (stringChars s ++ rest) = .ok (s, rest) := readStringAs_written _ s rest

/-! ## Whole numbers -/

open Numeral

theorem digitChar_isDigit : ∀ d < 10, (Numeral.digitChar d).isDigit = true := by decide

theorem digitValue_digitChar : ∀ d < 10, digitValue (Numeral.digitChar d) = d := by decide

theorem digitChar_eq_zero : ∀ d < 10, Numeral.digitChar d = '0' → d = 0 := by decide

theorem ofDigits_append (n : Nat) (cs ds : List Char) :
    ofDigits n (cs ++ ds) = ofDigits (ofDigits n cs) ds := by simp [ofDigits]

theorem ofDigits_digits (n : Nat) : ofDigits 0 (Numeral.digits n) = n := by
  induction n using Nat.strongRecOn with
  | ind n ih =>
    rw [Numeral.digits]
    split
    · next h => simp [ofDigits, digitValue_digitChar n h]
    · next h =>
      rw [ofDigits_append, ih (n / 10) (by omega)]
      simp only [ofDigits, List.foldl_cons, List.foldl_nil,
        digitValue_digitChar _ (Nat.mod_lt n (by omega : 0 < 10))]
      omega

theorem isDigit_of_mem_digits (n : Nat) : ∀ c ∈ Numeral.digits n, c.isDigit = true := by
  induction n using Nat.strongRecOn with
  | ind n ih =>
    rw [Numeral.digits]
    split
    · next h =>
      intro c hc
      rw [List.mem_singleton] at hc
      exact hc ▸ digitChar_isDigit n h
    · next h =>
      intro c hc
      rcases List.mem_append.mp hc with hc | hc
      · exact ih (n / 10) (by omega) c hc
      · rw [List.mem_singleton] at hc
        exact hc ▸ digitChar_isDigit _ (Nat.mod_lt n (by omega))

/-- A numeral is not empty, and only the numeral of zero is led by a zero. -/
theorem digits_eq_cons (n : Nat) :
    ∃ c ds, Numeral.digits n = c :: ds ∧ (c = '0' → n = 0) ∧ (n = 0 → ds = []) := by
  induction n using Nat.strongRecOn with
  | ind n ih =>
    rw [Numeral.digits]
    split
    · next h => exact ⟨_, [], rfl, digitChar_eq_zero n h, fun _ => rfl⟩
    · next h =>
      obtain ⟨c, ds, hc, hz, -⟩ := ih (n / 10) (by omega)
      refine ⟨c, ds ++ [Numeral.digitChar (n % 10)], by rw [hc, List.cons_append], ?_, ?_⟩
      · intro h0
        have := hz h0
        omega
      · intro h0
        omega

/-- Whether a numeral cannot go on with this text. -/
def EndsNumber (rest : List Char) : Prop :=
  ∀ c ∈ rest.head?, c.isDigit = false ∧ c ≠ '.' ∧ c ≠ 'e' ∧ c ≠ 'E'

theorem EndsNumber.takeWhile {rest ds : List Char} (hr : EndsNumber rest)
    (hd : ∀ c ∈ ds, c.isDigit = true) :
    digits (ds ++ rest) = .ok (ds, rest) := by
  have hn : rest.takeWhile Char.isDigit = [] ∧ rest.dropWhile Char.isDigit = rest := by
    cases rest with
    | nil => simp
    | cons c rest => simp [(hr c rfl).1]
  rw [digits, List.takeWhile_append_of_pos hd, List.dropWhile_append_of_pos hd, hn.1, hn.2,
    List.append_nil]

theorem EndsNumber.peek {rest : List Char} (hr : EndsNumber rest) :
    ∃ c, Json.peek rest = .ok (c, rest) ∧ c.any Char.isDigit = false ∧
      c ≠ some '.' ∧ c ≠ some 'e' ∧ c ≠ some 'E' := by
  cases rest with
  | nil => exact ⟨none, rfl, rfl, nofun, nofun, nofun⟩
  | cons c rest =>
    obtain ⟨h1, h2, h3, h4⟩ := hr c rfl
    exact ⟨some c, rfl, by simpa using h1, by simpa using h2, by simpa using h3, by simpa using h4⟩

theorem wholeDigits_written (n : Nat) {rest : List Char} (hr : EndsNumber rest) :
    wholeDigits (Numeral.digits n ++ rest) = .ok (Numeral.digits n, rest) := by
  obtain ⟨c, ds, hc, hz, hn⟩ := digits_eq_cons n
  have hd := isDigit_of_mem_digits n
  rw [hc] at hd ⊢
  by_cases h0 : c = '0'
  · obtain rfl := hn (hz h0)
    obtain ⟨p, hp, hpd, -⟩ := hr.peek
    subst h0
    simp [wholeDigits, hp, hpd]
  · have hcd : c.isDigit = true := hd c (by simp)
    have ht := hr.takeWhile fun d hm => hd d (List.mem_cons_of_mem c hm)
    simp [wholeDigits, h0, hcd, ht]

/-- A whole number is read from its numeral, once the sign has been taken. -/
theorem restOfNumber_written (negative : Bool) (n : Nat) {rest : List Char}
    (hr : EndsNumber rest) :
    restOfNumber negative (Numeral.digits n ++ rest) =
      number negative (Numeral.digits n) [] none rest := by
  obtain ⟨p, hp, -, h2, h3, h4⟩ := hr.peek
  simp [restOfNumber, wholeDigits_written n hr, hp, h2, h3, h4]

theorem integerText_toList (v : Int) :
    (integerText v).toList =
      if v < 0 then '-' :: Numeral.digits v.natAbs else Numeral.digits v.natAbs := by
  unfold integerText
  split <;> simp [naturalText]

def IsInt64 (v : Int) : Prop := -values63 ≤ v ∧ v < values63

instance (v : Int) : Decidable (IsInt64 v) := inferInstanceAs (Decidable (_ ∧ _))

def IsWord (v : Int) : Prop := -values63 ≤ v ∧ v < values64

instance (v : Int) : Decidable (IsWord v) := inferInstanceAs (Decidable (_ ∧ _))

theorem IsInt64.isWord {v : Int} (hv : IsInt64 v) : IsWord v := by
  obtain ⟨hlow, hhigh⟩ := hv
  refine ⟨hlow, ?_⟩
  unfold values63 values64 at *
  omega

theorem anyNumber_written {v : Int} (hv : IsWord v) {rest : List Char} (hr : EndsNumber rest) :
    anyNumber ((integerText v).toList ++ rest) = .ok (.integer v, rest) := by
  obtain ⟨hlow, hhigh⟩ := hv
  have hval := ofDigits_digits v.natAbs
  rw [integerText_toList]
  split
  · next h =>
    have h1 : 0 < v.natAbs := by omega
    have h2 : v.natAbs ≤ values63 := by unfold values63 at *; omega
    simp [anyNumber, restOfNumber_written _ _ hr, number, hval, h1, h2, abs_of_neg h]
  · next h =>
    obtain ⟨c, ds, hc, -⟩ := digits_eq_cons v.natAbs
    have hcd : c.isDigit = true := isDigit_of_mem_digits v.natAbs c (by simp [hc])
    have hm : c ≠ '-' := by rintro rfl; exact absurd hcd (by decide)
    have hn : ((v.natAbs : Nat) : Int) = v := by omega
    have h2 : v.natAbs < values64 := by unfold values64 at *; omega
    have hp : Json.peek (Numeral.digits v.natAbs ++ rest) =
        .ok (some c, Numeral.digits v.natAbs ++ rest) := by rw [hc]; rfl
    simp [anyNumber, hp, hm, restOfNumber_written _ _ hr, number, hval, h2, hn]

/-- A numeral begins with a digit or a minus sign. -/
theorem integerText_eq_cons (v : Int) : ∃ c cs, (integerText v).toList = c :: cs ∧
    (c = '-' ∨ c.isDigit = true) := by
  rw [integerText_toList]
  split
  · exact ⟨'-', _, rfl, .inl rfl⟩
  · obtain ⟨c, ds, hc, -⟩ := digits_eq_cons v.natAbs
    exact ⟨c, ds, hc, .inr (isDigit_of_mem_digits v.natAbs c (by simp [hc]))⟩

theorem isSpace_of_number {c : Char} (h : c = '-' ∨ c.isDigit = true) : isSpace c = false := by
  by_contra hs
  simp only [isSpace, Bool.not_eq_false, Bool.or_eq_true, beq_iff_eq] at hs
  rcases hs with ((rfl | rfl) | rfl) | rfl <;> exact absurd h (by decide)

theorem readInt64_written {v : Int} (hv : IsInt64 v) {rest : List Char} (hr : EndsNumber rest) :
    readInt64 ((integerText v).toList ++ rest) = .ok (v, rest) := by
  obtain ⟨c, cs, hc, hstart⟩ := integerText_eq_cons v
  have hspace := isSpace_of_number hstart
  have hn := anyNumber_written hv.isWord hr
  have hlt : v < 9223372036854775808 := hv.2
  rw [hc, List.cons_append] at hn ⊢
  simp [readInt64, peekToken_cons hspace, hstart, hn, hlt]

/-! ## Records -/

theorem Field.of_read {σ β : Type} {name : String} {read : Nat → Reader β} {get : σ → Option β}
    {set : β → σ → σ} {depth : Nat} {draft : σ} {v : β} {cs rest : List Char}
    (h : read depth cs = .ok (v, rest)) :
    (Field.of name read get set).read depth draft cs = .ok (set v draft, rest) := by
  simp [Field.of, h]

namespace Record
variable {σ α : Type} (r : Record σ α)

/-- What stands before a member of an object. -/
def lead (first : Bool) : List Char := if first then [] else [',']

def memberText (key : String) (text rest : List Char) : List Char :=
  stringChars key ++ ':' :: (text ++ rest)

theorem objectGoesOn_lead (first : Bool) (key : String) (rest : List Char) :
    objectGoesOn first (lead first ++ (stringChars key ++ rest)) =
      .ok (true, key.toList.flatMap escapeChar ++ '"' :: rest) := by
  have hq : isSpace '"' = false := by decide
  have hc : isSpace ',' = false := by decide
  cases first <;> simp [objectGoesOn, lead, stringChars, peekToken_cons, hq, hc]

/-- The next member of an object goes into its field of the draft. -/
theorem members_field (first : Bool) (key : String) {depth fuel : Nat} {draft draft' : σ}
    {field : Field σ} {text rest : List Char} (hfind : r.fields.find? (·.name == key) = some field)
    (hset : field.isSet draft = false)
    (hread : field.read depth draft (text ++ rest) = .ok (draft', rest)) :
    r.members depth (fuel + 1) first draft
        (lead first ++ memberText key text rest) =
      r.members depth fuel false draft' rest := by
  have hc : isSpace ':' = false := by decide
  simp [members, memberText, objectGoesOn_lead, restOfString_written, hfind, hset, colon,
    peekToken_cons hc, hread]

theorem members_end (depth fuel : Nat) (first : Bool) (draft : σ) (rest : List Char) :
    r.members depth (fuel + 1) first draft ('\x7d' :: rest) = .ok (draft, '\x7d' :: rest) := by
  have hc : isSpace '\x7d' = false := by decide
  simp [members, objectGoesOn, peekToken_cons hc]

/-- A record is read from an object whose members fill the draft, whatever fuel there is beyond what
they need: two steps for a character and two more are always there. -/
theorem read_object {depth : Nat} (hdepth : 1 < depth) {draft : σ} {value : α}
    {text rest : List Char} {need : Nat} (hneed : need ≤ 2 * text.length + 2)
    (hmembers : ∀ fuel, r.members (depth - 1) (fuel + need) true r.empty text =
      .ok (draft, '\x7d' :: rest))
    (hfinish : r.finish draft = .ok value) :
    r.read depth ('\x7b' :: text) = .ok (value, rest) := by
  have hc : isSpace '\x7b' = false := by decide
  have hd : ¬ depth ≤ 1 := by omega
  have hfuel : fuelFor text - need + need = fuelFor text := Nat.sub_add_cancel hneed
  have hread := hmembers (fuelFor text - need)
  rw [hfuel] at hread
  simp [read, peekToken_cons hc, enter, hd, hread, hfinish]

end Record

/-- A text is read as a whole if the reader leaves nothing of it. -/
theorem parseWith_of_read {α : Type} {read : Nat → Reader α} {cs : List Char} {value : α}
    (h : read depthLimit cs = .ok (value, [])) : parseWith read (.ofList cs) = .ok value := by
  rw [parseWith, String.toList_ofList, h]
  rfl

end ChatRelay.Json
