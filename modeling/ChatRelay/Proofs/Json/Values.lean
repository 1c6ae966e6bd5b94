import ChatRelay.Proofs.Json.ReadBack
import Mathlib.Data.String.Basic

/-!
# Reading back any value

A value without floats is read back from its compact text, whatever follows, if it is not nested
deeper than the reader allows. A value in canonical form is read as it is.
-/

namespace ChatRelay.Json

mutual

/-- No floats, and only whole numbers that fit a word. -/
def IsPlain : Json → Prop
  | .integer v => IsWord v
  | .float _ => False
  | .array items => AllPlain items
  | .object members => MembersPlain members
  | _ => True

def AllPlain : List Json → Prop
  | [] => True
  | item :: rest => item.IsPlain ∧ AllPlain rest

def MembersPlain : List (String × Json) → Prop
  | [] => True
  | (_, value) :: rest => value.IsPlain ∧ MembersPlain rest

end

/-! ## How texts begin and end -/

def Begins (cs : List Char) : Prop :=
  ∃ c rest, cs = c :: rest ∧ isSpace c = false ∧ c ≠ ',' ∧ c ≠ ']'

theorem begins_cons {c : Char} (h : isSpace c = false ∧ c ≠ ',' ∧ c ≠ ']') (cs : List Char) :
    Begins (c :: cs) := ⟨c, cs, rfl, h⟩

theorem begins_chars {v : Json} (hv : v.IsPlain) : Begins v.chars := by
  cases v with
  | null => exact begins_cons (by decide) _
  | bool b => cases b <;> exact begins_cons (by decide) _
  | integer v =>
    obtain ⟨c, cs, hc, hstart⟩ := integerText_eq_cons v
    refine ⟨c, cs, hc, isSpace_of_number hstart, ?_, ?_⟩ <;>
    · rintro rfl
      exact absurd hstart (by decide)
  | float x => exact hv.elim
  | string s => exact begins_cons (by decide) _
  | array items => cases items <;> exact begins_cons (by decide) _
  | object members => cases members <;> exact begins_cons (by decide) _

theorem length_chars_pos {v : Json} (hv : v.IsPlain) : 0 < v.chars.length := by
  obtain ⟨c, cs, hc, -⟩ := begins_chars hv
  simp [hc]

theorem endsNumber_moreItems (items : List Json) (rest : List Char) :
    EndsNumber (moreItems items ++ rest) := by
  cases items <;> simp [moreItems, EndsNumber]

theorem endsNumber_moreMembers (members : List (String × Json)) (rest : List Char) :
    EndsNumber (moreMembers members ++ rest) := by
  cases members with
  | nil => simp [moreMembers, EndsNumber]
  | cons m members => simp [moreMembers, EndsNumber]

theorem length_moreItems_pos (items : List Json) : 0 < (moreItems items).length := by
  cases items <;> simp [moreItems]

theorem length_moreMembers_pos (members : List (String × Json)) :
    0 < (moreMembers members).length := by
  cases members with
  | nil => simp [moreMembers]
  | cons m members => simp [moreMembers]

/-! ## Lists and objects go on -/

/-- An item follows the comma before it, which the first item does without. -/
theorem listGoesOn_lead (first : Bool) {cs : List Char} (h : Begins cs) (rest : List Char) :
    listGoesOn first (Record.lead first ++ (cs ++ rest)) = .ok (true, cs ++ rest) := by
  obtain ⟨c, cs, rfl, hspace, hcomma, hclose⟩ := h
  cases first with
  | true =>
    change listGoesOn true (c :: (cs ++ rest)) = .ok (true, c :: (cs ++ rest))
    simp only [listGoesOn, bind_apply, peekToken_cons hspace, ok_bind]
    split <;> simp_all
  | false =>
    have hc : isSpace ',' = false := by decide
    simp [listGoesOn, Record.lead, peekToken_cons hc, peekToken_cons hspace]

theorem listGoesOn_end (first : Bool) (rest : List Char) :
    listGoesOn first (']' :: rest) = .ok (false, ']' :: rest) := by
  have hc : isSpace ']' = false := by decide
  simp [listGoesOn, peekToken_cons hc]

theorem objectGoesOn_end (first : Bool) (rest : List Char) :
    objectGoesOn first ('\x7d' :: rest) = .ok (false, '\x7d' :: rest) := by
  have hc : isSpace '\x7d' = false := by decide
  simp [objectGoesOn, peekToken_cons hc]

theorem colon_cons (rest : List Char) : colon (':' :: rest) = .ok ((), rest) := by
  have hc : isSpace ':' = false := by decide
  simp [colon, peekToken_cons hc]

/-! ## Values -/

/-- A value whose first character is that of a number is read as one. -/
theorem valueWithin_number {c : Char} (h : c = '-' ∨ c.isDigit = true) (fuel depth : Nat)
    (cs : List Char) : valueWithin (fuel + 1) depth (c :: cs) = anyNumber (c :: cs) := by
  obtain ⟨hn, ht, hf, hquote, hlist, hobject⟩ : c ≠ 'n' ∧ c ≠ 't' ∧ c ≠ 'f' ∧ c ≠ '"' ∧ c ≠ '[' ∧
      c ≠ '\x7b' := by
    refine ⟨?_, ?_, ?_, ?_, ?_, ?_⟩ <;>
    · rintro rfl
      exact absurd h (by decide)
  simp [valueWithin, peekToken_cons (isSpace_of_number h), h]

theorem valueWithin_null (fuel depth : Nat) (rest : List Char) :
    valueWithin (fuel + 1) depth (chars .null ++ rest) = .ok (.null, rest) := by
  have hc : isSpace 'n' = false := by decide
  simp [valueWithin, chars, peekToken_cons hc, literal]

theorem valueWithin_bool (b : Bool) (fuel depth : Nat) (rest : List Char) :
    valueWithin (fuel + 1) depth (chars (.bool b) ++ rest) = .ok (.bool b, rest) := by
  have ht : isSpace 't' = false := by decide
  have hf : isSpace 'f' = false := by decide
  cases b <;> simp [valueWithin, chars, peekToken_cons ht, peekToken_cons hf, literal]

theorem valueWithin_integer {v : Int} (hv : IsWord v) (fuel depth : Nat) {rest : List Char}
    (hrest : EndsNumber rest) :
    valueWithin (fuel + 1) depth (chars (.integer v) ++ rest) = .ok (.integer v, rest) := by
  obtain ⟨c, cs, hc, hstart⟩ := integerText_eq_cons v
  have hnumber := anyNumber_written hv hrest
  rw [chars]
  rw [hc, List.cons_append] at hnumber ⊢
  rw [valueWithin_number hstart, hnumber]

theorem valueWithin_string (s : String) (fuel depth : Nat) (rest : List Char) :
    valueWithin (fuel + 1) depth (chars (.string s) ++ rest) = .ok (.string s, rest) := by
  have hc : isSpace '"' = false := by decide
  simp [valueWithin, chars, stringChars, peekToken_cons hc, restOfString_written]

/-- What stands inside a list is read with one level less. -/
theorem valueWithin_array {items : List Json} {fuel depth : Nat} (hdepth : 1 < depth)
    {cs rest : List Char} (h : itemsWithin fuel (depth - 1) true cs = .ok (items, rest)) :
    valueWithin (fuel + 1) depth ('[' :: cs) = .ok (.array items, rest) := by
  have hc : isSpace '[' = false := by decide
  simp [valueWithin, peekToken_cons hc, enter, Nat.not_le.mpr hdepth, h]

theorem valueWithin_object {members : List (String × Json)} {fuel depth : Nat} (hdepth : 1 < depth)
    {cs rest : List Char} (h : membersWithin fuel (depth - 1) true cs = .ok (members, rest)) :
    valueWithin (fuel + 1) depth ('\x7b' :: cs) = .ok (.object members, rest) := by
  have hc : isSpace '\x7b' = false := by decide
  simp [valueWithin, peekToken_cons hc, enter, Nat.not_le.mpr hdepth, h]

theorem itemsWithin_end (fuel depth : Nat) (first : Bool) (rest : List Char) :
    itemsWithin (fuel + 1) depth first (']' :: rest) = .ok ([], rest) := by
  simp [itemsWithin, listGoesOn_end]

theorem membersWithin_end (fuel depth : Nat) (first : Bool) (rest : List Char) :
    membersWithin (fuel + 1) depth first ('\x7d' :: rest) = .ok ([], rest) := by
  simp [membersWithin, objectGoesOn_end]

/-- One item of a list, and then the others. -/
theorem itemsWithin_item {item : Json} (hitem : item.IsPlain) {items : List Json} {fuel depth : Nat}
    {first : Bool} {cs rest : List Char}
    (hvalue : valueWithin fuel depth (item.chars ++ cs) = .ok (item, cs))
    (hmore : itemsWithin fuel depth false cs = .ok (items, rest)) :
    itemsWithin (fuel + 1) depth first (Record.lead first ++ (item.chars ++ cs)) =
      .ok (item :: items, rest) := by
  simp [itemsWithin, listGoesOn_lead first (begins_chars hitem), hvalue, hmore]

theorem membersWithin_member {key : String} {value : Json} {members : List (String × Json)}
    {fuel depth : Nat} {first : Bool} {cs rest : List Char}
    (hvalue : valueWithin fuel depth (value.chars ++ cs) = .ok (value, cs))
    (hmore : membersWithin fuel depth false cs = .ok (members, rest)) :
    membersWithin (fuel + 1) depth first
        (Record.lead first ++ (stringChars key ++ ':' :: (value.chars ++ cs))) =
      .ok ((key, value) :: members, rest) := by
  simp [membersWithin, Record.objectGoesOn_lead, restOfString_written, colon_cons, hvalue, hmore]

mutual

/-- Every chain of calls takes a character at least, so as much fuel as the text is long and one
more will do. -/
theorem valueWithin_written (v : Json) (hv : v.IsPlain) {fuel levels : Nat}
    (hfuel : v.chars.length < fuel) (hlevels : v.depth < levels) {rest : List Char}
    (hrest : EndsNumber rest) : valueWithin fuel levels (v.chars ++ rest) = .ok (v, rest) := by
  obtain ⟨fuel, rfl⟩ : ∃ k, fuel = k + 1 := ⟨fuel - 1, by omega⟩
  match v with
  | .null => exact valueWithin_null fuel levels rest
  | .bool b => exact valueWithin_bool b fuel levels rest
  | .integer n => exact valueWithin_integer hv fuel levels hrest
  | .float x => exact hv.elim
  | .string s => exact valueWithin_string s fuel levels rest
  | .array [] =>
    simp only [chars, List.length_cons, List.length_nil, depth, itemsDepth] at hfuel hlevels
    obtain ⟨fuel, rfl⟩ : ∃ k, fuel = k + 1 := ⟨fuel - 1, by omega⟩
    exact valueWithin_array (by omega) (itemsWithin_end ..)
  | .array (item :: items) =>
    have hpos := length_moreItems_pos items
    have hpos' := length_chars_pos hv.1
    simp only [chars, List.length_cons, List.length_append, depth, itemsDepth] at hfuel hlevels
    obtain ⟨fuel, rfl⟩ : ∃ k, fuel = k + 1 := ⟨fuel - 1, by omega⟩
    have hitem : valueWithin fuel (levels - 1) (item.chars ++ (moreItems items ++ rest)) =
        .ok (item, moreItems items ++ rest) :=
      valueWithin_written item hv.1 (by omega) (by omega) (endsNumber_moreItems items rest)
    have hitems : itemsWithin fuel (levels - 1) false (moreItems items ++ rest) =
        .ok (items, rest) :=
      itemsWithin_written items hv.2 (by omega) (by omega) rest
    simp only [chars, List.cons_append, List.append_assoc]
    exact valueWithin_array (by omega) (itemsWithin_item hv.1 hitem hitems)
  | .object [] =>
    simp only [chars, List.length_cons, List.length_nil, depth, membersDepth] at hfuel hlevels
    obtain ⟨fuel, rfl⟩ : ∃ k, fuel = k + 1 := ⟨fuel - 1, by omega⟩
    exact valueWithin_object (by omega) (membersWithin_end ..)
  | .object ((key, value) :: members) =>
    have hpos := length_moreMembers_pos members
    simp only [chars, List.length_cons, List.length_append, depth, membersDepth] at hfuel hlevels
    obtain ⟨fuel, rfl⟩ : ∃ k, fuel = k + 1 := ⟨fuel - 1, by omega⟩
    have hvalue : valueWithin fuel (levels - 1) (value.chars ++ (moreMembers members ++ rest)) =
        .ok (value, moreMembers members ++ rest) :=
      valueWithin_written value hv.1 (by omega) (by omega) (endsNumber_moreMembers members rest)
    have hmembers : membersWithin fuel (levels - 1) false (moreMembers members ++ rest) =
        .ok (members, rest) :=
      membersWithin_written members hv.2 (by omega) (by omega) rest
    simp only [chars, List.cons_append, List.append_assoc]
    exact valueWithin_object (by omega) (membersWithin_member hvalue hmembers)

theorem itemsWithin_written (items : List Json) (hitems : AllPlain items) {fuel levels : Nat}
    (hfuel : (moreItems items).length < fuel) (hlevels : itemsDepth items < levels)
    (rest : List Char) :
    itemsWithin fuel levels false (moreItems items ++ rest) = .ok (items, rest) := by
  obtain ⟨fuel, rfl⟩ : ∃ k, fuel = k + 1 := ⟨fuel - 1, by omega⟩
  match items with
  | [] => exact itemsWithin_end ..
  | item :: items =>
    simp only [moreItems, List.length_cons, List.length_append, itemsDepth] at hfuel hlevels
    have hitem : valueWithin fuel levels (item.chars ++ (moreItems items ++ rest)) =
        .ok (item, moreItems items ++ rest) :=
      valueWithin_written item hitems.1 (by omega) (by omega) (endsNumber_moreItems items rest)
    have hmore : itemsWithin fuel levels false (moreItems items ++ rest) = .ok (items, rest) :=
      itemsWithin_written items hitems.2 (by omega) (by omega) rest
    simp only [moreItems, List.cons_append, List.append_assoc]
    exact itemsWithin_item hitems.1 hitem hmore

theorem membersWithin_written (members : List (String × Json)) (hmembers : MembersPlain members)
    {fuel levels : Nat} (hfuel : (moreMembers members).length < fuel)
    (hlevels : membersDepth members < levels) (rest : List Char) :
    membersWithin fuel levels false (moreMembers members ++ rest) = .ok (members, rest) := by
  obtain ⟨fuel, rfl⟩ : ∃ k, fuel = k + 1 := ⟨fuel - 1, by omega⟩
  match members with
  | [] => exact membersWithin_end ..
  | (key, value) :: members =>
    simp only [moreMembers, List.length_cons, List.length_append, membersDepth] at hfuel hlevels
    have hvalue : valueWithin fuel levels (value.chars ++ (moreMembers members ++ rest)) =
        .ok (value, moreMembers members ++ rest) :=
      valueWithin_written value hmembers.1 (by omega) (by omega)
        (endsNumber_moreMembers members rest)
    have hmore : membersWithin fuel levels false (moreMembers members ++ rest) =
        .ok (members, rest) :=
      membersWithin_written members hmembers.2 (by omega) (by omega) rest
    simp only [moreMembers, List.cons_append, List.append_assoc]
    exact membersWithin_member hvalue hmore

end

/-! ## Canonical values -/

theorem insertMember_last {key : String} {sorted : List (String × Json)}
    (h : ∀ m ∈ sorted, m.1 < key) (value : Json) :
    insertMember key value sorted = sorted ++ [(key, value)] := by
  induction sorted with
  | nil => rfl
  | cons m sorted ih =>
    obtain ⟨hm, hsorted⟩ := List.forall_mem_cons.mp h
    rw [insertMember, if_neg (lt_asymm hm), if_neg (ne_of_gt hm), ih hsorted, List.cons_append]

mutual

theorem canonical_eq_self (v : Json) (hv : v.IsCanonical) : v.canonical = v := by
  match v with
  | .null | .bool _ | .integer _ | .float _ | .string _ => rfl
  | .array items => rw [canonical, canonicalItems_eq_self items hv]
  | .object members =>
    rw [canonical, canonicalMembers_eq_append members hv.2 [] (by simpa using hv.1),
      List.nil_append]

theorem canonicalItems_eq_self (items : List Json) (hitems : AllCanonical items) :
    canonicalItems items = items := by
  match items with
  | [] => rfl
  | item :: items =>
    rw [canonicalItems, canonical_eq_self item hitems.1, canonicalItems_eq_self items hitems.2]

/-- Members whose keys increase are put behind those that are sorted already. -/
theorem canonicalMembers_eq_append (members : List (String × Json))
    (hmembers : MembersCanonical members) (sorted : List (String × Json))
    (hkeys : ((sorted ++ members).map (·.1)).Pairwise (· < ·)) :
    canonicalMembers members sorted = sorted ++ members := by
  match members with
  | [] => simp [canonicalMembers]
  | (key, value) :: members =>
    have hlast : ∀ m ∈ sorted, m.1 < key := by
      intro m hm
      rw [List.map_append, List.pairwise_append] at hkeys
      exact hkeys.2.2 m.1 (List.mem_map_of_mem hm) key (by simp)
    rw [canonicalMembers, canonical_eq_self value hmembers.1, insertMember_last hlast,
      canonicalMembers_eq_append members hmembers.2 _ (by simpa using hkeys)]
    simp

end

/-- A canonical value that is not too deep is read back as it is. -/
theorem readValue_written {v : Json} (hplain : v.IsPlain) (hcanonical : v.IsCanonical)
    {levels : Nat} (hlevels : v.depth < levels) {rest : List Char} (hrest : EndsNumber rest) :
    readValue levels (v.chars ++ rest) = .ok (v, rest) := by
  have hfuel : v.chars.length < fuelFor (v.chars ++ rest) := by
    rw [fuelFor, List.length_append]
    omega
  simp [readValue, rawValue, valueWithin_written v hplain hfuel hlevels hrest,
    canonical_eq_self v hcanonical]

end ChatRelay.Json
