/-!
# Decimal numerals

Reading and writing whole numbers in base ten. A signed numeral may carry a plus sign; a numeral
of bounded width is refused as soon as its value does not fit.
-/

namespace ChatRelay.Numeral

/-! How many values words of so many bits have. -/

abbrev values16 : Nat := 65536
abbrev values31 : Nat := 2147483648
abbrev values32 : Nat := 4294967296
abbrev values63 : Nat := 9223372036854775808
abbrev values64 : Nat := 18446744073709551616

def digitValue (c : Char) : Nat := c.toNat - 48

/-- The value of a string of digits, most significant first, after those already read. -/
def ofDigits (n : Nat) (cs : List Char) : Nat :=
  cs.foldl (fun n c => 10 * n + digitValue c) n

/-- One or more digits and nothing else. -/
def natural? (cs : List Char) : Option Nat :=
  if cs.isEmpty || !cs.all Char.isDigit then none else some (ofDigits 0 cs)

/-- An optional plus sign, then digits; the value stays below `bound`. -/
def unsigned? (bound : Nat) (s : String) : Option Nat :=
  let digits := match s.toList with
    | '+' :: rest => rest
    | cs => cs
  (natural? digits).filter (· < bound)

/-- An optional sign, then digits; the value is at least `-bound` and below `bound`. -/
def signed? (bound : Nat) (s : String) : Option Int :=
  let value : Option Int := match s.toList with
    | '+' :: rest => (natural? rest).map Int.ofNat
    | '-' :: rest => (natural? rest).map fun n => -(n : Int)
    | cs => (natural? cs).map Int.ofNat
  value.filter fun v => -(bound : Int) ≤ v && v < bound

def digitChar (d : Nat) : Char := Char.ofNat (48 + d)

/-- The digits of a number, without leading zeros. -/
def digits (n : Nat) : List Char :=
  if n < 10 then [digitChar n] else digits (n / 10) ++ [digitChar (n % 10)]

/-- At least `width` digits, filled up with zeros on the left. -/
def padded (width n : Nat) : List Char :=
  let ds := digits n
  List.replicate (width - ds.length) '0' ++ ds

def naturalText (n : Nat) : String := .ofList (digits n)

def integerText (v : Int) : String :=
  if v < 0 then "-" ++ naturalText v.natAbs else naturalText v.natAbs

end ChatRelay.Numeral
