import ChatRelay.Number.Numeral

/-!
# Finite binary floating point

A number of the 64-bit format is a sign, a significand and an exponent. `Binary64.ofDecimal?`
rounds a decimal to the nearest one, a tie going to the even significand, and refuses what rounds
beyond the largest. `Binary64.shortest` gives the decimal with the fewest digits that rounds back
to the number, and of those with equally many the nearest. All of it is exact integer arithmetic.
-/

namespace ChatRelay

/-- The value `significand * 2 ^ exponent`, with the sign apart so that zero has two forms. The
significand stays below `2 ^ 53`, and reaches `2 ^ 52` unless the exponent is the least, `-1074`. -/
structure Binary64 where
  negative : Bool
  significand : Nat
  exponent : Int
deriving DecidableEq, Repr

namespace Binary64

def leastExponent : Int := -1074
def greatestExponent : Int := 971

/-- The least significand of a number that is not subnormal, `2 ^ 52`. -/
def leastNormal : Nat := 4503599627370496

def zero (negative : Bool) : Binary64 := ⟨negative, 0, leastExponent⟩

/-- The fraction `num * 2 ^ e / den` as a numerator over a denominator. -/
def scaleTwo (num den : Nat) (e : Int) : Nat × Nat :=
  if e < 0 then (num, den * Nat.pow 2 e.natAbs) else (num * Nat.pow 2 e.natAbs, den)

def scaleTen (num den : Nat) (e : Int) : Nat × Nat :=
  if e < 0 then (num, den * Nat.pow 10 e.natAbs) else (num * Nat.pow 10 e.natAbs, den)

/-- The whole number nearest to `num / den`, a tie going to the even one. -/
def roundHalfEven (num den : Nat) : Nat :=
  let q := num / den
  let twice := 2 * (num % den)
  if twice < den then q
  else if den < twice then q + 1
  else if q % 2 = 0 then q else q + 1

/-- The greatest `k` with `2 ^ k ≤ num / den`, for a positive fraction. -/
def floorLogTwo (num den : Nat) : Int :=
  let guess : Int := (num.log2 : Int) - den.log2
  let (n, d) := scaleTwo num den (-guess)
  if n < d then guess - 1 else guess

/-- Round the positive fraction `num / den`, or refuse it when it rounds beyond every number of the
format. -/
def ofFraction? (negative : Bool) (num den : Nat) : Option Binary64 :=
  let e := max (floorLogTwo num den - 52) leastExponent
  let (n, d) := scaleTwo num den (-e)
  let m := roundHalfEven n d
  let (m, e) := if m = 2 * leastNormal then (leastNormal, e + 1) else (m, e)
  if e > greatestExponent then none else some ⟨negative, m, e⟩

/-- The number nearest to `digits * 10 ^ e`. Beyond the first two bounds no further digit can
change the result, so the powers that are computed stay small. -/
def ofDecimal? (negative : Bool) (digits : Nat) (e : Int) : Option Binary64 :=
  let magnitude : Int := e + (Numeral.digits digits).length
  if digits = 0 then some (zero negative)
  else if magnitude > 400 then none
  else if magnitude < -400 then some (zero negative)
  else
    let (n, d) := scaleTen digits 1 e
    ofFraction? negative n d

/-- The greatest `k` with `10 ^ k ≤ num / den`, for a positive fraction, starting from a guess that
is at most one too large or too small. -/
def floorLogTen (num den : Nat) : Int :=
  let guess : Int := (Numeral.digits num).length - (Numeral.digits den).length
  let reaches (k : Int) : Bool :=
    let (n, d) := scaleTen num den (-k)
    d ≤ n
  if reaches (guess + 1) then guess + 1 else if reaches guess then guess else guess - 1

/-- The ends of the interval of reals that round to a number, and whether they belong to it, all
over one denominator: lower end, number, upper end, denominator. -/
structure Interval where
  low : Nat
  value : Nat
  high : Nat
  den : Nat
  closed : Bool

def interval (x : Binary64) : Interval :=
  let m := x.significand
  let below := if m = leastNormal ∧ x.exponent > leastExponent then 1 else 2
  let (unit, den) := scaleTwo 1 1 (x.exponent - 2)
  { low := (4 * m - below) * unit, value := 4 * m * unit, high := (4 * m + 2) * unit
    den := den, closed := m % 2 = 0 }

/-- Whether `d * 10 ^ p` rounds to the number of the interval. -/
def Interval.holds (i : Interval) (d : Nat) (p : Int) : Bool :=
  let (n, q) := scaleTen d 1 p
  let (l, v, h) := (i.low * q, n * i.den, i.high * q)
  if i.closed then l ≤ v && v ≤ h else l < v && v < h

/-- On the grid of multiples of `10 ^ p`, the neighbour of the number that rounds back to it, the
nearer one if both do. -/
def Interval.onGrid? (i : Interval) (p : Int) : Option Nat :=
  let (n, q) := scaleTen i.value i.den (-p)
  let floor := n / q
  match i.holds floor p, i.holds (floor + 1) p with
  | true, false => some floor
  | false, true => some (floor + 1)
  | true, true =>
    let twice := 2 * (n % q)
    if twice < q || (twice = q && floor % 2 = 0) then some floor else some (floor + 1)
  | false, false => none

/-- Try grids from `10 ^ p` downwards; seventeen digits always suffice. -/
def Interval.firstGrid (i : Interval) : Nat → Int → Nat × Int
  | 0, p => (0, p)
  | tries + 1, p =>
    match i.onGrid? p with
    | some d => (d, p)
    | none => i.firstGrid tries (p - 1)

/-- The fewest digits that round back, as a whole number `d` and an exponent `p` for
`d * 10 ^ p`. -/
def shortest (x : Binary64) : Nat × Int :=
  if x.significand = 0 then (0, 0)
  else
    let i := x.interval
    i.firstGrid 18 (floorLogTen i.value i.den)

/-- A decimal point among the digits `ds`, which stand for `0.ds * 10 ^ point`. -/
def positional (ds : List Char) (point : Int) : List Char :=
  if point ≤ 0 then
    '0' :: '.' :: (List.replicate point.natAbs '0' ++ ds)
  else
    let whole := ds.take point.toNat ++ List.replicate (point.toNat - ds.length) '0'
    let fraction := ds.drop point.toNat
    whole ++ '.' :: (if fraction.isEmpty then ['0'] else fraction)

/-- One digit before the point and a signed exponent; a plus sign is written. -/
def scientific (ds : List Char) (exponent : Int) : List Char :=
  let mantissa := match ds with
    | [] => ['0']
    | [d] => [d]
    | d :: rest => d :: '.' :: rest
  mantissa ++ 'e' :: (if exponent < 0 then '-' else '+') :: Numeral.digits exponent.natAbs

/-- Trailing zeros say nothing once the exponent is kept apart. -/
def dropTrailingZeros (ds : List Char) : List Char :=
  (ds.reverse.dropWhile (· == '0')).reverse

/-- The shortest decimal, written with a point where the leading digit stands for `10 ^ -5` up to
`10 ^ 15`, and with an exponent otherwise. -/
def text (x : Binary64) : String :=
  let sign := if x.negative then ['-'] else []
  let (d, p) := x.shortest
  if d = 0 then .ofList (sign ++ ['0', '.', '0'])
  else
    let all := Numeral.digits d
    let exponent := p + all.length - 1
    let ds := dropTrailingZeros all
    .ofList (sign ++
      if -5 ≤ exponent ∧ exponent < 16 then positional ds (exponent + 1)
      else scientific ds exponent)

end Binary64
end ChatRelay
