import JobShell.Text.Numeral

/-!
Binary floating point numbers with 53 bits, and their shortest decimal text.

A number is a sign, a mantissa below `2 ^ 53` and an exponent of two from `-1074` up to `971`.
Rounding is to the nearest number, ties to an even mantissa; it is done on exact quotients of
natural numbers. The decimal digits of a number are the fewest that round back to it, and of
those the nearest to it, ties to an even last digit.
-/

namespace JobShell

attribute [local instance(high)] instPowNat

structure Binary64 where
  negative : Bool
  mantissa : Nat
  exponent : Int
  deriving DecidableEq, Repr

namespace Binary64

def zero (negative : Bool) : Binary64 := ⟨negative, 0, 0⟩

def isZero (x : Binary64) : Bool := x.mantissa == 0

/-- `num / (den * 2 ^ e)` as a quotient of natural numbers. -/
def scaled (num den : Nat) (e : Int) : Nat × Nat :=
  if 0 ≤ e then (num, den * 2 ^ e.toNat) else (num * 2 ^ (-e).toNat, den)

/-- The exponent that gives `num / den` a mantissa of 53 bits, or the least exponent. -/
def exponentOf (num den : Nat) : Int :=
  let e : Int := (Nat.log2 num : Int) - Nat.log2 den - 52
  let (n, d) := scaled num den e
  max (if n / d < 2 ^ (52 : Nat) then e - 1 else e) (-1074)

/-- The number nearest to `num / den`; `none` if it is too large. -/
def ofQuotient? (negative : Bool) (num den : Nat) : Option Binary64 :=
  if num = 0 then some (zero negative)
  else
    let e := exponentOf num den
    let (n, d) := scaled num den e
    let m := Text.nearestEven n d
    let (m, e) := if m = 2 ^ (53 : Nat) then (2 ^ (52 : Nat), e + 1) else (m, e)
    if m = 0 then some (zero negative)
    else if e ≤ 971 then some ⟨negative, m, e⟩ else none

def ofNat (n : Nat) : Binary64 := (ofQuotient? false n 1).getD (zero false)

def quotient (x : Binary64) : Nat × Nat :=
  if 0 ≤ x.exponent then (x.mantissa * 2 ^ x.exponent.toNat, 1)
  else (x.mantissa, 2 ^ (-x.exponent).toNat)

def mul? (x y : Binary64) : Option Binary64 :=
  let (a, b) := x.quotient
  let (c, d) := y.quotient
  ofQuotient? (x.negative != y.negative) (a * c) (b * d)

def div? (x y : Binary64) : Option Binary64 :=
  let (a, b) := x.quotient
  let (c, d) := y.quotient
  if c = 0 then none else ofQuotient? (x.negative != y.negative) (a * d) (b * c)

/-- The integer a number is equal to, if it is whole. -/
def whole? (x : Binary64) : Option Int :=
  let (a, b) := x.quotient
  if a % b = 0 then some (if x.negative then -(a / b : Nat) else (a / b : Nat)) else none

/-- Numerical equality: the two zeros are equal. -/
def same (x y : Binary64) : Bool := x == y || (x.isZero && y.isZero)

/-! ### Shortest decimal digits -/

/-- The reals that round to a positive number, as quotients over one denominator: the number
itself, the two ends, and whether the ends belong to it. Below a power of two the gap is half as
wide. -/
structure Interval where
  den : Nat
  low : Nat
  mid : Nat
  high : Nat
  closed : Bool

def interval (x : Binary64) : Interval :=
  -- four units of a quarter of the last place
  let (n, d) := scaled 1 1 (-x.exponent)
  let unit := n
  let low := if x.mantissa = 2 ^ (52 : Nat) && -1074 < x.exponent then 1 else 2
  { den := 4 * d
    low := (4 * x.mantissa - low) * unit
    mid := 4 * x.mantissa * unit
    high := (4 * x.mantissa + 2) * unit
    closed := x.mantissa % 2 == 0 }

/-- Whether the decimal `c * 10 ^ p` rounds to the number. -/
def Interval.holds (i : Interval) (c : Nat) (p : Int) : Bool :=
  let (a, b) := if 0 ≤ p then (c * 10 ^ p.toNat, 1) else (c, 10 ^ (-p).toNat)
  if i.closed then i.low * b ≤ a * i.den && a * i.den ≤ i.high * b
  else i.low * b < a * i.den && a * i.den < i.high * b

/-- The decimal on the grid `10 ^ p` that rounds to the number: the nearer one of two, and the
even one if they are equally near. -/
def Interval.onGrid? (i : Interval) (p : Int) : Option Nat :=
  let (n, d) := if 0 ≤ p then (i.mid, i.den * 10 ^ p.toNat) else (i.mid * 10 ^ (-p).toNat, i.den)
  let c := n / d
  let below := i.holds c p && c != 0
  let above := i.holds (c + 1) p
  let nearer := 2 * (n % d) < d || (2 * (n % d) == d && c % 2 == 0)
  if below && (!above || nearer) then some c
  else if above then some (c + 1) else none

def reaches (num den : Nat) (k : Int) : Bool :=
  if 0 ≤ k then den * 10 ^ k.toNat ≤ num else den ≤ num * 10 ^ (-k).toNat

/-- The greatest `k` with `10 ^ k ≤ num / den`. The number of bits bounds it from above, and it
lies at most three below that bound. -/
def decimalExponent (num den : Nat) : Int :=
  let bits : Int := (Nat.log2 num : Int) - Nat.log2 den + 1
  let top := bits * 30103 / 100000 + 1
  if reaches num den top then top
  else if reaches num den (top - 1) then top - 1
  else if reaches num den (top - 2) then top - 2
  else top - 3

def searchGrid (i : Interval) (top : Int) : Nat → Nat → Nat × Int
  | 0, _ => (0, 0)
  | fuel + 1, n =>
    let p := top - n
    match i.onGrid? p with
    | some c => (c, p)
    | none => searchGrid i top fuel (n + 1)

/-- The shortest decimal `c * 10 ^ p` of a number that is not zero. -/
def shortest (x : Binary64) : Nat × Int :=
  let i := x.interval
  let top := decimalExponent i.mid i.den
  -- seventeen digits always suffice
  searchGrid i top 18 0

def zeros (n : Nat) : Chars := List.replicate n '0'

/-- Digits without the zeros at their end, which move into the exponent. -/
def stripZeros : Nat → Nat → Int → Nat × Int
  | 0, c, p => (c, p)
  | fuel + 1, c, p => if c % 10 = 0 && c ≠ 0 then stripZeros fuel (c / 10) (p + 1) else (c, p)

/-- Positional text from `1e-5` up to `1e16`, with a digit on both sides of the point; else a
digit, perhaps more after a point, and a signed exponent. -/
def layout (c : Nat) (p : Int) : Chars :=
  let ds := Nat.toDigits 10 c
  let x := p + (ds.length - 1 : Nat)
  if -5 ≤ x && x < 16 then
    if 0 ≤ p then ds ++ zeros p.toNat ++ ['.', '0']
    else if 0 ≤ x then ds.take (x.toNat + 1) ++ '.' :: ds.drop (x.toNat + 1)
    else ['0', '.'] ++ zeros ((-x).toNat - 1) ++ ds
  else
    let point := if ds.length = 1 then [] else '.' :: ds.drop 1
    ds.take 1 ++ point ++ 'e' :: (if 0 ≤ x then '+' else '-') :: Nat.toDigits 10 x.natAbs

def text (x : Binary64) : Chars :=
  let sign := if x.negative then ['-'] else []
  if x.isZero then sign ++ ['0', '.', '0']
  else
    let (c, p) := x.shortest
    let (c, p) := stripZeros 20 c p
    sign ++ layout c p

end Binary64

end JobShell
