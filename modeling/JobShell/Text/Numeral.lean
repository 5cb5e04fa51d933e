import JobShell.Text.Utf8

/-!
Decimal numerals in text: digits only, with a sign where the numeral allows one.
-/

namespace JobShell.Text

-- powers of numbers are those of the core library, also where others are known
attribute [local instance(high)] instPowNat

def digitOf? (c : Char) : Option Nat :=
  if '0' ≤ c && c ≤ '9' then some (c.toNat - '0'.toNat) else none

def hexDigit? (c : Char) : Option Nat :=
  if '0' ≤ c && c ≤ '9' then some (c.toNat - '0'.toNat)
  else if 'a' ≤ c && c ≤ 'f' then some (c.toNat - 'a'.toNat + 10)
  else if 'A' ≤ c && c ≤ 'F' then some (c.toNat - 'A'.toNat + 10)
  else none

/-- What may stand before a number. -/
def isSpace (c : Char) : Bool := c == ' ' || ('\t' ≤ c && c ≤ '\r')

def takeSign (cs : Chars) : Bool × Chars :=
  match cs with
  | '-' :: rest => (true, rest)
  | '+' :: rest => (false, rest)
  | _ => (false, cs)

/-- The value of a digit sequence, most significant first, read on from `acc`. -/
def ofDigits (acc : Nat) (ds : List Nat) : Nat := ds.foldl (fun n d => n * 10 + d) acc

def digits? (cs : Chars) : Option Nat :=
  if cs.isEmpty then none else (cs.mapM digitOf?).map (ofDigits 0)

/-- A count: digits, perhaps after `+`, below `2 ^ 64`. -/
def count? (s : String) : Option Nat :=
  let read cs := (digits? cs).filter (· < 2 ^ (64 : Nat))
  match s.toList with
  | '+' :: cs => read cs
  | cs => read cs

/-- A signed 32-bit numeral: digits, perhaps after `+` or `-`. -/
def int32? (s : String) : Option Int :=
  match s.toList with
  | '-' :: cs => ((digits? cs).filter (· ≤ 2 ^ (31 : Nat))).map fun n => -(n : Int)
  | '+' :: cs => ((digits? cs).filter (· < 2 ^ (31 : Nat))).map fun n => (n : Int)
  | cs => ((digits? cs).filter (· < 2 ^ (31 : Nat))).map fun n => (n : Int)

/-- The 32-bit signed integer with the same low bits. -/
def wrap32 (n : Int) : Int := n.bmod (2 ^ (32 : Nat))

/-- The integers of 64 bits, one of them for the sign. -/
abbrev IsInt64 (n : Int) : Prop := -2 ^ (63 : Nat) ≤ n ∧ n < 2 ^ (63 : Nat)

/-- The nearest natural number to a quotient, ties to even. -/
def nearestEven (num den : Nat) : Nat :=
  let q := num / den
  let r := 2 * (num % den)
  if r < den then q else if r = den then q + q % 2 else q + 1

end JobShell.Text
