import JobShell.Text.Numeral

/-!
Numbers with fractions and exponents, read from text and kept exactly.
-/

namespace JobShell.Utility

attribute [local instance(high)] instPowNat

/-- A number, or what stands for one that is too large or makes no sense. -/
inductive Quantity where
  /-- The quotient of two numbers; the lower one is not zero. -/
  | finite (negative : Bool) (num den : Nat)
  | infinite (negative : Bool)
  | nan (negative : Bool)
  deriving DecidableEq, Repr

namespace Quantity

def takeDigits (base : Nat) (cs : Chars) : List Nat × Chars :=
  let digit (c : Char) : Option Nat := (Text.hexDigit? c).filter (· < base)
  ((cs.takeWhile fun c => (digit c).isSome).filterMap digit,
    cs.dropWhile fun c => (digit c).isSome)

def ofDigits (base : Nat) (ds : List Nat) : Nat := ds.foldl (fun n d => n * base + d) 0

/-- An exponent after one of two letters, if there are digits in it. Exponents past all sizes are
cut off. -/
def takeExponent (letter : Char) (cs : Chars) : Int × Chars :=
  let (negative, body) := Text.takeSign cs.tail
  let (ds, after) := takeDigits 10 body
  if cs.head?.map Char.toLower ≠ some letter || ds.isEmpty then (0, cs)
  else
    let n : Int := min (ofDigits 10 (ds.drop (ds.length - 8))) 20000
    (if negative then -n else n, after)

def scaled (negative : Bool) (n base : Nat) (exponent : Int) : Quantity :=
  match exponent with
  | .ofNat e => .finite negative (n * base ^ e) 1
  | .negSucc e => .finite negative n (base ^ (e + 1))

/-- Digits with a point among them, and what follows. -/
def takePointed (base : Nat) (cs : Chars) : List Nat × List Nat × Chars :=
  match takeDigits base cs with
  | (whole, '.' :: after) => (whole, takeDigits base after)
  | (whole, rest) => (whole, [], rest)

def takeFinite (negative : Bool) (base : Nat) (letter : Char) (power : Nat) (step : Int)
    (cs : Chars) : Option (Quantity × Chars) :=
  let (whole, fraction, rest) := takePointed base cs
  let (exponent, rest) := takeExponent letter rest
  let n := ofDigits base (whole ++ fraction)
  if whole.isEmpty && fraction.isEmpty then none
  else some (scaled negative n power (exponent - step * fraction.length), rest)

def takeWord? (word : String) (cs : Chars) : Option Chars :=
  if (cs.take word.length).map Char.toLower = word.toList then some (cs.drop word.length) else none

def take? (cs : Chars) : Option (Quantity × Chars) :=
  let (negative, cs) := Text.takeSign (cs.dropWhile Text.isSpace)
  let word (w : String) (q : Quantity) : Option (Quantity × Chars) :=
    (takeWord? w cs).map (q, ·)
  let finite : Option (Quantity × Chars) :=
    match takeWord? "0x" cs with
    | some rest => (takeFinite negative 16 'p' 2 4 rest).or (some (.finite negative 0 1, cs.drop 1))
    | none => takeFinite negative 10 'e' 10 1 cs
  word "infinity" (.infinite negative) <|> word "inf" (.infinite negative) <|>
    word "nan" (.nan negative) <|> finite

/-- Compares two numbers that are finite or not; those that are no numbers come first. -/
def compare (a b : Quantity) : Ordering :=
  let rank : Quantity → Int
    | .nan _ => -2
    | .infinite true => -1
    | .infinite false => 1
    | .finite .. => 0
  let signed (negative : Bool) (n : Nat) : Int := if negative then -(n : Int) else n
  match a, b with
  | .finite na pa qa, .finite nb pb qb => Ord.compare (signed na (pa * qb)) (signed nb (pb * qa))
  | a, b => Ord.compare (rank a) (rank b)

end Quantity

end JobShell.Utility
