import JobShell.Utility.Quantity

/-!
Numbers and texts laid out in fields, with signs, widths and precisions.
-/

namespace JobShell.Utility

attribute [local instance(high)] instPowNat

/-! ### Rounding -/

/-- A quotient divided by a power. -/
def shift (base num den : Nat) : Int → Nat × Nat
  | .ofNat k => (num, den * base ^ k)
  | .negSucc k => (num * base ^ (k + 1), den)

/-- The largest power that a quotient is not below; `size` counts digits. -/
def exponentOf (base : Nat) (size : Nat → Nat) (num den : Nat) : Int :=
  let e : Int := size num - size den
  let (n, d) := shift base num den e
  if n < d then e - 1 else e

namespace Quantity

/-- The numbers a machine has: how many binary digits they keep and the largest exponent. -/
structure Width where
  digits : Nat
  bound : Nat

def Width.double : Width := ⟨53, 1024⟩

def Width.extended : Width := ⟨64, 16384⟩

/-- A number rounded to a width, and whether it was too large or too small for it. -/
def round (w : Width) : Quantity → Quantity × Bool
  | .finite negative 0 _ => (.finite negative 0 1, false)
  | .finite negative num den =>
    let top := exponentOf 2 Nat.log2 num den
    let e := max (top + 1 - w.digits) (3 - (w.bound : Int) - w.digits)
    let (num, den) := shift 2 num den e
    let n := Text.nearestEven num den
    if (w.bound : Int) < (Nat.log2 n : Int) + 1 + e then (.infinite negative, true)
    else (scaled negative n 2 e, n < 2 ^ (w.digits - 1) && num % den != 0)
  | r => (r, false)

/-- The mantissa and the exponent of a quotient whose lower number is a power of two. -/
def parts (w : Width) (num den : Nat) : Nat × Int :=
  let e := (Nat.log2 num : Int) + 1 - w.digits
  let (n, d) := shift 2 num 1 e
  (n / d, e - Nat.log2 den)

end Quantity

/-! ### Fields -/

structure Layout where
  left : Bool := false
  plus : Bool := false
  space : Bool := false
  alternate : Bool := false
  zero : Bool := false
  width : Nat := 0
  precision : Option Nat := none
  deriving DecidableEq

namespace Layout

def pad (l : Layout) (zeros : Bool) (sign body : Chars) : Chars :=
  let missing := l.width - (sign.length + body.length)
  if l.left then sign ++ body ++ List.replicate missing ' '
  else if zeros && l.zero then sign ++ List.replicate missing '0' ++ body
  else List.replicate missing ' ' ++ sign ++ body

def text (l : Layout) (s : Chars) : Chars :=
  l.pad false [] (match l.precision with | some p => s.take p | none => s)

def sign (l : Layout) (negative : Bool) : Chars :=
  if negative then ['-'] else if l.plus then ['+'] else if l.space then [' '] else []

def digits (l : Layout) (base n : Nat) : Chars :=
  let ds := if n = 0 && l.precision == some 0 then [] else Nat.toDigits base n
  ds.leftpad (l.precision.getD 1) '0'

def signed (l : Layout) (n : Int) : Chars :=
  l.pad l.precision.isNone (l.sign (n < 0)) (l.digits 10 n.natAbs)

def inCase (upper : Bool) (cs : Chars) : Chars := if upper then cs.map Char.toUpper else cs

def unsigned (l : Layout) (base : Nat) (upper : Bool) (n : Nat) : Chars :=
  let ds := l.digits base n
  let ds := if base = 8 && l.alternate && ds.head? ≠ some '0' then '0' :: ds else ds
  let mark := if base = 16 && l.alternate && n ≠ 0 then ['0', 'x'] else []
  l.pad l.precision.isNone (inCase upper mark) (inCase upper ds)

/-! ### Fractions -/

def pointed (l : Layout) (places n : Nat) : Chars :=
  let ds := (Nat.toDigits 10 n).leftpad (places + 1) '0'
  let (whole, fraction) := ds.splitAt (ds.length - places)
  whole ++ (if places = 0 && !l.alternate then [] else ['.']) ++ fraction

def fixed (l : Layout) (places num den : Nat) : Chars :=
  l.pointed places (Text.nearestEven (num * 10 ^ places) den)

/-- The digits of a quotient with some decimal places, as one number, and the exponent. -/
def scientificParts (places num den : Nat) : Nat × Int :=
  if num = 0 then (0, 0)
  else
    let e := exponentOf 10 (fun n => (Nat.toDigits 10 n).length) num den
    let (n, d) := shift 10 num den (e - places)
    let n := Text.nearestEven n d
    if n = 10 ^ (places + 1) then (10 ^ places, e + 1) else (n, e)

def exponentText (letter : Char) (least : Nat) (e : Int) : Chars :=
  letter :: (if e < 0 then '-' else '+') :: (Nat.toDigits 10 e.natAbs).leftpad least '0'

def scientific (l : Layout) (places num den : Nat) : Chars :=
  let (n, e) := scientificParts places num den
  l.pointed places n ++ exponentText 'e' 2 e

def dropZeros (cs : Chars) : Chars :=
  if cs.contains '.' then
    let cs := cs.reverse.dropWhile (· == '0')
    (if cs.head? = some '.' then cs.tail else cs).reverse
  else cs

def general (l : Layout) (num den : Nat) : Chars :=
  let p := max 1 (l.precision.getD 6)
  let (n, e) := scientificParts (p - 1) num den
  let trim (cs : Chars) : Chars := if l.alternate then cs else dropZeros cs
  if -4 ≤ e && e < p then trim (l.fixed ((p : Int) - 1 - e).toNat num den)
  else trim (l.pointed (p - 1) n) ++ exponentText 'e' 2 e

/-- The binary digits of a number in base sixteen. The first digit takes what does not
fill others. -/
def hexadecimal (l : Layout) (w : Quantity.Width) (num den : Nat) : Chars :=
  let (m, e) := if num = 0 then (0, 0) else Quantity.parts w num den
  let places := (w.digits - 1) / 4
  let (m, places) : Nat × Nat :=
    match l.precision with
    | some p =>
      if p < places then (Text.nearestEven m (16 ^ (places - p)), p) else (m * 16 ^ (p - places), p)
    | none => (m, places)
  let ds := (Nat.toDigits 16 m).leftpad (places + 1) '0'
  let (whole, fraction) := ds.splitAt (ds.length - places)
  let fraction :=
    if l.precision.isNone then (fraction.reverse.dropWhile (· == '0')).reverse else fraction
  let exponent := if num = 0 then 0 else e + 4 * ((w.digits - 1) / 4)
  whole ++ (if fraction.isEmpty && !l.alternate then [] else ['.']) ++ fraction ++
    exponentText 'p' 1 exponent

/-- A number in one of the ways `f`, `e`, `g` and `a`; capital letters ask for capitals. -/
def real (l : Layout) (w : Quantity.Width) (letter : Char) (r : Quantity) : Chars :=
  let up := inCase letter.isUpper
  match r with
  | .infinite negative => l.pad false (l.sign negative) (up "inf".toList)
  | .nan negative => l.pad false (l.sign negative) (up "nan".toList)
  | .finite negative num den =>
    let places := l.precision.getD 6
    let (mark, body) : Chars × Chars :=
      match letter.toLower with
      | 'e' => ([], l.scientific places num den)
      | 'g' => ([], l.general num den)
      | 'a' => (['0', 'x'], l.hexadecimal w num den)
      | _ => ([], l.fixed places num den)
    l.pad true (l.sign negative ++ up mark) (up body)

/-! ### Directives -/

section

variable {m : Type → Type} [Monad m]

/-- Reads the flags, the width and the precision of a directive. A star stands for a number that is
given elsewhere; it is asked for with whether it is the precision. -/
def read (marks : Chars) (star : Bool → m Int) (cs : Chars) : m (Layout × Chars) := do
  let given := cs.takeWhile (marks.contains ·)
  let mut l : Layout := {
    left := given.contains '-', plus := given.contains '+', space := given.contains ' '
    alternate := given.contains '#', zero := given.contains '0' }
  let mut rest := cs.drop given.length
  if let '*' :: more := rest then
    let n ← star false
    (l, rest) := ({ l with width := n.natAbs, left := l.left || n < 0 }, more)
  else
    let (ds, more) := Quantity.takeDigits 10 rest
    (l, rest) := ({ l with width := Quantity.ofDigits 10 ds }, more)
  match rest with
  | '.' :: '*' :: more =>
    let n ← star true
    return ({ l with precision := if n < 0 then none else some n.toNat }, more)
  | '.' :: more =>
    let (ds, more) := Quantity.takeDigits 10 more
    return ({ l with precision := some (Quantity.ofDigits 10 ds) }, more)
  | _ => return (l, rest)

def number (l : Layout) (w : Quantity.Width) (signed : m Int) (unsigned : m Nat)
    (real : m Quantity) (letter : Char) : m Chars := do
  match letter with
  | 'd' | 'i' => return l.signed (← signed)
  | 'u' => return l.unsigned 10 false (← unsigned)
  | 'o' => return l.unsigned 8 false (← unsigned)
  | 'x' | 'X' => return l.unsigned 16 (letter == 'X') (← unsigned)
  | _ => return l.real w letter (← real)

end

end Layout

end JobShell.Utility
