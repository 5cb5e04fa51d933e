import JobShell.Utility.Quantity

/-!
Whole numbers at the start of a text, with a sign, in a base that the text may name itself.
-/

namespace JobShell.Utility

attribute [local instance(high)] instPowNat

/-- A sign and digits. -/
structure Integer where
  negative : Bool
  size : Nat
  deriving DecidableEq

namespace Integer

/-- Digits of a base that the text names: `0x` before hexadecimal ones, `0` before octal ones. -/
def takeSize (cs : Chars) : Option (Nat × Chars) :=
  let read (base : Nat) (cs : Chars) : Option (Nat × Chars) :=
    match Quantity.takeDigits base cs with
    | ([], _) => none
    | (ds, rest) => some (Quantity.ofDigits base ds, rest)
  match cs with
  | '0' :: x :: rest =>
    if x.toLower = 'x' then (read 16 rest).or (some (0, x :: rest))
    else if x.toLower = 'b' then (read 2 rest).or (some (0, x :: rest))
    else read 8 cs
  | _ => read 10 cs

def take? (cs : Chars) : Option (Integer × Chars) :=
  let (negative, cs) := Text.takeSign (cs.dropWhile Text.isSpace)
  (takeSize cs).map fun (n, rest) => (⟨negative, n⟩, rest)

def value (i : Integer) : Int := if i.negative then -(i.size : Int) else i.size

def signed (i : Integer) : Int × Bool :=
  if 2 ^ (63 : Nat) ≤ i.value then (2 ^ (63 : Nat) - 1, true)
  else if i.value < -(2 ^ (63 : Nat)) then (-(2 ^ (63 : Nat)), true)
  else (i.value, false)

def unsigned (i : Integer) : Nat × Bool :=
  if 2 ^ (64 : Nat) ≤ i.size then (2 ^ (64 : Nat) - 1, true)
  else ((i.value % 2 ^ (64 : Nat)).toNat, false)

end Integer

end JobShell.Utility
