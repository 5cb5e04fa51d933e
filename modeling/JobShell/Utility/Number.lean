import JobShell.Text.Numeral
import JobShell.Utility.Quote

/-!
Numbers with units in arguments.
-/

namespace JobShell.Utility

attribute [local instance(high)] instPowNat

def unitPower? (c : Char) : Option Nat :=
  let c := if c = 'k' || c = 'm' then c.toUpper else c
  ("KMGTPEZYRQ".toList.idxOf? c).map (· + 1)

/-- What a unit multiplies by: powers of 1024, or of 1000 with a `B` after the letter. -/
def unit? : Chars → Option Nat
  | [] => some 1
  | ['b'] => some 512
  | [c, 'B'] => (unitPower? c).map (1000 ^ ·)
  | [c] | [c, 'i', 'B'] => (unitPower? c).map (1024 ^ ·)
  | _ => none

def count (what text : String) : Except String Nat :=
  let cs := text.toList.dropWhile Text.isSpace
  let cs := if cs.head? = some '+' then cs.tail else cs
  let digits := cs.takeWhile Char.isDigit
  let value : Option Nat :=
    match Text.digits? digits, unit? (cs.dropWhile Char.isDigit) with
    | some n, some u => some (n * u)
    | none, some u => if cs.isEmpty then none else some u
    | _, none => none
  match value with
  | none => .error s!"{what}: {Quote.plain text}"
  | some n =>
    if n < 2 ^ (64 : Nat) then .ok n
    else .error s!"{what}: {Quote.plain text}: Value too large for defined data type"

end JobShell.Utility
