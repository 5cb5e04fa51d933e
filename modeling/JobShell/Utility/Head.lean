import JobShell.Utility.Number
import JobShell.Utility.Tool

/-!
The first part of files.
-/

namespace JobShell.Utility.Head

/-- How much is wanted: so many units, or all but so many. -/
structure Amount where
  lines : Bool := true
  allBut : Bool := false
  count : Nat := 10

structure Settings where
  amount : Amount := {}
  /-- Whether headers are wanted whatever the number of files. -/
  headers : Option Bool := none
  ending : UInt8 := 10

def spec : Options.Spec where
  letters := [('c', .required), ('n', .required), ('q', .none), ('v', .none), ('z', .none)] ++
    "0123456789".toList.map (·, .none)
  words := [("bytes", 'c', .required), ("lines", 'n', .required), ("quiet", 'q', .none),
    ("silent", 'q', .none), ("verbose", 'v', .none), ("zero-terminated", 'z', .none)]

def what (lines : Bool) : String :=
  if lines then "invalid number of lines" else "invalid number of bytes"

def amount (lines : Bool) (text : String) : Except String Amount :=
  let (allBut, text) :=
    match text.toList with
    | '-' :: cs => (true, String.ofList cs)
    | _ => (false, text)
  (count (what lines) text).map fun n => ⟨lines, allBut, n⟩

/-- Options without an argument, which are the same in both forms. -/
def flag (s : Settings) : Char → Except Tool.Mistake Settings
  | 'q' => .ok { s with headers := some false }
  | 'v' => .ok { s with headers := some true }
  | 'z' => .ok { s with ending := 0 }
  | c => .error { message := s!"invalid trailing option -- {c}", hint := true }

def set (s : Settings) (o : Char × String) : Except Tool.Mistake Settings := do
  unless o.1 = 'c' || o.1 = 'n' do return ← flag s o.1
  return { s with amount := ← (amount (o.1 = 'n') o.2).mapError ({ message := · }) }

/-! ### The old form, a dash and a number -/

/-- Letters after the number of the old form. -/
structure Old where
  settings : Settings := {}
  lines : Bool := true
  unit : Chars := []

def Old.letter (o : Old) (c : Char) : Except Tool.Mistake Old := do
  match c with
  | 'c' => return { o with lines := false, unit := [] }
  | 'b' | 'k' | 'm' => return { o with lines := false, unit := [c] }
  | 'l' => return { o with lines := true }
  | c => return { o with settings := ← flag o.settings c }

def old? (args : List String) : Option (Except Tool.Mistake Settings × List String) := do
  let arg :: args := args | none
  let '-' :: c :: cs := arg.toList | none
  unless c.isDigit do none
  let (digits, letters) := (c :: cs).span Char.isDigit
  let settings : Except Tool.Mistake Settings := do
    let o ← letters.foldlM Old.letter {}
    let n ← (count (what o.lines) (String.ofList (digits ++ o.unit))).mapError ({ message := · })
    return { o.settings with amount := ⟨o.lines, false, n⟩ }
  return (settings, args)

/-! ### Copying -/

def splitLines (ending : UInt8) : Nat → Bytes → Bytes → Bytes × Bytes × Nat
  | 0, data, acc => (acc.reverse, data, 0)
  | n, [], acc => (acc.reverse, [], n)
  | n + 1, b :: data, acc => splitLines ending (if b = ending then n else n + 1) data (b :: acc)

/-- Everything but the last lines; what follows the last line end counts as one. -/
def dropLines (ending : UInt8) (n : Nat) (data : Bytes) : Bytes :=
  let ls := (Tool.lines ending data).map (· ++ [ending])
  if n = 0 then data else (ls.take (ls.length - n)).flatten

/-- Copies what is wanted. Of lines, what was read too much is given back if that can be done. -/
def copy (name : String) (s : Settings) (fd : Nat) : Action (Option SystemError) := do
  let a := s.amount
  if a.allBut then
    match ← Action.readAll fd with
    | .error e => return some e
    | .ok data =>
      Tool.output name
        (if a.lines then dropLines s.ending a.count data else data.take (data.length - a.count))
      return none
  let mut left := a.count
  for _ in [:Program.patience] do
    if left = 0 then return none
    match ← Action.read fd (if a.lines then 8192 else min 8192 left) with
    | .error e => return some e
    | .ok [] => return none
    | .ok data =>
      if a.lines then
        let (first, rest, more) := splitLines s.ending left data []
        if more = 0 then
          let _ ← Action.seek fd (-(rest.length : Int))
        Tool.output name first
        left := more
      else
        Tool.output name data
        left := left - data.length
  return none

def program (s : Start) : Program := Action.run do
  let name := s.name
  let (base, args) := (old? s.args).getD (.ok {}, s.args)
  let base ← match base with
    | .ok base => pure base
    | .error m => m.refuse name
  let (settings, operands) ← Tool.settings spec { s with args } 1 base set
  let operands := Tool.orInput operands
  let headers := settings.headers.getD (decide (1 < operands.length))
  let mut (first, ok) := (true, true)
  for operand in operands do
    match ← Tool.openOperand operand with
    | .error e =>
      Tool.warn name s!"cannot open {Quote.always operand} for reading: {e.reason}"
      ok := false
    | .ok fd =>
      let shown := if operand = "-" then "standard input" else operand
      if headers then Tool.print name ((if first then "" else "\n") ++ s!"==> {shown} <==\n")
      first := false
      let e ← copy name settings fd
      Tool.closeOperand operand fd
      if let some e := e then
        Tool.warn name s!"error reading {Quote.always shown}: {e.reason}"
        ok := false
  let closed ← Tool.closeInput name "-" operands
  return if ok && closed then 0 else 1

end JobShell.Utility.Head
