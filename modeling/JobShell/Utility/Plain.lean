import JobShell.Utility.Conversion
import JobShell.Utility.Print

/-!
The smallest programs: those that only end, say something, or wait.
-/

namespace JobShell.Utility

def succeed (_ : Start) : Program := .exit 0

def fail (_ : Start) : Program := .exit 1

/-! ### Saying -/

namespace Echo

/-- The flags at the front: whether a line end follows and whether escapes are carried out. -/
def flags (newline escapes : Bool) : List String → Bool × Bool × List String
  | [] => (newline, escapes, [])
  | a :: args =>
    match a.toList with
    | '-' :: c :: cs =>
      if (c :: cs).all ("neE".toList.contains ·) then
        let newline := newline && !(c :: cs).contains 'n'
        let last := ((c :: cs).filter (· != 'n')).getLast?
        let escapes := last.elim escapes (· == 'e')
        flags newline escapes args
      else (newline, escapes, a :: args)
    | _ => (newline, escapes, a :: args)

def program (start : Start) : Program := Action.run do
  let (newline, escapes, args) := flags true false start.args
  let text := " ".intercalate args ++ if newline then "\n" else ""
  if escapes then
    let (_, s) := (Print.escaped text.toList).run.run { args := [] }
    Print.perform start.name [] s.pieces.reverse
  else Tool.print start.name text
  return 0

end Echo

namespace Repeat

def program (start : Start) : Program := Action.run do
  let g ← Tool.options { letters := [] } start 1
  let line := if g.operands.isEmpty then "y" else " ".intercalate g.operands
  let data := Text.bytes (line ++ "\n")
  let data := (List.replicate (max 1 (4096 / data.length)) data).flatten
  for _ in [:Program.patience] do
    if let some e ← Action.write 1 data then
      Tool.fail start.name s!"standard output: {e.reason}" 1
  return 0

end Repeat

/-! ### Waiting -/

namespace Pause

def endless : Nat := 1000000000000000000

def unit? : Chars → Option Nat
  | [] | ['s'] => some 1
  | ['m'] => some 60
  | ['h'] => some 3600
  | ['d'] => some 86400
  | _ => none

def duration? (text : String) : Option Nat := do
  let (r, rest) ← Quantity.take? text.toList
  let u ← unit? rest
  match r with
  | .finite negative num den =>
    if negative && num ≠ 0 then none
    else some (min endless ((num * u * 1000000 + den - 1) / den))
  | .infinite false => some endless
  | _ => none

def program (start : Start) : Program := Action.run do
  let name := start.name
  let g ← Tool.options { letters := [] } start 1
  if g.operands.isEmpty then Tool.misuse name "missing operand" 1
  let wrong := g.operands.filter fun a => (duration? a).isNone
  unless wrong.isEmpty do
    wrong.forM fun a => Tool.warn name s!"invalid time interval {Quote.plain a}"
    Tool.hint name 1
  Action.sleep ((g.operands.filterMap duration?).foldl (· + ·) 0)
  return 0

end Pause

end JobShell.Utility
