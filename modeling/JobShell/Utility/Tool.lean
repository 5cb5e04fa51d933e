import JobShell.System.Action
import JobShell.Utility.Options
import JobShell.Utility.Quote

/-!
What small programs have in common: messages, output and input files.
-/

namespace JobShell.Tool

def warn (name message : String) : Action Unit := do
  let _ ← Action.write 2 (Text.bytes (name ++ ": " ++ message ++ "\n"))

def fail {α : Type} (name message : String) (status : Nat) : Action α := do
  warn name message
  Action.exit status

/-- What was asked for; the program ends if it could not be had. -/
def require {α : Type} (name message : String) (status : Nat) : Except SystemError α → Action α
  | .ok a => return a
  | .error e => fail name s!"{message}: {e.reason}" status

def hint {α : Type} (name : String) (status : Nat) : Action α := do
  let _ ← Action.write 2 (Text.bytes s!"Try '{name} --help' for more information.\n")
  Action.exit status

def misuse {α : Type} (name message : String) (status : Nat) : Action α := do
  warn name message
  hint name status

/-- What is wrong with an option. -/
structure Mistake where
  message : String
  status : Nat := 1
  /-- Whether help is pointed to. -/
  hint : Bool := false

def Mistake.refuse {α : Type} (name : String) (m : Mistake) : Action α :=
  if m.hint then misuse name m.message m.status else fail name m.message m.status

/-- Which group of words a word, perhaps cut short, belongs to; the words of a group mean the
same. -/
def choose (option word : String) (groups : List (List String)) : Except Mistake Nat :=
  let line (ws : List String) : String := "\n  - " ++ ", ".intercalate (ws.map Quote.always)
  let refuse (what : String) : Except Mistake Nat := .error {
    message := s!"{what} argument {Quote.always word} for '--{option}'\nValid arguments are:" ++
      String.join (groups.map line)
    hint := true }
  let fits (w : String) : Bool := word.toList.isPrefixOf w.toList
  match groups.findIdx? (·.contains word), groups.countP (·.any fits) with
  | some i, _ => .ok i
  | none, 0 => refuse "invalid"
  | none, 1 => .ok (groups.findIdx (·.any fits))
  | none, _ => refuse "ambiguous"

/-- Sets the options of a program in turn, from some settings on, and gives the operands. The first
mistake ends the program. -/
def settings {σ : Type} (spec : Options.Spec) (s : Start) (status : Nat) (init : σ)
    (set : σ → Char × String → Except Mistake σ) : Action (σ × List String) :=
  let g := Options.parse spec s.args
  match g.options.foldlM set init, g.mistake with
  | .error m, _ => m.refuse s.name
  | .ok _, some e => misuse s.name e status
  | .ok r, none => return (r, g.operands)

def options (spec : Options.Spec) (s : Start) (status : Nat) : Action Options.Given := do
  let g := Options.parse spec s.args
  if let some e := g.mistake then misuse s.name e status
  return g

def failLate {α : Type} (name : String) (status : Nat) : Action α := do
  let e ← Action.close 1
  fail name ("write error" ++ e.elim "" (": " ++ ·.reason)) status

def output (name : String) (data : Bytes) : Action Unit := do
  if let some e ← Action.write 1 data then fail name s!"write error: {e.reason}" 1

def print (name text : String) : Action Unit := output name (Text.bytes text)

/-- The lines of some bytes, without their ends; what follows the last end is a line unless
empty. -/
def lines (ending : UInt8) (data : Bytes) : List Bytes :=
  let ls := data.splitOn ending
  if ls.getLast? = some [] then ls.dropLast else ls

def orInput (operands : List String) : List String :=
  if operands.isEmpty then ["-"] else operands

def openOperand (operand : String) : Action (Except SystemError Nat) :=
  if operand = "-" then return .ok 0 else Action.openFile operand .reading

/-- Closes standard input if it was an operand; says whether that could be done. -/
def closeInput (name message : String) (operands : List String) : Action Bool := do
  unless operands.contains "-" do return true
  let some e ← Action.close 0 | return true
  warn name s!"{message}: {e.reason}"
  return false

def closeOperand (operand : String) (fd : Nat) : Action Unit := do
  if operand ≠ "-" then
    let _ ← Action.close fd

end JobShell.Tool
