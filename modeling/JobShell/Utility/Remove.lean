import JobShell.Utility.Tool

/-!
Removing empty directories, and on demand the directories above them.
-/

namespace JobShell.Utility.Remove

structure Settings where
  parents : Bool := false
  verbose : Bool := false
  /-- Directories that are not empty are no mistake. -/
  lenient : Bool := false

def spec : Options.Spec where
  letters := [('p', .none), ('v', .none)]
  words := [("ignore-fail-on-non-empty", 'i', .none), ("parents", 'p', .none), ("path", 'p', .none),
    ("verbose", 'v', .none)]

/-- The path without its last name and the slashes before it, if it has more than one name. -/
def above? (path : Chars) : Option Chars :=
  let r := path.reverse.dropWhile (· == '/')
  let rest := r.dropWhile (· ≠ '/')
  if rest.isEmpty then none
  else
    let up := rest.dropWhile (· == '/')
    some (if up.isEmpty then ['/'] else up.reverse)

/-- Removes a directory and says what it does; gives whether that went well, and whether it is
gone. -/
def one (name : String) (s : Settings) (path : String) (what : SystemError → String) :
    Action (Bool × Bool) := do
  if s.verbose then Tool.print name s!"{name}: removing directory, {Quote.always path}\n"
  let some e ← Action.removeDirectory path | return (true, true)
  if s.lenient && e == .notEmpty then return (true, false)
  Tool.warn name s!"failed to remove {what e}{Quote.always path}: {e.reason}"
  return (false, false)

def program (start : Start) : Program := Action.run do
  let name := start.name
  let g ← Tool.options spec start 1
  if g.operands.isEmpty then Tool.misuse name "missing operand" 1
  let s : Settings := { parents := g.has 'p', verbose := g.has 'v', lenient := g.has 'i' }
  let above (e : SystemError) : String := if e == .notDirectory then "" else "directory "
  let mut ok := true
  for path in g.operands do
    let (fine, gone) ← one name s path fun _ => ""
    ok := ok && fine
    let mut rest := if s.parents && gone then above? path.toList else none
    for _ in path.toList do
      let some up := rest | break
      let (fine, gone) ← one name s (String.ofList up) above
      ok := ok && fine
      rest := if gone then above? up else none
  return if ok then 0 else 1

end JobShell.Utility.Remove
