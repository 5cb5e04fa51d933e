import JobShell.SystemError
import JobShell.Tree.Basic

/-!
What can go wrong in the engine itself. A command that fails is no fault: it has a status.
-/

namespace JobShell

inductive Malformation where
  | notAssignment (word : String)
  | invalidName (name : String)
  | emptyName
  | noTarget (op : Tree.RedirectOp)
  | bodyLength (items : Nat)
  | bodyKind
  | other (reason : String)
  deriving DecidableEq

def Malformation.message : Malformation → String
  | .notAssignment w => s!"not an assignment: {w}"
  | .invalidName n => "invalid variable name: '" ++ n ++ "'"
  | .emptyName => "empty command name"
  | .noTarget op => s!"missing target for redirection {op.symbol}"
  | .bodyLength n => s!"command substitution takes exactly one command, got {n}"
  | .bodyKind => "command substitution takes a command or a pipeline"
  | .other reason => reason

inductive Fault where
  | malformed (reason : Malformation)
  | unknownJob (id : Nat)
  | invalidJobSpec (spec : String)
  | spawn (name : String) (cause : SystemError)
  | io (cause : SystemError)
  | stalled
  | unknownHub (slot : Nat)
  deriving DecidableEq

namespace Fault

def message : Fault → String
  | .malformed reason => s!"malformed construct: {reason.message}"
  | .unknownJob id => s!"{id}: no such job"
  | .invalidJobSpec spec => s!"{spec}: invalid job specification"
  | .spawn name cause => s!"{name}: {cause.message}"
  | .io cause => s!"I/O error: {cause.message}"
  | .stalled => "engine stalled: no pending work can complete the awaited executor"
  | .unknownHub slot => s!"unknown notification hub {slot}"

def status (failedStatus : Int) : Fault → Int
  | .malformed _ => 2
  | .spawn .. => failedStatus
  | _ => 1

def report (f : Fault) : String := s!"jsh: {f.message}\n"

end Fault

end JobShell
