import JobShell.Text.Numeral
import JobShell.Tree.Basic
import JobShell.Value.Coerce

/-!
Commands ready to be started: every word has been evaluated, and only the file name patterns
among the arguments are left to expand.
-/

namespace JobShell

inductive Argument where
  | text (s : String)
  | pattern (p : String)
  deriving DecidableEq

def Argument.line : Argument → String
  | .text s => s
  | .pattern p => p

inductive Target where
  | file (path : String)
  | fd (n : Int)
  | close
  deriving DecidableEq

namespace Target

/-- The target of a duplicating operator is `-` or a descriptor number; all else is a file. -/
def ofText (op : Tree.RedirectOp) (text : String) : Target :=
  match op with
  | .dupOutput | .dupInput =>
    if text = "-" then .close
    else
      match Text.int32? text with
      | some n => .fd n
      | none => .file text
  | _ => .file text

def line : Target → String
  | .file path => path
  | .fd n => toString n
  | .close => "-"

end Target

structure Redirection where
  op : Tree.RedirectOp
  fd : Int
  target : Target
  deriving DecidableEq

namespace Redirection

def ofText (op : Tree.RedirectOp) (fd : Int) (text : String) : Redirection :=
  ⟨op, fd, Target.ofText op text⟩

def line (r : Redirection) : String :=
  let fd := if r.fd = r.op.defaultFd then "" else toString r.fd
  fd ++ r.op.symbol ++ r.target.line

end Redirection

/-- A command. One without a name only sets variables: those of its assignments, which for other
commands go into the environment. -/
structure Command where
  name : String := ""
  args : List Argument := []
  redirections : List Redirection := []
  assignments : Bindings Value := []
  background : Bool := false

namespace Command

def assignmentOnly (c : Command) : Bool := c.name.isEmpty

def line (c : Command) : String :=
  let head :=
    if c.assignmentOnly then c.assignments.map fun (n, v) => n ++ "=" ++ v.render else [c.name]
  let words := head ++ c.args.map Argument.line ++ c.redirections.map Redirection.line
  " ".intercalate words ++ if c.background then " &" else ""

/-- Commands joined by pipes, as they are typed. -/
def pipeLine (cs : List Command) : String := " | ".intercalate (cs.map line)

/-- The arguments of a pattern: the paths it matches, or itself where there are none. -/
def expandArg (expand : String → List String) : Argument → List String
  | .text s => [s]
  | .pattern p =>
    match expand p with
    | [] => [p]
    | paths => paths

def expandArgs (expand : String → List String) (c : Command) : List String :=
  c.args.flatMap (expandArg expand)

def argv (expand : String → List String) (c : Command) : List String :=
  c.name :: c.expandArgs expand

end Command

end JobShell
