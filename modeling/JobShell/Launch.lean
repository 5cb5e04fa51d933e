import JobShell.Command
import JobShell.Pattern.Expand
import JobShell.Services

/-!
Launches: commands with their patterns expanded and their routines looked up.
-/

namespace JobShell

/-- What runs a command: a process or a routine. -/
inductive JobKind where
  | process
  | routine
  deriving DecidableEq, Repr

structure Launch where
  name : String
  args : List String := []
  env : Bindings Value := []
  redirections : List Redirection := []
  routine : Option Routine := none

namespace Launch

def resolve (services : Services) (world : World) (kind : JobKind) (c : Command) : Launch where
  name := c.name
  args := c.expandArgs world.expand
  env := c.assignments
  redirections := c.redirections
  routine := if kind = .routine then services.find? c.name else none

/-- The command's own part of the environment, as text. -/
def renderedEnv (l : Launch) : List (String × String) := l.env.map fun (n, v) => (n, v.render)

/-- The environment of a routine: the shell's, with the command's own part over it. -/
def routineEnv (world : World) (l : Launch) : Bindings Value :=
  Bindings.override (world.env.map fun (n, s) => (n, .text s)) l.env

end Launch

/-- Neighbouring commands of one kind, which run in one job. -/
abbrev Groups := List (JobKind × List Command)

namespace Services

/-- A command is run by a process unless there is a routine of its name. -/
def kindOf (s : Services) (name : String) : JobKind :=
  if (s.find? name).isSome then .routine else .process

def partition (s : Services) : List Command → Groups
  | [] => []
  | c :: cs =>
    let kind := s.kindOf c.name
    match s.partition cs with
    | (k, group) :: rest =>
      if k = kind then (k, c :: group) :: rest else (kind, [c]) :: (k, group) :: rest
    | [] => [(kind, [c])]

end Services

end JobShell
