import JobShell.System.Basic

/-!
Finding the program of a command.
-/

namespace JobShell

def Start.limits : Nat × Nat := (131072, 2097152)

/-- Whether the arguments and the environment are more than a program can be given. Each of them
takes its bytes, one more, and a pointer. -/
def Start.isTooLong (s : Start) : Bool :=
  let sizes := (s.name :: s.args ++ s.env).map fun t => t.length + 1
  sizes.any (limits.1 < ·) || limits.2 < sizes.foldl (· + · + 8) 0

def FileSystem.programAt (fs : FileSystem) (cwd : Place) (path : String) :
    Except SystemError String := do
  let place ← fs.locate cwd path
  match fs.entry? place with
  | some .program => return place.getLast?.getD ""
  | _ => .error .denied

/-- Looks through directories for a program that can be started. Where there is none the search
goes on; the error is that of the last directory, unless a file was found that is no program. -/
def FileSystem.searchPath {α : Type} (attempt : String → Except SystemError α) (name : String) :
    Bool → SystemError → List String → Except SystemError α
  | refused, e, [] => .error (if refused then .denied else e)
  | refused, _, dir :: dirs =>
    match attempt (if dir.isEmpty then name else dir ++ "/" ++ name) with
    | .ok a => .ok a
    | .error e =>
      if e = .denied then searchPath attempt name true e dirs
      else if e = .noEntry || e = .notDirectory then searchPath attempt name refused e dirs
      else .error e

/-- The program a command name stands for: a path if it has a slash, else found along the search
path of the environment. -/
def FileSystem.findProgram {α : Type} (attempt : String → Except SystemError α)
    (env : Bindings String) (name : String) : Except SystemError α :=
  if name.contains '/' then attempt name
  else if name.isEmpty then .error .noEntry
  else if 255 < name.utf8ByteSize then .error .nameTooLong
  else
    let dirs := (env.get? "PATH").getD "/bin:/usr/bin"
    searchPath attempt name false .noEntry ((Text.pieces (· == ':') dirs.toList).map String.ofList)

end JobShell
