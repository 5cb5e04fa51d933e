import JobShell.Script.Builtin.Options

/-!
Finding out what a command name stands for.
-/

namespace JobShell.Script

def ownCommands : List String := specialCommands ++ [
  "local", "[", "alias", "bg", "cd", "chdir", "command", "echo", "false", "fg", "getopts", "hash",
  "jobs", "kill", "printf", "pwd", "read", "test", "true", "type", "ulimit", "umask", "unalias",
  "wait"]

def isSpecial (name : String) : Bool := specialCommands.contains name || name == "local"

def takesAssignments (name : String) : Bool :=
  ["alias", "export", "local", "readonly"].contains name

/-- What a command name stands for. -/
inductive Meaning where
  | own (name : String)
  | procedure (p : Procedure)
  /-- A program, by its path. -/
  | program (path : String)
  | unknown (e : SystemError)

def defaultPath : String := "/usr/sbin:/usr/bin:/sbin:/bin"

/-- Looks along a search path. Files that are no programs are passed over and remembered. -/
def searchProgram (fs : FileSystem) (cwd : Place) (name : String) :
    SystemError → List String → Except SystemError String
  | e, [] => .error e
  | e, dir :: dirs =>
    let path := if dir.isEmpty then name else dir ++ "/" ++ name
    match fs.locate cwd (Text.ofOctets path) with
    | .ok place =>
      if fs.entry? place == some .program then .ok path
      else searchProgram fs cwd name .denied dirs
    | .error f =>
      searchProgram fs cwd name (if f = .noEntry || f = .notDirectory then e else f) dirs

def directoriesOf (path : String) : List String :=
  (Text.pieces (· == ':') path.toList).map String.ofList

namespace Act

def findProgram (name : String) (path : Option String) : Act Meaning := do
  if name.contains '/' then return .program name
  else
    let s ← get
    let (fs, cwd) ← look
    let dirs := directoriesOf ((path.or (s.valueOf? "PATH")).getD "")
    match searchProgram fs cwd name .noEntry dirs with
    | .ok found =>
      modify fun s => { s with tracked := (name, found) :: s.tracked.filter (·.1 != name) }
      return .program found
    | .error e => return .unknown e

def findOwn (name : String) (procedures : Bool) : Act (Option Meaning) := do
  let s ← get
  match if procedures then s.functions.lookup name else none with
  | some p => return some (.procedure p)
  | none => return if ownCommands.contains name then some (.own name) else none

/-- The complaint about a program that cannot be run, and the status that stands for it. -/
def execFailure (e : SystemError) : String × Nat :=
  if e = .noEntry || e = .notDirectory then ("not found", 127)
  else (e.reason, if e = .nameTooLong then 127 else 126)

/-! ### Telling about commands -/

def describe (name : String) (long : Bool) (path : Option String) : Act Nat := do
  let s ← get
  let told (sentence short : String) : Act Nat := do
    say ((if long then name ++ sentence else short) ++ "\n")
    return 0
  if keywords.contains name then told " is a shell keyword" name
  else
    match s.aliases.lookup name with
    | some value => told s!" is an alias for {value}" s!"alias {name}={quoted value}"
    | none =>
      let known := s.tracked.any (·.1 == name)
      match ← findOwn name true with
      | some (.procedure _) => told " is a shell function" name
      | some _ =>
        told (if isSpecial name then " is a special shell builtin" else " is a shell builtin") name
      | none =>
        let meaning ← findProgram name path
        unless known do modify fun s => { s with tracked := s.tracked.filter (·.1 != name) }
        let (fs, cwd) ← look
        let lacks : Act Nat := do
          if long then say (name ++ ": not found\n")
          return 127
        match meaning with
        | .program found =>
          if name.contains '/' && !fs.exists? cwd (Text.ofOctets name) then lacks
          else told (if known then s!" is a tracked alias for {found}" else s!" is {found}") found
        | _ => lacks

def describeAll (long : Bool) (code : Nat) : List String → Act Nat
  | [] => return code
  | name :: names => do describeAll long (max code (← describe name long none)) names

def typeOf (args : List String) : Act Nat := do describeAll true 0 (← operands args)

def hash (args : List String) : Act Nat := do
  let (found, names) ← options "rv" args
  if !found.isEmpty then
    modify ({ · with tracked := [] })
    return 0
  else if names.isEmpty then
    (← get).tracked.reverse.forM fun (_, path) => say (path ++ "\n")
    return 0
  else
    let codes ← names.mapM fun name => do
      match ← findOwn name true with
      | some _ => return 0
      | none =>
        match ← findProgram name none with
        | .unknown e =>
          warn s!"{name}: {(execFailure e).1}"
          return 1
        | _ => return 0
    return codes.foldl max 0

end Act

end JobShell.Script
