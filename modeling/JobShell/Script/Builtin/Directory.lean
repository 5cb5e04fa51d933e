import JobShell.Script.Builtin.Options

/-!
The current directory of a shell. Its path is kept as the names that led to it.
-/

namespace JobShell.Script.Directory

open Act

def resolve (base path : String) : String :=
  let start : List String := if Path.isAbsolute path then [] else Path.segments base
  let names := start.filter (!·.isEmpty) ++ Path.segments path
  let kept := names.foldl (fun acc n =>
    if n = "" || n = "." then acc else if n = ".." then acc.dropLast else acc ++ [n]) []
  "/" ++ "/".intercalate kept

def physical : Act String := do
  let (fs, cwd) ← look
  if fs.isDirectory cwd then return Text.octets (World.placeText cwd)
  else
    warn s!"getcwd() failed: {SystemError.noEntry.reason}"
    return ""

def arrive (path : String) (remember : Bool) : Act Unit := do
  let s ← get
  if remember then setVariable "OLDPWD" s.directory true
  modify ({ · with directory := path })
  setVariable "PWD" path true

def wantsPhysical (found : List (Char × String)) : Bool := (found.getLast?.map (·.1)) = some 'P'

def enterAt (path : String) (phys : Bool) : Act Bool := do
  let s ← get
  let relative := !Path.isAbsolute path && s.directory.isEmpty
  let goal := if phys || relative then path else resolve s.directory path
  match ← enter goal with
  | some _ => return false
  | none =>
    if phys || relative then arrive (← physical) true else arrive goal true
    return true

def isRooted (path : String) : Bool :=
  match Path.segments path with
  | first :: _ => Path.isAbsolute path || first = "." || first = ".."
  | [] => false

def searchFor (path : String) : List String → Act (Option (String × Bool))
  | [] => return none
  | dir :: dirs => do
    let candidate := if dir.isEmpty then path else dir ++ "/" ++ path
    let (fs, cwd) ← look
    if fs.isDirectoryAt cwd (Text.ofOctets candidate) then return some (candidate, !dir.isEmpty)
    else searchFor path dirs

def cd (args : List String) : Act Nat := do
  let (found, rest) ← options "LP" args
  let s ← get
  let (goal, shows) : String × Bool :=
    match rest with
    | [] => ((s.valueOf? "HOME").getD "", false)
    | a :: _ => if a = "-" then ((s.valueOf? "OLDPWD").getD "", true) else (a, false)
  let phys := wantsPhysical found
  let (path, shows) ←
    if isRooted goal then pure (goal, shows)
    else do
      let goal := if goal.isEmpty then "." else goal
      let dirs := Text.pieces (· == ':') ((s.valueOf? "CDPATH").getD "").toList
      match ← searchFor goal (dirs.map String.ofList) with
      | some (path, shown) => pure (path, shows || shown)
      | none => pure (goal, shows)
  if ← enterAt path phys then
    if shows then say ((← get).directory ++ "\n")
    return 0
  else fail s!"can't cd to {goal}"

def pwd (args : List String) : Act Nat := do
  let (found, _) ← options "LP" args
  let path ← if wantsPhysical found then physical else do pure (← get).directory
  say (path ++ "\n")
  return 0

end JobShell.Script.Directory
