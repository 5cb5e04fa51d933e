import JobShell.Script.Reader
import JobShell.System.Action

/-!
The state of a shell that runs a script, and what the parts of its work are made of.

A part of the work comes to a value, or is left early because of a mistake or because the shell
ends.
-/

namespace JobShell.Script

structure Variable where
  value : Option String
  exported : Bool := false
  readonly : Bool := false
  deriving DecidableEq

structure Procedure where
  line : Nat
  body : Node

/-- What keeps the commands that follow from being run. -/
inductive Skip where
  | breakLoop
  | nextRound
  /-- A function or a file is left with the status before. -/
  | leave
  /-- A function or a file is left with a status of its own. -/
  | leaveWith
  deriving DecidableEq

/-- Processes that were started together. -/
structure Job where
  number : Nat
  processes : List (Pid × Option Ending)
  /-- Somebody waited for it to be done. -/
  waited : Bool := false
  deriving DecidableEq

def Job.isDone (j : Job) : Bool := j.processes.all (·.2.isSome)

/-- What a descriptor was before it was redirected. -/
inductive Saved where
  | closed
  | copy (fd : Nat)
  deriving DecidableEq

structure Shell where
  name : String
  args : List String := []
  bindings : List (String × Variable) := []
  functions : List (String × Procedure) := []
  aliases : List (String × String) := []
  /-- The letters of the options that are on. -/
  options : Chars := []
  traps : List (Signal × String) := []
  /-- Signals that were caught and whose traps are still to be run. -/
  signals : List Signal := []
  status : Nat := 0
  /-- The status to go back to after a trap. -/
  kept : Option Nat := none
  /-- The status of the last command whose output was taken. -/
  captured : Nat := 0
  background : Option Pid := none
  jobs : List Job := []
  pid : Pid := 0
  isRoot : Bool := true
  /-- Runs commands from its arguments or from a file. -/
  hasScript : Bool := true
  /-- The line that messages name. -/
  line : Nat := 0
  /-- The line that reading has got to, in the text that is read and in the script itself. -/
  reached : Nat := 1
  scriptReached : Nat := 1
  /-- The command that messages name. -/
  command : Option String := none
  loops : Nat := 0
  skip : Option Skip := none
  /-- How many loops are left. -/
  skipCount : Nat := 0
  /-- The variables to go back to, for each function or command that has some of its own. -/
  scopes : List (List (String × Option Variable)) := []
  /-- The descriptors to go back to, for each command that redirects some. -/
  redirections : List (List (Nat × Saved)) := []
  /-- What a command of the shell has to write, the last piece first. -/
  output : List String := []
  directory : String := ""
  documents : List (Nat × Word) := []
  nextDocument : Nat := 0
  /-- How far options in an argument were taken. -/
  optionOffset : Option Nat := none
  /-- The bits that new files do not get. -/
  mask : Nat := 18
  /-- Where programs were found. -/
  tracked : List (String × String) := []
  /-- The signals for which something was arranged. -/
  arranged : List Signal := []
  /-- Traces of commands are not traced. -/
  tracing : Bool := false

/-- Why work is left early: after a mistake, after the last command, or because the script says
so. -/
inductive Leave where
  | mistake
  | ended
  | exit
  deriving DecidableEq

def Act (α : Type) : Type := (Leave → Shell → Program) → (α → Shell → Program) → Shell → Program

namespace Act

instance : Monad Act where
  pure a := fun _ next s => next a s
  bind x f := fun leave next s => x leave (fun a s => f a leave next s) s

instance : MonadStateOf Shell Act where
  get := fun _ next s => next s s
  set s := fun _ next _ => next () s
  modifyGet f := fun _ next s => let (a, s) := f s; next a s

def ask {α : Type} (a : Action α) : Act α := fun _ next s => a fun x => next x s

def quit {α : Type} (l : Leave) : Act α := fun leave _ s => leave l s

def orElse {α : Type} (x : Act α) (h : Leave → Act α) : Act α :=
  fun leave next s => x (fun l s => h l leave next s) next s

/-- Starts a copy of the shell that does something else. The copy takes longer to go on than the
shell. -/
def fork (child : Shell → Program) : Act Pid :=
  fun _ next s => .fork (.sleep 150 (child s)) fun pid => .sleep 60 (next pid s)

def forkQuickly (child : Shell → Program) : Act Pid :=
  fun _ next s => .fork (child s) fun pid => .sleep 20 (next pid s)

def pipe : Act (Nat × Nat) := fun _ next s => .pipe fun a b => next (a, b) s

def saveFd (fd least : Nat) : Act (Except SystemError Nat) :=
  fun _ next s => .saveFd fd least fun r => next r s

def copyFd (source target : Nat) : Act (Option SystemError) :=
  fun _ next s => .copyFd source target fun r => next r s

def closeFd (fd : Nat) : Act Unit := fun _ next s => .close fd fun _ => next () s

def arrange (sig : Signal) (d : Disposition) : Act Disposition :=
  fun _ next s => .arrange sig d fun old => next old s

def dispose (sig : Signal) (d : Disposition) : Act Unit := do
  let _ ← arrange sig d

def takeCaught : Act (List Signal) := fun _ next s => .caught fun sigs => next sigs s

def await (block interruptible : Bool) : Act Awaited :=
  fun _ next s => .await block interruptible fun a => next a s

def exec (path : String) (args env : List String) : Act SystemError :=
  fun _ next s => .exec path args env fun e => next e s

def look : Act (FileSystem × Place) := fun _ next s => .look fun fs cwd => next (fs, cwd) s

def enter (path : String) : Act (Option SystemError) :=
  fun _ next s => .enter path fun e => next e s

/-! ### Messages and output -/

def writeTo (fd : Nat) (text : String) : Act Unit := do
  let _ ← ask (Action.write fd (Text.bytes text))

def warn (message : String) : Act Unit := do
  let s ← get
  let command := match s.command with
    | some c => c ++ ": "
    | none => ""
  writeTo 2 s!"{s.name}: {s.line}: {command}{message}\n"

def fail {α : Type} (message : String) : Act α := do
  warn message
  modify ({ · with status := 2 })
  quit .mistake

def say (text : String) : Act Unit := modify fun s => { s with output := text :: s.output }

/-! ### Options and variables -/

def isOn (letter : Char) : Act Bool := do return (← get).options.contains letter

def setOption (letter : Char) (on : Bool) : Act Unit := modify fun s =>
  { s with options := s.options.filter (· != letter) ++ if on then [letter] else [] }

end Act

namespace Shell

def valueOf? (s : Shell) (name : String) : Option String :=
  (s.bindings.lookup name).bind (·.value)

def putVariable (s : Shell) (name : String) (v : Option Variable) : Shell :=
  let others := s.bindings.filter (·.1 != name)
  { s with bindings := match v with | some v => (name, v) :: others | none => others }

def isSet (s : Shell) (name : String) : Bool := (s.valueOf? name).isSome

def known (s : Shell) (name : String) : Variable :=
  (s.bindings.lookup name).getD ⟨none, false, false⟩

def separators (s : Shell) : Chars := ((s.valueOf? "IFS").getD " \t\n").toList

def environment (s : Shell) : List String :=
  s.bindings.filterMap fun (name, v) =>
    if v.exported then v.value.map fun value => name ++ "=" ++ value else none

end Shell

namespace Act

def setVariable (name value : String) (exported : Bool := false) : Act Unit := do
  let s ← get
  if !isName name then fail s!"{name}: bad variable name"
  else
    let old := s.known name
    if old.readonly then fail s!"{name}: is read only"
    else
      let exported := exported || old.exported || s.options.contains 'a'
      set (s.putVariable name (some { old with value := some value, exported }))
      if name = "OPTIND" then modify ({ · with optionOffset := none })

def keepVariable (name : String) : Act Unit := modify fun s =>
  match s.scopes with
  | [] => s
  | scope :: scopes =>
    if scope.any (·.1 == name) then s
    else { s with scopes := ((name, s.bindings.lookup name) :: scope) :: scopes }

/-- Goes back to the variables before the innermost scopes, down to a number of them. -/
def dropScopes (depth : Nat) : Act Unit := modify fun s =>
  let inner := s.scopes.take (s.scopes.length - depth)
  let s := inner.foldl (fun s scope =>
    scope.foldl (fun (s : Shell) (name, v) => s.putVariable name v) s) s
  { s with scopes := s.scopes.drop (s.scopes.length - depth) }

/-! ### Numbers -/

def illegal {α : Type} (text : String) : Act α := fail s!"Illegal number: {text}"

def decimal? (text : String) : Option Int :=
  let (negative, cs) := Text.takeSign (text.toList.dropWhile Text.isSpace)
  let digits := cs.takeWhile Char.isDigit
  match Text.digits? digits with
  | some n =>
    if (cs.drop digits.length).all Text.isSpace then
      let n : Int := if negative then -(n : Int) else n
      if Text.IsInt64 n then some n else none
    else none
  | none => none

def integer (text : String) : Act Int :=
  match decimal? text with
  | some n => return n
  | none => illegal text

def number (text : String) : Act Nat := do
  let n ← integer text
  if 0 ≤ n && n < 1 <<< 31 then return n.toNat else illegal text

end Act

end JobShell.Script
