import JobShell.Script.Eval

/-!
The program that runs scripts: its arguments, and what it starts with.
-/

namespace JobShell.Script

/-- What the arguments of the program ask for. -/
structure Invocation where
  options : Chars := []
  /-- The commands come from the first argument. -/
  immediate : Bool := false
  rest : List String

namespace Act

def invocationLetters (on : Bool) (immediate : Bool) :
    Chars → List String → Act (Bool × List String)
  | [], args => return (immediate, args)
  | c :: cs, args => do
    if c = 'c' then invocationLetters on true cs args
    else if c = 'l' then invocationLetters on immediate cs args
    else
      let args ← Variables.setLetters on [c] args
      invocationLetters on immediate cs args

/-- Takes the options of the program; says whether the commands come from the first argument. -/
def invocation (immediate : Bool) : Nat → List String → Act (Bool × List String)
  | 0, args => return (immediate, args)
  | fuel + 1, args => do
    match args with
    | [] => return (immediate, [])
    | a :: rest =>
      match a.toList with
      | ['-'] | ['-', '-'] => return (immediate, rest)
      | [] => return (immediate, args)
      | sign :: cs => do
        if sign ≠ '-' && sign ≠ '+' then return (immediate, args)
        let (immediate, args) ← invocationLetters (sign = '-') immediate cs rest
        invocation immediate fuel args

def importVariables : List String → Act Unit
  | [] => return
  | entry :: entries => do
    match Variables.splitAssignment entry with
    | (name, some value) =>
      if isName name then
        modify fun s => s.putVariable name (some ⟨some value, true, false⟩)
    | _ => pure ()
    importVariables entries

def setUp (env : List String) : Act Unit := do
  let (pid, parent) ← ask fun next => .identify fun pid parent => next (pid, parent)
  modify ({ · with pid })
  importVariables env
  let defaults := [("OPTIND", "1"), ("IFS", " \t\n"), ("PPID", toString parent)]
  defaults.forM fun (name, value) =>
    modify fun s => s.putVariable name (some { s.known name with value := some value })
  let kept := [("PATH", "/usr/local/sbin:/usr/local/bin:/usr/sbin:/usr/bin:/sbin:/bin"),
    ("PS1", "# "), ("PS2", "> "), ("PS4", "+ ")]
  kept.forM fun (name, value) => modify fun s =>
    if s.isSet name then s else s.putVariable name (some ⟨some value, false, false⟩)
  let s ← get
  let (fs, cwd) ← look
  let believed := (s.valueOf? "PWD").filter fun p =>
    Path.isAbsolute p && fs.isDirectory cwd &&
      (fs.locate cwd (Text.ofOctets p)).toOption == some cwd
  match believed with
  | some path => Directory.arrive path false
  | none => Directory.arrive (← Directory.physical) false

def guard : Act Unit := Processes.arrangeFor Signal.interrupt

def runProgram (args : List String) : Act Unit := do
  let (immediate, rest) ← invocation false (args.length + 1) args
  let s ← get
  match immediate, rest with
  | true, [] => fail "-c requires an argument"
  | true, text :: rest =>
    let (name, args) : String × List String :=
      match rest with
      | name :: args => (name, args)
      | [] => (s.name, [])
    set { s with name, args, hasScript := true }
    guard
    let _ ← evalText (eval Program.patience) text { last := !s.options.contains 's' }
    if s.options.contains 's' then
      let _ ← runFile (eval Program.patience) { text := [], complete := false, isScript := true }
  | false, rest =>
    match s.options.contains 's', rest with
    | false, file :: args =>
      let text ← scriptText file
      set { s with name := file, args, hasScript := true }
      guard
      let _ ← runFile (eval Program.patience) { text, isScript := true }
    | _, args =>
      setOption 's' true
      modify ({ · with args, hasScript := false })
      guard
      let _ ← runFile (eval Program.patience) { text := [], complete := false, isScript := true }

end Act

def program (start : Start) : Program :=
  Act.copyProgram (Act.eval Program.patience) (do
    Act.setUp start.env
    Act.runProgram start.args) { name := start.name }

end JobShell.Script
