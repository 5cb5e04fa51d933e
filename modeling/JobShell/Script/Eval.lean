import JobShell.Script.Builtin.Directory
import JobShell.Script.Builtin.Print
import JobShell.Script.Builtin.Process
import JobShell.Script.Builtin.Test
import JobShell.Script.Builtin.Variables
import JobShell.Script.Lookup
import JobShell.Script.Redirection

/-!
Running commands.

Commands run in the shell itself, in a copy of it, or as programs. The last command of a script
needs no copy: its program takes the place of the shell.
-/

namespace JobShell.Script

/-- How a command is run: whether its failure is expected, and whether nothing follows it. -/
structure Manner where
  tested : Bool := false
  last : Bool := false

def Manner.inner (m : Manner) : Manner := { tested := m.tested }

namespace Shell

def hasTraps (s : Shell) : Bool := s.traps.any (!·.2.isEmpty)

def afterLoop (s : Shell) : Option Skip × Shell :=
  match s.skip with
  | some .breakLoop | some .nextRound =>
    if s.skipCount ≤ 1 then (s.skip, { s with skip := none, skipCount := 0 })
    else (some .breakLoop, { s with skipCount := s.skipCount - 1 })
  | skip => (skip, s)

/-- A function or a file has been left. -/
def returned (s : Shell) : Shell :=
  if s.skip = some .leave || s.skip = some .leaveWith then { s with skip := none } else s

end Shell

namespace Act

def setStatus (n : Nat) : Act Nat := do
  modify ({ · with status := n })
  return n

def atLine (line : Nat) : Act Unit := modify ({ · with line })

def attempt {α : Type} (x : Act α) : Act (Except Leave α) :=
  orElse (do return .ok (← x)) fun l => return .error l

def connectAll (connections : List Connection) : Act Bool := do
  match ← attempt (connections.forM (connect true)) with
  | .ok _ => return true
  | .error l => if l = .mistake then return false else quit l

/-! ### Copies of the shell -/

/-- What a copy of the shell does first: traps are dropped, and jobs are not its own. One in the
background takes no interruptions. -/
def beCopy (background : Bool) : Act Unit := do
  forgetRedirections
  let s ← get
  set { s with
    isRoot := false, jobs := [], signals := [], output := [], reached := s.scriptReached
    traps := s.traps.filter (·.2.isEmpty) }
  for (sig, text) in s.traps do
    if sig ≠ 0 && !text.isEmpty then dispose sig .default
  if s.isRoot && s.hasScript && (s.traps.lookup Signal.interrupt).isNone then
    dispose Signal.interrupt .default
  if background then
    dispose Signal.interrupt .ignore
    dispose Signal.quit .ignore

def readNothing : Act Unit := do
  closeFd 0
  let _ ← ask (Action.openFile "/dev/null" .reading)

def dieOf {α : Type} (sig : Signal) : Act α := do
  dispose sig .default
  let pid ← ask (fun next => .identify fun pid _ => next pid)
  let _ ← ask (Action.kill pid sig)
  ask (Action.exit (128 + sig))

def noteSignals : Act Unit := do
  let caught ← takeCaught
  unless caught.isEmpty do
    let s ← get
    if caught.contains Signal.interrupt && (s.traps.lookup Signal.interrupt).isNone then
      dieOf Signal.interrupt
    set { s with signals := s.signals ++ caught.filter (!s.signals.contains ·) }

def cannotExec {α : Type} (name : String) (e : SystemError) : Act α := do
  let (message, code) := execFailure e
  warn (name ++ ": " ++ message)
  modify ({ · with status := code })
  quit .ended

def become {α : Type} (path : String) (args : List String) : Act α := do
  cannotExec (args.headD "") (← exec path args (← get).environment)

def flush (name : String) : Act Bool := do
  let s ← get
  set { s with output := [] }
  let e ← ask (Action.write 1 (Text.bytes (String.join s.output.reverse)))
  if e.isSome then warn s!"{name}: I/O error"
  return e.isNone

def tracePrompt (capture : Capture) : Act String := do
  let s ← get
  let text := (s.valueOf? "PS4").getD ""
  let never : PendingDocument := ⟨0, ['\n'], false, false⟩
  match StateT.run (Read.documentText (Read.nested Read.ample) never) { text := text.toList } with
  | .ok (w, _) =>
    modify ({ · with tracing := true })
    let shown ← expandDocument capture w
    modify ({ · with tracing := s.tracing })
    return shown
  | .error _ => return text

/-- Shows a command that is about to be run, where errors went before its redirections. -/
def trace (capture : Capture) (parts : List String) : Act Unit := do
  let s ← get
  if s.options.contains 'x' && !s.tracing then
    let fd :=
      match (s.redirections.head?.getD []).lookup 2 with
      | some (.copy n) => n
      | _ => 2
    writeTo fd ((← tracePrompt capture) ++ " ".intercalate parts ++ "\n")

open Variables Processes Directory in
def routines : List (String × (List String → Act Nat)) := [
  (":", fun _ => return 0), ("true", fun _ => return 0), ("false", fun _ => return 1),
  ("[", Condition.bracket), ("test", Condition.test), ("alias", aliases), ("unalias", unalias),
  ("bg", toFront), ("fg", toFront), ("cd", cd), ("chdir", cd), ("pwd", pwd), ("echo", Print.echo),
  ("printf", Print.printf), ("export", publish), ("readonly", readonly), ("unset", unset),
  ("local", localize), ("set", settings), ("shift", shift), ("getopts", getopts), ("read", read),
  ("hash", hash), ("type", typeOf), ("jobs", jobs), ("kill", kill), ("trap", trap), ("wait", wait),
  ("times", times), ("ulimit", ulimit), ("umask", umask)]

def leaveLoops (skip : Skip) (args : List String) : Act Nat := do
  let n ← args.head?.elim (pure 1) number
  if n = 0 then illegal (args.headD "")
  modify fun s =>
    if s.loops = 0 then s else { s with skip := some skip, skipCount := min n s.loops }
  return 0

def leaveProcedure (args : List String) : Act Nat := do
  let n ← args.head?.mapM number
  modify ({ · with skip := some (if n.isSome then .leaveWith else .leave) })
  return n.getD (← get).status

def exitWith (args : List String) : Act Nat := do
  if let some a := args.head? then
    let n ← number a
    modify ({ · with kept := some n })
  quit .exit

def commandNamed (args : List String) : Act Nat := do
  let (found, rest) ← options "pvV" args
  let path := if found.any (·.1 == 'p') then some defaultPath else none
  match rest, found.find? (·.1 != 'p') with
  | name :: _, some _ => describe name (found.any (·.1 == 'V')) path
  | _, _ => return 0

/-- The file that a script is to go on with: a path, or found along the search path. -/
def scriptFile (name : String) : Act String := do
  if name.contains '/' then return name
  let s ← get
  let (fs, cwd) ← look
  for dir in directoriesOf ((s.valueOf? "PATH").getD "") do
    let path := if dir.isEmpty then name else dir ++ "/" ++ name
    match (fs.locate cwd (Text.ofOctets path)).toOption.bind fs.entry? with
    | some (.file _) | some .program => return path
    | _ => pure ()
  fail s!"{name}: not found"

def scriptText (path : String) : Act Chars := do
  match ← ask (Action.openFile path .reading) with
  | .error e => fail (Opening.input.complaint path e)
  | .ok fd =>
    let data ← ask (Action.readAll fd)
    closeFd fd
    return (Text.ofBytes (data.toOption.getD [])).toList

/-- The command after `command` and its options, if there is one: the arguments from there on, and
the search path. -/
def pastCommand : Option String → List String → Option (Option String × List String)
  | _, [] => none
  | path, a :: args =>
    match a.toList with
    | ['-', '-'] => if args.isEmpty then none else some (path, args)
    | '-' :: c :: cs =>
      if (c :: cs).all (· == 'p') then pastCommand (some defaultPath) args else none
    | _ => some (path, a :: args)

/-- A command and how it was asked for. -/
structure Chosen where
  args : List String
  path : Option String := none
  /-- Procedures do not count. -/
  bypassed : Bool := false

def choose (args : List String) : Act Chosen := do
  let mut c : Chosen := { args }
  for _ in args do
    let "command" :: rest := c.args | return c
    let some (.own _) ← findOwn "command" (!c.bypassed) | return c
    let some (path, args) := pastCommand c.path rest | return c
    c := { args, path, bypassed := true }
  return c

/-- Expands the words of a command from left to right. Once the command is known, its arguments may
be assignments. -/
def expandWords (capture : Capture) (words : List Word) : Act (List String) := do
  let mut acc := []
  for w in words do
    let pseudo := !acc.isEmpty && takesAssignments ((← choose acc).args.headD "")
    match w.assignment?.filter fun _ => pseudo with
    | some (name, value) => acc := acc ++ [name ++ "=" ++ (← expandValue capture value)]
    | none => acc := acc ++ (← expandFields capture w)
  return acc

def track : Node → Act Unit
  | .simple _ _ (w :: _) _ => do
    if let some name := (Word.plain? w).filter isName then
      if (← findOwn name true).isNone then
        let _ ← findProgram name none
  | _ => return

/-- Reads the next commands. More text is taken from the standard input as it is needed. -/
def portion (start : Reader) : Act (Portion × Reader) := do
  let mut r := start
  for _ in [:Program.patience] do
    let s ← get
    r := { r with aliases := s.aliases, nextDocument := s.nextDocument }
    match { r with documents := [] }.portion with
    | .ok (p, after) =>
      set { s with
        documents := s.documents ++ after.documents, nextDocument := after.nextDocument
        reached := after.line
        scriptReached := if r.isScript then after.line else s.scriptReached }
      return (p, after)
    | .error (.mistake line message) =>
      atLine line
      fail s!"Syntax error: {message}"
    | .error .more =>
      match ← ask (Action.read 0 8192) with
      | .ok [] | .error _ => r := { r with complete := true }
      | .ok data => r := { r with text := r.text ++ data.map Text.octet }
  quit .mistake

def moveFd (source target : Nat) : Act Unit := do
  if source ≠ target then
    let _ ← copyFd source target
    closeFd source

def addJob (pids : List Pid) : Act Nat := modifyGet fun s =>
  let (j, s) := s.addJob pids
  (j.number, s)

/-- Waits for processes that were started, unless that was in the background. -/
def attend (pids : List Pid) (background : Bool := false) : Act Nat := do
  let number ← addJob pids
  if !background then waitForJob number
  else
    modify ({ · with background := pids.getLast? })
    return 0

/-! ### Texts and traps -/

-- how a command inside of another one is run
variable (inner : Body → Manner → Act Nat)

def runText (start : Reader) (m : Manner) : Act Nat := do
  let mut r := start
  let mut status := 0
  for _ in [:Program.patience] do
    let (.commands body, next) ← portion r | return status
    r := next
    let code ← inner body { m with last := m.last && r.atEnd }
    if body.isSome then status := code
    if (← get).skip.isSome then return status
  return status

def runFile (r : Reader) : Act Nat := do
  let status ← runText inner r {}
  modify (·.returned)
  return status

def evalText (text : String) (m : Manner) : Act Nat := do
  let before := (← get).reached
  let status ← runText inner { text := text.toList } m
  modify ({ · with reached := before })
  return status

def runTraps : Act Unit := do
  noteSignals
  let before ← get
  unless before.signals.isEmpty do
    let status := before.kept.getD before.status
    set { before with kept := some status }
    for _ in [:Program.patience] do
      let s ← get
      let some sig := s.signals.min? | break
      if s.skip.isSome then break
      set { s with signals := s.signals.filter (· != sig) }
      if let some text := s.traps.lookup sig then
        let _ ← evalText inner text {}
        if (← get).skip ≠ some .leaveWith then modify ({ · with status })
    modify ({ · with kept := before.kept })

/-- The end of a shell or of a copy of it: descriptors are put back and the last trap is run. -/
def finishShell (l : Leave) : Act Unit := do
  modify fun s => { s with
    status := if l = .exit then s.kept.getD s.status else s.status, kept := none, skip := none }
  unwindRedirections 0
  dropScopes 0
  let s ← get
  if let some text := s.traps.lookup 0 then
    set { s with traps := s.traps.filter (·.1 != 0), kept := some s.status, loops := 0,
                 command := none }
    let result ← attempt (evalText inner text {})
    let s ← get
    unwindRedirections 0
    match result with
    | .ok _ | .error .exit => ask (Action.exit (s.kept.getD s.status))
    | .error _ => ask (Action.exit s.status)
  ask (Action.exit s.status)

def copyProgram (work : Act Unit) (s : Shell) : Program :=
  let finish (l : Leave) (s : Shell) : Program :=
    finishShell inner l (fun _ _ => .exit 2) (fun _ s => .exit s.status) s
  work finish (fun _ => finish .ended) s

/-! ### Commands -/

def captureOutput (body : Body) : Act Chars := do
  if body.isNone then return []
  let (reading, writing) ← pipe
  let pid ← fork (copyProgram inner do
    closeFd reading
    moveFd writing 1
    beCopy false
    let _ ← inner body { last := true })
  closeFd writing
  let number ← addJob [pid]
  let data ← ask (Action.readAll reading)
  closeFd reading
  let captured ← waitForJob number
  modify ({ · with captured })
  let cs := ((data.toOption.getD []).filter (· ≠ 0)).map Text.octet
  return (cs.reverse.dropWhile (· == '\n')).reverse

def endRound : Act (Option Skip) := modifyGet (·.afterLoop)

def evalLoop (whileTrue : Bool) (test body : Body) (m : Manner) : Act Nat := do
  let mut status := 0
  for _ in [:Program.patience] do
    let code ← inner test { tested := true }
    match ← endRound with
    | some .leaveWith => return code
    | some .nextRound => continue
    | some _ => return status
    | none =>
      if (code = 0) ≠ (whileTrue = true) then return status
      status ← inner body m
      if (← endRound).any (· ≠ .nextRound) then return status
  return status

def evalEach (name : String) (body : Body) (m : Manner) (fields : List String) : Act Nat := do
  let mut status := 0
  for x in fields do
    setVariable name x
    status ← inner body m
    if (← endRound).any (· ≠ .nextRound) then return status
  return status

def evalClauses (text : Chars) (m : Manner) (clauses : List Clause) : Act Nat := do
  for ⟨patterns, body⟩ in clauses do
    for p in patterns do
      if matchGlyphs (← expandPattern (captureOutput inner) p) text then
        return ← if body.isSome then inner body m else pure 0
  return 0

def evalRedirected (line : Nat) (body : Body) (redirects : List Redirect) (m : Manner) :
    Act Nat := do
  atLine line
  let connections ← redirects.mapM (connection (captureOutput inner))
  pushRedirections
  let connected ← connectAll connections
  let status ← if connected then inner body m.inner else pure 2
  popRedirections false
  return status

def evalCopy (line : Nat) (body : Body) (redirects : List Redirect) (background : Bool)
    (m : Manner) : Act Nat := do
  atLine line
  let connections ← redirects.mapM (connection (captureOutput inner))
  if !background && m.last && !(← get).hasTraps then
    modify fun s => { s with reached := s.scriptReached }
    connections.forM (connect false)
    let _ ← inner body m
    quit .ended
  let pid ← fork (copyProgram inner do
    beCopy background
    if background then readNothing
    connections.forM (connect false)
    let _ ← inner body { tested := m.tested && !background, last := true })
  attend [pid] background

/-- Starts the commands of a pipeline, each reading what the one before writes. -/
def evalPipeline (commands : List Node) (background : Bool) : Act Nat := do
  let mut incoming : Option Nat := none
  let mut pids : List Pid := []
  for n in commands do
    track n
    let (source, isFirst) := (incoming, pids.isEmpty)
    let made ← if pids.length + 1 = commands.length then pure none else some <$> pipe
    let pid ← fork (copyProgram inner do
      beCopy background
      if background && isFirst then readNothing
      if let some (reading, _) := made then closeFd reading
      if let some fd := source then moveFd fd 0
      if let some (_, writing) := made then moveFd writing 1
      let _ ← inner (some n) { last := true })
    if let some fd := incoming then closeFd fd
    if let some (_, writing) := made then closeFd writing
    incoming := made.map (·.1)
    pids := pids ++ [pid]
  attend pids background

def evalProcedure (p : Procedure) (args : List String) (m : Manner) : Act Nat := do
  let before ← get
  set { before with args, loops := 0, optionOffset := none }
  let result ← attempt (inner (some p.body) m.inner)
  modify fun s => { s.returned with
    args := before.args, loops := before.loops, optionOffset := before.optionOffset }
  match result with
  | .error l => quit l
  | .ok _ => return (← get).status

/-- Runs a command of the shell itself. A mistake ends the script if the command is special. -/
def evalOwn (name : String) (args : List String) (special : Bool) (m : Manner) : Act Nat := do
  let before ← get
  set { before with command := some name, output := [] }
  let work : Act Nat := do
    match name with
    | "eval" => if args.isEmpty then return 0 else evalText inner (" ".intercalate args) m.inner
    | "." =>
      let file :: _ ← operands args | return 0
      let path ← scriptFile file
      let text ← scriptText path
      modify ({ · with command := some path })
      let status ← runFile inner { text }
      modify ({ · with reached := before.reached })
      return status
    | "exec" =>
      let name :: args ← operands args | return 0
      match ← findProgram name none with
      | .program path => become path (name :: args)
      | .unknown e => cannotExec name e
      | _ => return 127
    | "exit" => exitWith args
    | "return" => leaveProcedure args
    | "break" => leaveLoops .breakLoop args
    | "continue" => leaveLoops .nextRound args
    | "command" => commandNamed args
    | name => (routines.lookup name).elim (pure 127) (· args)
  let result ← attempt work
  let written ← flush name
  modify ({ · with command := before.command })
  match result with
  | .ok n => setStatus (if written then n else max n 1)
  | .error l => if l = .mistake && !special then return (← get).status else quit l

def evalSimple (line : Nat) (assignments words : List Word) (redirects : List Redirect)
    (m : Manner) : Act Nat := do
  let capture : Capture := captureOutput inner
  atLine line
  modify ({ · with captured := 0 })
  let args ← expandWords capture words
  let c ← choose args
  let special : Bool :=
    match ← findOwn (args.headD "") true with
    | some (.own name) => !args.isEmpty && isSpecial name
    | _ => false
  let name := c.args.headD ""
  let own ← if c.args.isEmpty then pure none else findOwn name (!c.bypassed)
  let replaces := name == "exec" && !c.args.isEmpty
  let shielded := !args.isEmpty && !special
  let before ← get
  if shielded then set { before with scopes := [] :: before.scopes }
  let connections ← redirects.mapM (connection capture)
  unless redirects.isEmpty do pushRedirections
  let refuse (code : Nat) : Act Nat := do
    let code ← setStatus code
    if special then quit .mistake else return code
  let status ←
    if !(← connectAll connections) then refuse 2
    else do
      let given ← assignments.mapM fun w => do
        let some (name, value) := w.assignment? | return ""
        let text ← expandValue capture value
        if shielded then keepVariable name
        setVariable name text (shielded || (replaces && 1 < c.args.length))
        return name ++ "=" ++ text
      unless given.isEmpty && args.isEmpty do trace capture (given ++ c.args)
      if c.args.isEmpty then setStatus (← get).captured
      else
        match own with
        | some (.own name) => evalOwn inner name c.args.tail special m
        | some (.procedure p) => evalProcedure inner p c.args.tail m
        | _ =>
          match ← findProgram name c.path with
          | .program path =>
            if m.last && !(← get).hasTraps then become path c.args
            else
              let pid ← forkQuickly (copyProgram inner do
                beCopy false
                become path c.args)
              attend [pid]
          | .unknown e =>
            warn s!"{name}: {(execFailure e).1}"
            refuse 127
          | _ => pure 127
  unless redirects.isEmpty do popRedirections replaces
  unwindRedirections before.redirections.length
  dropScopes before.scopes.length
  return status

/-- Runs a command, and says whether its failure may end the script. -/
def evalNode (m : Manner) (n : Node) : Act (Nat × Bool) := do
  let done (status : Nat) (checked : Bool := false) : Act (Nat × Bool) :=
    return (← setStatus status, checked)
  let before (body : Body) (m : Manner) (next : Nat → Act (Nat × Bool)) : Act (Nat × Bool) := do
    let status ← inner body m
    if (← get).skip.isSome then return (status, false) else next status
  let test (body : Body) := before body { tested := true }
  let inLoop (run : Act Nat) : Act (Nat × Bool) := do
    modify fun s => { s with loops := s.loops + 1 }
    let status ← run
    modify fun s => { s with loops := s.loops - 1 }
    done status
  match n with
  | .simple line assignments words redirects =>
    done (← evalSimple inner line assignments words redirects m) true
  | .pipeline commands background => done (← evalPipeline inner commands background) true
  | .subshell line body redirects => done (← evalCopy inner line body redirects false m) true
  | .background line body redirects => done (← evalCopy inner line body redirects true m) true
  | .redirected line body redirects => done (← evalRedirected inner line body redirects m)
  | .negation body => test (some body) fun status => done (if status = 0 then 1 else 0)
  | .both a b => test (some a) fun status => do
    if status ≠ 0 then return (status, false) else done (← inner (some b) m)
  | .either a b => test (some a) fun status => do
    if status = 0 then return (status, false) else done (← inner (some b) m)
  | .sequence a b => before (some a) m.inner fun _ => do done (← inner (some b) m)
  | .choice condition yes no => test condition fun status => do
    if status = 0 then done (← inner yes m)
    else if no.isSome then done (← inner no m)
    else done 0
  | .loop whileTrue condition body => inLoop (evalLoop inner whileTrue condition body m.inner)
  | .iteration line name words body =>
    atLine line
    let fields ← words.mapM (expandFields (captureOutput inner))
    inLoop (evalEach inner name body m.inner fields.flatten)
  | .selection line word clauses =>
    atLine line
    let text ← expandText (captureOutput inner) word
    done (← evalClauses inner text.toList m clauses)
  | .definition line name body =>
    modify fun s => { s with
      functions := (name, ⟨line, body⟩) :: s.functions.filter (·.1 != name) }
    done 0

def eval : Nat → Body → Manner → Act Nat
  | 0, _, _ => quit .mistake
  | fuel + 1, body, m => do
    let (status, checked) ← match body, ← isOn 'n' with
      | some n, false =>
        runTraps (eval fuel)
        evalNode (eval fuel) m n
      | _, _ => pure (0, false)
    runTraps (eval fuel)
    if m.last || (checked && !m.tested && status ≠ 0 && (← isOn 'e')) then quit .ended
    return (← get).status

end Act

end JobShell.Script
