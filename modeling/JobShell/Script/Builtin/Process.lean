import JobShell.Script.Builtin.Options
import JobShell.Script.Job

/-!
Commands about processes: signals, traps and jobs.
-/

namespace JobShell.Script.Processes

open Act

/-! ### Signals -/

def signalName (s : Signal) : String := if s = 16 then "16" else s.name

def signal? (first : Signal) (text : String) : Option Signal :=
  if !text.isEmpty && text.toList.all Char.isDigit then Signal.ofDigits? text
  else (Signal.decode? first text).filter (· ≠ 16)

def usage : String :=
  "Usage: kill [-s sigspec | -signum | -sigspec] [pid | job]... or\nkill -l [exitstatus]"

def listSignals (args : List String) : Act Nat := do
  match args with
  | [] =>
    say "0\n"
    (List.range (Signal.bound - 1)).forM fun n => say (signalName (n + 1) ++ "\n")
    return 0
  | a :: _ =>
    let n ← number a
    let n := if 128 < n then n - 128 else n
    if 0 < n && n < Signal.bound then
      say (signalName n ++ "\n")
      return 0
    else fail s!"invalid signal number or exit status: {a}"

def sendAll (s : Signal) (ok : Bool) : List String → Act Bool
  | [] => return ok
  | a :: args => do
    let target : Int ←
      match a.toList with
      | '%' :: _ => do
        let j ← jobNamed a
        pure (-(((j.processes.head?.map (·.1)).getD 0 : Nat) : Int))
      | '-' :: cs => do
        let n ← number (String.ofList cs)
        pure (-(n : Int))
      | _ => do
        let n ← number a
        pure (n : Int)
    match ← ask (Action.kill target s) with
    | none => sendAll s ok args
    | some e =>
      warn (e.reason ++ "\n")
      sendAll s false args

def kill (args : List String) : Act Nat := do
  let direct : Option Signal :=
    match args with
    | a :: _ =>
      match a.toList with
      | '-' :: c :: cs => signal? 1 (String.ofList (c :: cs))
      | _ => none
    | [] => none
  match direct with
  | some s =>
    if args.tail.isEmpty then fail usage
    else return if ← sendAll s true args.tail then 0 else 1
  | none =>
    let (found, rest) ← options "ls:" args
    let chosen : Signal ←
      match found.find? (·.1 == 's') with
      | none => pure Signal.terminate
      | some (_, text) =>
        match signal? 1 text with
        | some s => pure s
        | none => fail s!"invalid signal number or name: {text}"
    if found.any (·.1 == 'l') then listSignals rest
    else if rest.isEmpty then fail usage
    else return if ← sendAll chosen true rest then 0 else 1

/-! ### Traps -/

/-- Arranges for a signal what its trap asks for. The shell itself catches interruptions while it
runs a script. What was ignored from the start stays ignored. -/
def arrangeFor (sig : Signal) : Act Unit := do
  let s ← get
  let wanted : Disposition :=
    match s.traps.lookup sig with
    | some "" => .ignore
    | some _ => .heed
    | none => if sig = Signal.interrupt && s.isRoot && s.hasScript then .heed else .default
  let old ← arrange sig wanted
  if old = .ignore && !s.arranged.contains sig then
    let _ ← arrange sig .ignore
  else set { s with arranged := sig :: s.arranged }

def setTraps (action : Option String) : List String → Act Nat
  | [] => return 0
  | a :: args => do
    match signal? 0 a with
    | none =>
      writeTo 2 s!"trap: {a}: bad trap\n"
      return 1
    | some sig =>
      modify fun s => { s with
        traps := (match action with | some t => [(sig, t)] | none => []) ++
          s.traps.filter (·.1 != sig) }
      if sig ≠ 0 then arrangeFor sig
      setTraps action args

def trap (args : List String) : Act Nat := do
  match ← operands args with
  | [] =>
    let s ← get
    (List.range Signal.bound).forM fun sig =>
      match s.traps.lookup sig with
      | some t => say s!"trap -- {quoted t} {signalName sig}\n"
      | none => pure ()
    return 0
  | [a] => setTraps none [a]
  | a :: args =>
    if a.toList.all Char.isDigit && (Signal.ofDigits? a).isSome then setTraps none (a :: args)
    else setTraps (if a = "-" then none else some a) args

/-! ### Jobs -/

def interruption : Act Nat := do
  let caught ← takeCaught
  modify fun s => { s with signals := s.signals ++ caught }
  return 128 + ((← get).signals.getLast?).getD 0

def markWaited (number : Nat) : Act Unit := modify fun s =>
  { s with jobs := s.jobs.map fun j => if j.number = number then { j with waited := true } else j }

def waitAll : Nat → Act Nat
  | 0 => return 0
  | fuel + 1 => do
    let s ← get
    if s.jobs.all (·.isDone) then
      modify fun s => { s with jobs := s.jobs.map fun (j : Job) => { j with waited := true } }
      return 0
    else
      match ← await true true with
      | .ended pid how =>
        modify (·.recordEnd pid how)
        waitAll fuel
      | .interrupted => interruption
      | .nothing => return 0

def waitEach (code : Nat) : List String → Act Nat
  | [] => return code
  | a :: args => do
    let job : Option Job ←
      if a.toList.head? = some '%' then do
        let j ← jobNamed a
        pure (some j)
      else do
        let pid ← number a
        let s ← get
        pure (s.jobs.find? fun j => (j.processes.getLast?.map (·.1)) = some pid)
    match job with
    | none => waitEach 127 args
    | some j =>
      if ← waitUntilDone true j.number Program.patience then
        markWaited j.number
        waitEach (((← get).job? j.number).map Job.code |>.getD 0) args
      else interruption

def wait (args : List String) : Act Nat := do
  match ← operands args with
  | [] => waitAll Program.patience
  | args => waitEach 127 args

def showJob (letters : Chars) (j : Job) : Act Unit := do
  let s ← get
  let i := ((s.jobs.takeWhile (·.number != j.number)).filter (!·.isDone)).length
  let pid := (j.processes.head?.map (·.1)).getD 0
  if letters.contains 'p' then say s!"{pid}\n"
  else
    let sign := if i = 0 then "+" else if i = 1 then "-" else " "
    let shownPid := if letters.contains 'l' then s!"{pid} " else ""
    let front := s!"[{j.number}] {sign} " ++ shownPid ++ j.state
    say (front ++ String.ofList (List.replicate (33 - front.length) ' ') ++ "\n")

/-- Lists jobs, the last one first unless they are named, and forgets those that are done. -/
def jobs (args : List String) : Act Nat := do
  let (found, names) ← options "lp" args
  let shown ←
    if names.isEmpty then do
      reap Program.patience
      pure (← get).jobs
    else names.mapM jobNamed
  shown.forM (showJob (found.map (·.1)))
  modify fun s => { s with
    jobs := s.jobs.filter fun j => !(j.isDone && shown.any (·.number == j.number)) }
  return 0

def toFront (args : List String) : Act Nat := do
  match ← operands args with
  | [] =>
    let _ ← jobNamed "%"
    fail "job (null) not created under job control"
  | a :: _ =>
    let _ ← jobNamed a
    fail s!"job {a} not created under job control"

/-! ### Limits -/

def octalMask? (text : String) : Option Nat :=
  let ds := text.toList.filterMap fun c => if '0' ≤ c && c ≤ '7' then some (c.toNat - 48) else none
  if ds.length = text.length && !text.isEmpty then some (ds.foldl (fun n d => n * 8 + d) 0 % 512)
  else none

def maskText (mask : Nat) : String :=
  "0" ++ String.ofList ([mask / 64 % 8, mask / 8 % 8, mask % 8].map fun d => Char.ofNat (48 + d))

def maskLetters (mask : Nat) : String :=
  let group (who : String) (bits : Nat) : String :=
    let letter (bit : Nat) (shown : String) : String := if bits / bit % 2 = 0 then shown else ""
    who ++ "=" ++ letter 4 "r" ++ letter 2 "w" ++ letter 1 "x"
  ",".intercalate [group "u" (mask / 64), group "g" (mask / 8), group "o" mask]

def placeOf? : Char → Option Nat
  | 'u' => some 64
  | 'g' => some 8
  | 'o' => some 1
  | _ => none

/-- The bits that letters after an operator stand for, in each of the three places. -/
def bitsOf? (mode : Nat) (c : Char) : Option Nat :=
  match c with
  | 'r' => some 4
  | 'w' => some 2
  | 'x' | 'X' => some 1
  | 's' | 't' => some 0
  | c => (placeOf? c).map fun p => mode / p % 8

/-- Applies operators and letters to a mode; `places` are those that change, and `kept` the bits
that stay as they are. -/
def applyLetters (places : List Nat) (kept : Nat) (mode : Nat) : Chars → Char → Option Nat
  | [], _ => some mode
  | c :: cs, op =>
    let spread (bits : Nat) : Nat := (places.foldl (fun n p => n ||| bits * p) 0) &&& (511 ^^^ kept)
    if c = '+' || c = '-' then applyLetters places kept mode cs c
    else if c = '=' then applyLetters places kept (mode &&& (511 ^^^ spread 7)) cs '+'
    else
      (bitsOf? mode c).bind fun bits =>
        let changed := if op = '-' then mode &&& (511 ^^^ spread bits) else mode ||| spread bits
        applyLetters places kept changed cs op

def letterMask? (mask : Nat) (text : String) : Option Nat :=
  let clause (mode : Nat) (cs : Chars) : Option Nat :=
    let who := cs.takeWhile fun c => c == 'a' || (placeOf? c).isSome
    let rest := cs.drop who.length
    let places := if who.isEmpty || who.contains 'a' then [64, 8, 1] else who.filterMap placeOf?
    if !(rest.head?.any ['+', '-', '='].contains) then none
    else applyLetters places (if who.isEmpty then mask else 0) mode rest '+'
  ((text.toList.splitOn ',').foldlM clause (511 ^^^ mask)).map (511 ^^^ ·)

def umask (args : List String) : Act Nat := do
  let (found, rest) ← options "S" args
  match rest with
  | [] =>
    let mask := (← get).mask
    say ((if found.isEmpty then maskText mask else maskLetters mask) ++ "\n")
    return 0
  | a :: _ =>
    let isNumber := (a.toList.head?.map Char.isDigit).getD false
    let mask := (← get).mask
    match if isNumber then octalMask? a else letterMask? mask a with
    | some mask =>
      modify ({ · with mask })
      return 0
    | none => if isNumber then illegal a else fail s!"Illegal mode: {a}"

def ulimit (args : List String) : Act Nat := do
  let (_, rest) ← options "HSatfdscmlpnvwr" args
  if rest.isEmpty then say "unlimited\n"
  return 0

def times (_ : List String) : Act Nat := do
  say "0m0.000000s 0m0.000000s\n0m0.000000s 0m0.000000s\n"
  return 0

end JobShell.Script.Processes
