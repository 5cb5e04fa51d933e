import JobShell.System.Exec
import JobShell.System.Files

/-!
Processes: how they start and end, how signals reach them, and what their requests do.
-/

namespace JobShell.System

/-! ### Ending -/

def tellChange (s : System) (pid : Pid) (change : ProcessChange) : System :=
  match s.watches.find? (·.pid == pid) with
  | some w => s.tell (.process w.job w.index change)
  | none => s

/-- Takes a process that ended out of the table, and gives its children to nobody. -/
def reap (s : System) (pid : Pid) : System :=
  { s with processes := s.processes.filter (·.pid != pid) }

def isAwaited (s : System) (p : Process) : Bool :=
  s.processes.any fun q => q.pid == p.parent && q.alive

/-- The children of a process that ended have no parent any more; those that ended before are
forgotten. -/
def orphan (s : System) (pid : Pid) : System :=
  { s with processes := s.processes.filterMap fun q =>
      if q.parent = pid then if q.alive then some { q with parent := 0 } else none else some q }

def catchSignal (s : System) (pid : Pid) (sig : Signal) : System :=
  match s.process? pid with
  | some p =>
    if p.disposition sig = .heed && !p.caught.contains sig then
      s.setProcess { p with caught := p.caught ++ [sig] }
    else s
  | none => s

def finish (s : System) (p : Process) (how : Ending) : System :=
  let s := (s.setProcess { p with state := .exited how, descriptors := [] }).orphan p.pid
  let s := if s.isAwaited p then s.catchSignal p.parent Signal.child else s.reap p.pid
  s.drain.tellChange p.pid (.exited how.reported)

/-! ### Signals -/

/-- What a signal does to a process by itself. One that is stopped is not ended before it goes
on. -/
def suffer (s : System) (p : Process) (sig : Signal) : System :=
  match sig.effect with
  | .ignore | .resume => s
  | .stop =>
    if p.state = .stopped then s
    else (s.setProcess { p with state := .stopped }).tellChange p.pid .stopped
  | .terminate =>
    if p.state = .stopped then s.setProcess { p with pending := p.pending ++ [sig] }
    else s.finish p (.signal sig)

def goOn (s : System) (p : Process) : System :=
  if p.state = .stopped then
    let p := { p with state := .running }
    let s := (s.setProcess { p with pending := [] }).tellChange p.pid .continued
    match p.pending with
    | sig :: _ => s.suffer { p with pending := [] } sig
    | [] => s
  else s

def deliver (s : System) (sig : Signal) (pid : Pid) : System :=
  match s.process? pid with
  | none => s
  | some p =>
    if !p.alive || sig = 0 then s
    else if sig = Signal.kill then s.finish p (.signal sig)
    else
      let s := if sig = Signal.resume then s.goOn p else s
      if sig.isFirm then s.suffer p sig
      else
        match p.disposition sig with
        | .ignore => s
        | .heed => s.catchSignal pid sig
        | .default => s.suffer p sig

def signalGroup (s : System) (group : Pid) (sig : Signal) : System :=
  ((s.processes.filter (·.group == group)).map (·.pid)).foldl (fun s pid => s.deliver sig pid) s

/-- The processes that a number names for a sender: one of them, its own group, another group, or
all but the sender. -/
def targets (s : System) (sender : Process) (target : Int) : List Pid :=
  let chosen (f : Process → Bool) : List Pid := (s.processes.filter f).map (·.pid)
  if 0 < target then chosen fun p => (p.pid : Int) = target
  else if target = 0 then chosen (·.group == sender.group)
  else if target = -1 then chosen (·.pid != sender.pid)
  else chosen fun p => (p.group : Int) = -target

def unreachable? (s : System) (sender : Process) (target : Int) : Option SystemError :=
  if (s.targets sender target).isEmpty && target != shellPid then some .noProcess else none

def send (s : System) (sender : Process) (target : Int) (sig : Signal) : System :=
  (s.targets sender target).foldl (fun s pid => s.deliver sig pid) s

/-! ### Starting -/

def startup : Nat := 400

def spawn (s : System) (group : Option Pid) (streams : Streams) (program : Program) :
    Pid × System :=
  let pid := s.nextPid
  (pid, { s with
    nextPid := pid + 1
    processes := s.processes ++ [{
      pid, parent := shellPid, group := group.getD pid, descriptors := .ofStreams streams,
      cwd := s.world.cwd, program := .sleep startup program }] })

def fork (s : System) (p : Process) (program : Program) : Pid × System :=
  let pid := s.nextPid
  (pid, { s with
    nextPid := pid + 1
    processes := s.processes ++ [{
      p with pid, parent := p.pid, program, caught := [], pending := [], wake := none }] })

/-- Lets the program of a file take over a process: transient descriptors are closed and caught
signals have their own effect again. -/
def exec (s : System) (p : Process) (path : String) (start : Start) :
    Except SystemError Process := do
  let program ← s.world.files.programAt p.cwd (Text.ofOctets path)
  if start.isTooLong then .error .tooManyArguments
  else
    match s.programs.lookup program with
    | none => .error .badFormat
    | some run =>
      return { p with
        program := .sleep startup (run start)
        descriptors := p.descriptors.filter (!·.2.transient)
        dispositions := p.dispositions.filter (·.2 != .heed)
        caught := [] }

/-! ### Requests -/

def takeEnded (s : System) (parent : Pid) : Option (Pid × Ending × System) :=
  s.processes.findSome? fun p =>
    if p.parent = parent then
      match p.state with
      | .exited how => some (p.pid, how, s.reap p.pid)
      | _ => none
    else none

/-- Has a process go on with another program. -/
def proceed (s : System) (p : Process) (program : Program) : Option System :=
  some (s.setProcess { p with program })

def hasChild (s : System) (parent : Pid) : Bool := s.processes.any (·.parent == parent)

def writeFor (s : System) (p : Process) (fd : Nat) (data : Bytes)
    (next : Option SystemError → Program) : Option System :=
  match p.descriptors.get? fd with
  | none => s.proceed p (next (some .badDescriptor))
  | some e =>
    match s.write e data with
    | .blocked => none
    | .done .all s => s.proceed p (next none)
    | .done (.left rest) s => s.proceed p (.write fd rest next)
    | .done (.refused e) s => s.proceed p (next (some e))
    | .done .unread s =>
      some ((s.setProcess { p with program := next (some (.code 32)) }).deliver Signal.pipe p.pid)

def readFor (s : System) (p : Process) (fd count : Nat)
    (next : Except SystemError Bytes → Program) : Option System :=
  match p.descriptors.get? fd with
  | none => s.proceed p (next (.error .badDescriptor))
  | some e =>
    match s.read e count with
    | .done answer s => s.proceed p (next answer)
    | .blocked =>
      if p.caught.isEmpty then none
      else s.proceed p (next (.error .interrupted))

def awaitFor (s : System) (p : Process) (block interruptible : Bool)
    (next : Awaited → Program) : Option System :=
  match s.takeEnded p.pid with
  | some (pid, how, s) => s.proceed p (next (.ended pid how))
  | none =>
    if !block || !s.hasChild p.pid then s.proceed p (next .nothing)
    else if interruptible && !p.caught.isEmpty then
      s.proceed p (next .interrupted)
    else none

def changeFiles (s : System) (p : Process) (changed : Except SystemError FileSystem)
    (next : Option SystemError → Program) : Option System :=
  match changed with
  | .ok files => { s with world := { s.world with files } }.proceed p (next none)
  | .error e => s.proceed p (next (some e))

/-- Whether a process can make a directory its own; one that was removed stays where it is. -/
def enter (s : System) (p : Process) (path : String) : Except SystemError Process := do
  let files := s.world.files
  let place ← files.locate p.cwd path
  if files.isDirectory place || place == p.cwd then return { p with cwd := place }
  else .error .notDirectory

def act (s : System) (p : Process) : Option System :=
  match p.program with
  | .exit status => some (s.finish p (.status (status % 256 : Nat)))
  | .read fd count next => s.readFor p fd count next
  | .write fd data next => s.writeFor p fd data next
  | .seek fd distance next =>
    let (moved, s) := (p.descriptors.get? fd).elim (false, s) fun e => s.seek e distance
    s.proceed p (next moved)
  | .inspect fd next =>
    let answer : Except SystemError Inspection :=
      match p.descriptors.get? fd with
      | some e => .ok (s.inspect e)
      | none => .error .badDescriptor
    s.proceed p (next answer)
  | .openFile path mode next =>
    match s.openFile p.descriptors p.cwd (Text.ofOctets path) mode with
    | .ok (e, s) =>
      let fd := p.descriptors.firstFree 0
      let descriptors := p.descriptors.set fd ⟨e, false⟩
      s.proceed { p with descriptors } (next (.ok fd))
    | .error e => s.proceed p (next (.error e))
  | .saveFd fd least next =>
    match p.descriptors.get? fd with
    | some e =>
      let free := p.descriptors.firstFree least
      let descriptors := p.descriptors.set free ⟨e, true⟩
      s.proceed { p with descriptors } (next (.ok free))
    | none => s.proceed p (next (.error .badDescriptor))
  | .copyFd source target next =>
    match p.descriptors.get? source with
    | some e =>
      let descriptors :=
        if source = target then p.descriptors else p.descriptors.set target ⟨e, false⟩
      s.proceed { p with descriptors } (next none)
    | none => s.proceed p (next (some .badDescriptor))
  | .close fd next =>
    let answer := if (p.descriptors.get? fd).isSome then none else some .badDescriptor
    s.proceed { p with descriptors := p.descriptors.erase fd } (next answer)
  | .pipe next =>
    let (id, s) := s.makePipe
    let a := p.descriptors.firstFree 0
    let descriptors := p.descriptors.set a ⟨.reader id, false⟩
    let b := descriptors.firstFree 0
    s.proceed { p with descriptors := descriptors.set b ⟨.writer id, false⟩ } (next a b)
  | .fork child next =>
    let (pid, s) := s.fork p child
    s.proceed p (next pid)
  | .exec path args env next =>
    match s.exec p path ⟨args.headD "", args.tail, env⟩ with
    | .ok p => some (s.setProcess p)
    | .error e => s.proceed p (next e)
  | .await block interruptible next => s.awaitFor p block interruptible next
  | .kill target sig next =>
    let p := { p with program := next (s.unreachable? p target) }
    some ((s.setProcess p).send p target sig)
  | .arrange sig d next =>
    let dispositions := (sig, d) :: p.dispositions.filter (·.1 != sig)
    s.proceed { p with dispositions } (next (p.disposition sig))
  | .caught next => s.proceed { p with caught := [] } (next p.caught)
  | .sleep microseconds next =>
    match p.wake with
    | none => some (s.setProcess { p with wake := some (s.clock + microseconds) })
    | some time =>
      if time ≤ s.clock then s.proceed { p with wake := none } next else none
  | .identify next => s.proceed p (next p.pid p.parent)
  | .look next => s.proceed p (next s.world.files p.cwd)
  | .enter path next =>
    match s.enter p (Text.ofOctets path) with
    | .ok p => s.proceed p (next none)
    | .error e => s.proceed p (next (some e))
  | .removeDirectory path next =>
    s.changeFiles p (s.world.files.removeDirectory p.cwd (Text.ofOctets path)) next

end JobShell.System
