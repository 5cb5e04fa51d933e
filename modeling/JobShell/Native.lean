import JobShell.Launch
import JobShell.Route
import JobShell.System.Install

/-!
Jobs of processes: one process a command, each fed by the one before.

The streams at the two ends and the common error stream are the shell's own unless they are tapped.
If a process cannot be started, those started before are killed.
-/

namespace JobShell

structure Native where
  launches : List Launch
  group : Option Pid := none
  processes : List (Pid × Process.State) := []
  /-- The shell's end of the input. -/
  feed : Option Nat := none
  /-- The streams that the shell still reads. -/
  openStreams : Nat := 0
  failed : Bool := false

namespace Native

/-! ### Redirections -/

/-- A descriptor a process can have redirected. -/
def slot (fd : Int) : Except String Nat :=
  if fd = 0 then .ok 0
  else if fd = 1 then .ok 1
  else if fd = 2 then .ok 2
  else .error s!"{fd}: unsupported file descriptor"

def source (s : System) (streams : Streams) (r : Redirection) :
    Except String (Endpoint × System) :=
  match r.target with
  | .close => .ok (.null, s)
  | .fd n => (slot n).map fun fd => (streams.get fd, s)
  | .file path =>
    let mode : OpenMode :=
      match r.op with
      | .input | .dupInput => .reading
      | .append => .appending
      | .output | .dupOutput => .writing
    (s.openOwn path mode).mapError fun e => s!"{path}: {e.message}"

/-- Follows redirections from left to right. Files that were made before one of them fails stay. -/
def redirect (s : System) (streams : Streams) : List Redirection → Except String Streams × System
  | [] => (.ok streams, s)
  | r :: rs =>
    match source s streams r with
    | .error e => (.error e, s)
    | .ok (e, s) =>
      match slot r.fd with
      | .error e => (.error e, s)
      | .ok fd => redirect s (streams.set fd e) rs

/-! ### Starting -/

/-- A job that is being started: the pipe from its last process, and what went wrong. -/
structure Starting where
  native : Native
  system : System
  incoming : Option Nat := none
  diagnostic : Option String := none

def describe (name : String) : SystemError → String
  | .code 2 => s!"{name}: command not found\n"
  | .code 1 | .code 13 => s!"{name}: permission denied\n"
  | e => s!"{name}: {e.message}\n"

/-- What a process reads from: the process before it, the shell, or what the shell reads from. The
shell's end of a pipe comes with it. -/
def inputEnd (s : System) (incoming : Option Nat) (fed : Bool) : Endpoint × Option Nat × System :=
  match incoming with
  | some pipe => (.reader pipe, none, s)
  | none =>
    if fed then let (pipe, s) := s.makePipe; (.reader pipe, some pipe, s)
    else (.own 0, none, s)

/-- What a process writes to: a pipe, or what the shell writes to. -/
def outputEnd (s : System) (piped : Bool) : Endpoint × Option Nat × System :=
  if piped then let (pipe, s) := s.makePipe; (.writer pipe, some pipe, s)
  else (.own 1, none, s)

def startOne (job : JobId) (taps : Taps) (errors : Option Nat) (index : Nat) (last : Bool)
    (l : Launch) (st : Starting) : Starting :=
  let n := st.native
  let (stdin, feed, s) := inputEnd st.system st.incoming (index == 0 && taps.stdin)
  let (stdout, piped, s) := outputEnd s (!last || taps.stdout)
  let stderr : Endpoint := errors.elim (.own 2) .writer
  match redirect s ⟨stdin, stdout, stderr⟩ l.redirections with
  | (.error e, s) =>
    { st with native := { n with failed := true }, system := s,
              diagnostic := some s!"{l.name}: {e}\n" }
  | (.ok streams, s) =>
    let env := Bindings.override s.world.env l.renderedEnv
    match s.launch l.name l.args env streams.settled n.group with
    | .error e =>
      { st with native := { n with failed := true }, system := s,
                diagnostic := some (describe l.name e) }
    | .ok (pid, s) =>
      let s : System := feed.elim s fun pipe => { s with feeds := s.feeds ++ [{ pipe }] }
      let tapped := last && taps.stdout
      let s : System :=
        if tapped then
          piped.elim s fun pipe => { s with taps := s.taps ++ [⟨pipe, job, .stdout⟩] }
        else s
      { native := { n with
          group := n.group <|> some pid
          processes := n.processes ++ [(pid, .running)]
          feed := if feed.isSome then some (s.feeds.length - 1) else n.feed
          openStreams := n.openStreams + if tapped then 1 else 0 }
        system := s
        incoming := if last then none else piped }

def startAll (job : JobId) (taps : Taps) (errors : Option Nat) :
    Nat → List Launch → Starting → Starting
  | _, [], st => st
  | index, l :: ls, st =>
    let st := startOne job taps errors index ls.isEmpty l st
    if st.native.failed then st else startAll job taps errors (index + 1) ls st

def closeFeed (n : Native) (s : System) : Native × System :=
  ({ n with feed := none },
    match n.feed with
    | some i => { s with feeds := s.feeds.modify i fun f => { f with isOpen := false } }
    | none => s)

def signal (n : Native) (s : System) (sig : Signal) : System :=
  n.group.elim s fun group => s.signalGroup group sig

/-- Makes the common error stream, if it is to be read by the shell. -/
def makeErrors (s : System) (tapped : Bool) : Option Nat × System :=
  if tapped then let (pipe, s) := s.makePipe; (some pipe, s) else (none, s)

/-- Reads the common error stream, if there is a process that writes to it. -/
def tapErrors (job : JobId) (errors : Option Nat) (n : Native) (s : System) : Native × System :=
  match errors with
  | some pipe =>
    if n.processes.isEmpty then (n, s)
    else
      ({ n with openStreams := n.openStreams + 1 },
        { s with taps := s.taps ++ [⟨pipe, job, .stderr⟩] })
  | none => (n, s)

/-- Starts the processes of a job, and says what went wrong. -/
def start (job : JobId) (taps : Taps) (n : Native) (s : System) :
    Option String × Native × System :=
  let (errors, s) := makeErrors s taps.stderr
  let st := startAll job taps errors 0 n.launches { native := n, system := s }
  let (n, s) := tapErrors job errors st.native st.system
  let watches := n.processes.mapIdx fun index (pid, _) => (⟨pid, job, index⟩ : Watch)
  let s := { s with watches := s.watches ++ watches }
  if n.failed then
    let (n, s) := n.closeFeed s
    (st.diagnostic, n, n.signal s .kill)
  else (st.diagnostic, n, s)

/-! ### While it runs -/

def write (n : Native) (s : System) (data : Bytes) : System :=
  match n.feed.bind (s.feeds[·]?) with
  | some f => if s.hasReader f.pipe then s.setPipe f.pipe (s.pipe f.pipe ++ data) else s
  | none => s

def streamClosed (n : Native) : Native := { n with openStreams := n.openStreams - 1 }

def processChanged (n : Native) (index : Nat) (change : ProcessChange) : Native :=
  let state : Process.State :=
    match change with
    | .exited status => .exited (.status status)
    | .stopped => .stopped
    | .continued => .running
  { n with processes := n.processes.modify index fun (pid, _) => (pid, state) }

def hasExited : Process.State → Bool
  | .exited _ => true
  | _ => false

def isFinished (n : Native) : Bool := n.openStreams == 0 && n.processes.all (hasExited ·.2)

def isStopped (n : Native) : Bool :=
  n.processes.all (·.2 != .running) && n.processes.any (·.2 == .stopped)

def exitStatus (n : Native) (failedStatus : Int) : Int :=
  if n.failed then failedStatus
  else
    match n.processes.getLast? with
    | some (_, .exited how) => how.reported
    | _ => failedStatus

def brokenPipe (n : Native) (s : System) : Native × System :=
  let (n, s) := n.closeFeed s
  (n, if n.isFinished then s else n.signal s .pipe)

end Native

end JobShell
