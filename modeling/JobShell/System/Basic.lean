import JobShell.Console
import JobShell.System.Program

/-!
The operating system as the shell meets it: processes, pipes and open files.
-/

namespace JobShell

inductive Stream where
  | stdout
  | stderr
  deriving DecidableEq, Repr

inductive ProcessChange where
  | exited (status : Int)
  | stopped
  | continued
  deriving DecidableEq, Repr

/-- What the shell hears of while it waits. -/
inductive Event where
  | output (job : JobId) (stream : Stream) (data : Bytes)
  | closed (job : JobId) (stream : Stream)
  | process (job : JobId) (index : Nat) (change : ProcessChange)
  | interrupt
  deriving DecidableEq

/-- The status that stands for the end of a process. Signals past the standard ones count as
nothing. -/
def Ending.reported : Ending → Int
  | .status n => n
  | .signal s => if s ≤ 31 then 128 + s else 0

/-- What a descriptor is connected to; `own` is a stream of the shell itself. -/
inductive Endpoint where
  | device (d : Device) (access : Access)
  | own (fd : Nat)
  | reader (pipe : Nat)
  | writer (pipe : Nat)
  | file (id : Nat)
  deriving DecidableEq, Repr

/-- The null device. -/
abbrev Endpoint.null : Endpoint := .device .null .both

structure Streams where
  stdin : Endpoint
  stdout : Endpoint
  stderr : Endpoint
  deriving DecidableEq

namespace Streams

def get (s : Streams) (fd : Nat) : Endpoint :=
  if fd = 0 then s.stdin else if fd = 1 then s.stdout else s.stderr

def set (s : Streams) (fd : Nat) (e : Endpoint) : Streams :=
  if fd = 0 then { s with stdin := e }
  else if fd = 1 then { s with stdout := e }
  else { s with stderr := e }

/-- Connects streams that lead nowhere to the null device, open only in their own direction. -/
def settled (s : Streams) : Streams :=
  let settle (access : Access) (e : Endpoint) : Endpoint :=
    if e = .null then .device .null access else e
  ⟨settle .read s.stdin, settle .write s.stdout, settle .write s.stderr⟩

end Streams

/-- A descriptor; a transient one is closed when another program takes over. -/
structure Descriptor where
  endpoint : Endpoint
  transient : Bool := false

/-- The descriptors of a process by their numbers. -/
abbrev Descriptors := List (Nat × Descriptor)

namespace Descriptors

def get? (d : Descriptors) (fd : Nat) : Option Endpoint := (d.lookup fd).map (·.endpoint)

def erase (d : Descriptors) (fd : Nat) : Descriptors := d.filter (·.1 != fd)

def set (d : Descriptors) (fd : Nat) (x : Descriptor) : Descriptors := (fd, x) :: d.erase fd

def firstFree (d : Descriptors) (least : Nat) : Nat :=
  ((List.range (d.length + 1)).map (least + ·)).find? (fun n => (d.lookup n).isNone) |>.getD least

def uses (d : Descriptors) (e : Endpoint) : Bool := d.any (·.2.endpoint == e)

def ofStreams (s : Streams) : Descriptors := [(0, ⟨s.stdin, false⟩), (1, ⟨s.stdout, false⟩),
  (2, ⟨s.stderr, false⟩)]

end Descriptors

/-- A file in use, and where in it. Copies of a descriptor share both. -/
structure OpenFile where
  place : Place
  access : Access := .read
  offset : Nat := 0
  append : Bool := false

inductive Process.State where
  | running
  | stopped
  | exited (how : Ending)
  deriving DecidableEq

structure Process where
  pid : Pid
  parent : Pid
  group : Pid
  descriptors : Descriptors
  cwd : Place
  program : Program
  state : Process.State := .running
  /-- When a sleeper wakes. -/
  wake : Option Nat := none
  dispositions : List (Signal × Disposition) := []
  /-- Signals that were caught and not looked at yet. -/
  caught : List Signal := []
  /-- Signals that wait until it goes on. -/
  pending : List Signal := []

namespace Process

def alive (p : Process) : Bool :=
  match p.state with
  | .exited _ => false
  | _ => true

def disposition (p : Process) (s : Signal) : Disposition := (p.dispositions.lookup s).getD .default

end Process

/-- A pipe that the shell reads for a job. -/
structure Tap where
  pipe : Nat
  job : JobId
  stream : Stream

/-- A process the shell wants to hear of. -/
structure Watch where
  pid : Pid
  job : JobId
  index : Nat

/-- A pipe that the shell writes to. -/
structure Feed where
  pipe : Nat
  isOpen : Bool := true

/-- The programs that can be started, by name. -/
abbrev Programs := List (String × (Start → Program))

structure System where
  world : World := {}
  programs : Programs := []
  /-- What is in each pipe. -/
  pipes : List Bytes := []
  files : List OpenFile := []
  processes : List Process := []
  nextPid : Pid := 2
  taps : List Tap := []
  watches : List Watch := []
  feeds : List Feed := []
  /-- Microseconds since the start. -/
  clock : Nat := 0
  /-- What happened and has not been told. -/
  events : List Event := []

namespace System

def shellPid : Pid := 1

def tell (s : System) (e : Event) : System := { s with events := s.events ++ [e] }

def process? (s : System) (pid : Pid) : Option Process := s.processes.find? (·.pid == pid)

def setProcess (s : System) (p : Process) : System :=
  { s with processes := s.processes.map fun q => if q.pid = p.pid then p else q }

/-! ### Pipes -/

def makePipe (s : System) : Nat × System :=
  (s.pipes.length, { s with pipes := s.pipes ++ [[]] })

def pipe (s : System) (id : Nat) : Bytes := (s.pipes[id]?).getD []

def setPipe (s : System) (id : Nat) (data : Bytes) : System :=
  { s with pipes := s.pipes.set id data }

def holds (s : System) (e : Endpoint) : Bool :=
  s.processes.any fun p => p.alive && p.descriptors.uses e

def hasWriter (s : System) (id : Nat) : Bool :=
  s.feeds.any (fun f => f.isOpen && f.pipe == id) || s.holds (.writer id)

def hasReader (s : System) (id : Nat) : Bool :=
  s.taps.any (·.pipe == id) || s.holds (.reader id)

def pipeSize : Nat := 65536

def pieces (data : Bytes) : List Bytes :=
  (List.range ((data.length + 8191) / 8192)).map fun i => (data.drop (8192 * i)).take 8192

def drainTap (s : System) (t : Tap) : System :=
  let data := s.pipe t.pipe
  let s :=
    if data.isEmpty then s
    else (pieces data).foldl (fun s d => s.tell (.output t.job t.stream d)) (s.setPipe t.pipe [])
  if s.hasWriter t.pipe then s
  else { s with taps := s.taps.filter (·.pipe != t.pipe) }.tell (.closed t.job t.stream)

def drain (s : System) : System := s.taps.foldl drainTap s

def takeEvents (s : System) : List Event × System := (s.events, { s with events := [] })

end System

end JobShell
