import JobShell.Chain
import JobShell.Config
import JobShell.Expansion.Word
import JobShell.Hub.Basic
import JobShell.Native
import JobShell.Stores

/-!
The state of the engine that runs command trees.

Work that is put off stands in a queue of tasks, and what is to follow when something completes is
subscribed to its hub. Both are data: a runner is a list of steps with the place it has got to, a
loop the values it has still to run for.
-/

namespace JobShell

/-- What a list of commands is run in: bindings, variables, and where its output goes. -/
structure Context where
  scope : Scope := {}
  store : StoreId := Stores.root
  route : Route := .terminal

namespace Context

def inBackground (c : Context) : Context := { c with route := .console }

end Context

/-- A step of a list: a command that is ready, or an item that is evaluated in its turn. -/
inductive Step where
  | ready (c : Command)
  | item (i : Tree.Item)

/-- A list that is being run, with the steps to come and the statuses of the last step that was
waited for and of the last one that was not. -/
structure Runner where
  hub : HubId
  steps : List Step
  ctx : Context
  foreground : Option Int := none
  background : Option Int := none

structure Loop where
  hub : HubId
  name : String
  values : List Value
  body : List Tree.Item
  ctx : Context
  status : Int := 0

/-- What is done with the status of a hub. -/
inductive Callback where
  | runner (r : Runner)
  | logical (hub : HubId) (op : Tree.Connective) (right : Tree.Node) (ctx : Context)
  | branch (hub : HubId) (onSuccess onFailure : Option (List Tree.Item)) (ctx : Context)
  | loop (l : Loop)
  | subshell (hub : HubId) (store : StoreId)
  | negate (hub : HubId)

inductive Task where
  | advance (r : Runner)
  | complete (hub : HubId) (status : Int)
  | loop (hub : HubId) (name : String) (words : List Tree.Word) (body : List Tree.Item)
      (ctx : Context)
  | choice (hub : HubId) (subject : Tree.Word) (arms : List Tree.Arm) (ctx : Context)
  | finalize (pending : Chain.Pending) (store : StoreId)
  | flush (hub : HubId)
  | runChain (job : JobId)
  | fail (job : JobId)

inductive Job.Body where
  | chain (c : Chain)
  | native (n : Native)

structure Job where
  body : Job.Body
  state : JobState := .unstarted
  /-- The status it has once it is settled. -/
  status : Option Int := none
  mode : Mode := .background
  hub : HubId
  store : StoreId
  stdout : Sink
  stderr : Sink
  feeder : Option JobId := none
  tableId : Option Nat
  command : String
  /-- Whether processes of this job may still report. -/
  live : Bool := false

def Job.sink (j : Job) : Stream → Sink
  | .stdout => j.stdout
  | .stderr => j.stderr

structure Buffers where
  stdout : Bytes := []
  stderr : Bytes := []

/-- What buffers hold when something was written to them. -/
def Buffers.add (b : Buffers) : Stream → Bytes → Buffers
  | .stdout, data => { b with stdout := b.stdout ++ data }
  | .stderr, data => { b with stderr := b.stderr ++ data }

structure Engine where
  config : Config := {}
  services : Services := {}
  system : System := {}
  console : Console := .transcript []
  hubs : Hubs Callback := {}
  /-- The jobs there are, in the order they were made. -/
  jobs : List (JobId × Job) := []
  nextJob : JobId := 1
  table : JobTable := {}
  stores : Stores := {}
  captures : Slab Buffers := {}
  tasks : List Task := []
  events : List Event := []
  /-- How many jobs have processes that may still report. -/
  live : Nat := 0
  /-- The job that has the terminal. -/
  owner : Option JobId := none

namespace Engine

/-! ### Console -/

def write (e : Engine) (channel : Channel) (data : Bytes) : Engine :=
  let (console, terminal) := e.console.write channel data e.system.world.terminal
  { e with console, system := { e.system with world := { e.system.world with terminal } } }

def notice (e : Engine) (info : JobInfo) : Engine :=
  let (console, terminal) := e.console.notice info e.system.world.terminal
  { e with console, system := { e.system with world := { e.system.world with terminal } } }

def report (e : Engine) (f : Fault) : Engine := e.write .err (Text.encode f.report)

/-! ### Tasks, hubs and jobs -/

abbrev withTasks (e : Engine) (tasks : List Task) : Engine := { e with tasks }

def defer (e : Engine) (t : Task) : Engine := e.withTasks (e.tasks ++ [t])

def createHub (e : Engine) (parent : Option HubId) : HubId × Engine :=
  let (hub, hubs) := e.hubs.create parent
  (hub, { e with hubs })

/-- Subscribes to a hub; one that completed calls back on a later turn. -/
def subscribe (e : Engine) (hub : HubId) (callback : Callback) : Except Fault Engine :=
  match e.hubs.subscribe hub callback with
  | none => .error (.unknownHub hub)
  | some (_, hubs) =>
    let done := (e.hubs.status? hub).isSome
    .ok (if done then { e with hubs }.defer (.flush hub) else { e with hubs })

def job? (e : Engine) (id : JobId) : Option Job := e.jobs.lookup id

def setJob (e : Engine) (id : JobId) (j : Job) : Engine :=
  { e with jobs := e.jobs.map fun (i, k) => if i = id then (i, j) else (i, k) }

def native? (e : Engine) (id : JobId) : Option (Job × Native) :=
  match e.job? id with
  | some j =>
    match j.body with
    | .native n => some (j, n)
    | .chain _ => none
  | none => none

def chain? (e : Engine) (id : JobId) : Option (Job × Chain) :=
  match e.job? id with
  | some j =>
    match j.body with
    | .chain c => some (j, c)
    | .native _ => none
  | none => none

def eraseJob (e : Engine) (id : JobId) : Engine :=
  { e with jobs := e.jobs.filter (·.1 != id) }

def valueOf (e : Engine) (store : StoreId) (name : String) : Value :=
  match e.stores.get? store name with
  | some v => v
  | none => .text ((e.system.world.env.get? name).getD "")

end Engine

end JobShell
