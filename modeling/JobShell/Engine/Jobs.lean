import JobShell.Engine.Basic

/-!
The life of a job: it is made, started, fed, stopped, continued and settled.
-/

namespace JobShell.Engine

/-- Enters a job in a table, if it is to be listed. -/
def enter (t : JobTable) (job : JobId) : Listing → Option Nat × JobTable
  | some (foreground, title) =>
    let (n, t) := t.add job title foreground
    (some n, t)
  | none => (none, t)

/-- A job that is made of commands of one kind. -/
def newJob (e : Engine) (kind : JobKind) (commands : List Command) (hub : HubId) (store : StoreId)
    (sink : Sink) (listed : Listing) : Job where
  body :=
    let launches := commands.map (Launch.resolve e.services e.system.world kind)
    match kind with
    | .process => .native { launches }
    | .routine => .chain { launches }
  hub := hub
  store := store
  stdout := sink
  stderr := sink
  tableId := (enter e.table e.nextJob listed).1
  command := Command.pipeLine commands

/-- Makes a job of commands of one kind under a hub. With `listed` it is entered in the table under
a title, and the flag says whether in the foreground. -/
def createJob (e : Engine) (kind : JobKind) (commands : List Command) (parent : HubId)
    (store : StoreId) (sink : Sink) (listed : Listing) : JobId × Engine :=
  let id := e.nextJob
  let (hub, e') := e.createHub (some parent)
  (id, { e' with
    nextJob := id + 1
    table := (enter e.table id listed).2
    jobs := e.jobs ++ [(id, e.newJob kind commands hub store sink listed)] })

def connect (e : Engine) (job next : JobId) : Engine :=
  let e :=
    match e.job? job with
    | some j => e.setJob job { j with stdout := .forward next }
    | none => e
  match e.job? next with
  | some j => e.setJob next { j with feeder := some job }
  | none => e

/-! ### Input and output -/

def feed (e : Engine) (id : JobId) (data : Bytes) : Engine :=
  match e.job? id with
  | none => e
  | some j =>
    match j.body with
    | .native n => { e with system := n.write e.system data }
    | .chain c => e.setJob id { j with body := .chain (c.write data) }

def endInput (e : Engine) (id : JobId) : Engine :=
  match e.job? id with
  | none => e
  | some j =>
    match j.body with
    | .native n =>
      let (n, system) := n.closeFeed e.system
      { e with system }.setJob id { j with body := .native n }
    | .chain c =>
      let (ready, c) := c.close
      let e := e.setJob id { j with body := .chain c }
      if ready then e.defer (.runChain id) else e

/-- Sends output to a sink. -/
def pour (e : Engine) : Sink → Stream → Bytes → Engine
  | .terminal, .stdout, data => e.write .out data
  | .terminal, .stderr, data => e.write .err data
  | .console, .stdout, data => e.write .log data
  | .console, .stderr, data => e.write .error data
  | .forward next, _, data => e.feed next data
  | .capture key, stream, data =>
    { e with captures := e.captures.modify key (·.add stream data) }

def send (e : Engine) (id : JobId) (stream : Stream) (data : Bytes) : Engine :=
  match e.job? id with
  | none => e
  | some j => e.pour (j.sink stream) stream data

/-- Sends output there is. -/
def sendAny (e : Engine) (id : JobId) (stream : Stream) (data : Bytes) : Engine :=
  if data.isEmpty then e else e.send id stream data

/-- Has a job say what could not be started. -/
def complain (e : Engine) (id : JobId) (diagnostic : Option String) : Engine :=
  diagnostic.elim e fun d => e.send id .stderr (Text.encode d)

/-! ### Starting -/

def takeTerminal (e : Engine) (id : JobId) (tableId : Option Nat) : Engine :=
  { e with
    console := e.console.pause
    owner := some id
    table := if tableId.isSome then e.table.setForeground tableId else e.table }

/-- An engine in which a job is told to run. -/
def readied (e : Engine) (id : JobId) (j : Job) (mode : Mode) : Engine :=
  let e := if mode = .foreground then e.takeTerminal id j.tableId else e
  { e with table := j.tableId.elim e.table fun n => (e.table.update n .running none).2 }

/-- A job that was told to run, with the body it then has. -/
def begun (j : Job) (mode : Mode) (body : Job.Body) (live : Bool) : Job :=
  { j with mode, state := .running, body, live }

/-- Starts a job, and says whether it could be started. One of which nothing could be started
settles on a later turn. -/
def startJob (e : Engine) (id : JobId) (mode : Mode) (taps : Taps) : Bool × Engine :=
  match e.job? id with
  | none => (false, e)
  | some j =>
    let e := e.readied id j mode
    match j.body with
    | .chain c =>
      let (ready, c) := c.start taps
      let e := e.setJob id (begun j mode (.chain c) j.live)
      (true, if ready then e.defer (.runChain id) else e)
    | .native n =>
      let (diagnostic, n, system) := n.start id taps e.system
      let spawned := !n.processes.isEmpty
      let e := { e with system }.setJob id (begun j mode (.native n) spawned)
      let e := if spawned then { e with live := e.live + 1 } else e.defer (.fail id)
      (spawned && !n.failed, e.complain id diagnostic)

/-! ### Settling -/

/-- Tells a job that the one it feeds is gone. -/
def breakPipe (e : Engine) (id : JobId) : Engine :=
  match e.native? id with
  | some (j, n) =>
    let (n, system) := n.brokenPipe e.system
    { e with system }.setJob id { j with body := .native n }
  | none => e

/-- The part of settling that neighbours hear of: the job that is fed gets no more input, and the
one that fed this job is told. -/
def passOn (e : Engine) (j : Job) : Engine :=
  let e := if j.live then { e with live := e.live - 1 } else e
  let e :=
    match j.stdout with
    | .forward next => e.endInput next
    | _ => e
  j.feeder.elim e e.breakPipe

/-- The part of settling that the user hears of: the terminal is given back, and the table and the
console are told. -/
def announce (e : Engine) (id : JobId) (j : Job) (state : JobState) (status : Int) : Engine :=
  let owned := e.owner = some id
  let e := if owned then { e with owner := none } else e
  let e :=
    match j.tableId with
    | some n =>
      let foreground := e.table.foreground == some n
      { e with table := (e.table.update n state (some status)).2 }.notice
        { id := n, command := j.command, state, status := some status, foreground }
    | none => e
  -- the console goes on only once the last state has been told
  if owned then { e with console := e.console.resume } else e

/-- Settles a job: the next one gets no more input, the terminal is given back, the table and the
console are told, and then the hub of the job completes. -/
def settle (e : Engine) (id : JobId) (state : JobState) (status : Int) : Engine × List Duty :=
  match e.job? id with
  | none => (e, [])
  | some j =>
    let e := (e.passOn j).announce id j state status
    let e := e.setJob id { j with state, status := some status }
    (e.eraseJob id, [.notify j.hub status])

def settleNative (e : Engine) (id : JobId) : Engine × List Duty :=
  match e.native? id with
  | some (_, n) =>
    if n.isFinished then
      e.settle id (if n.failed then .failed else .terminated) (n.exitStatus e.config.failedStatus)
    else (e, [])
  | none => (e, [])

/-! ### Stopping and continuing -/

/-- The table and the console are told that a job has stopped, and with `release` the terminal is
given back. -/
def halt (e : Engine) (j : Job) (table : JobTable) (release : Prop) [Decidable release] : Engine :=
  let e := { e with table }
  let e := if release then { e with owner := none, console := e.console.restore } else e
  let e := j.tableId.elim e fun n => e.notice
    { id := n, command := j.command, state := .stopped, status := none, foreground := false }
  if release then { e with console := e.console.resume } else e

def stopped (e : Engine) (id : JobId) : Engine :=
  match e.job? id with
  | none => e
  | some j =>
    if j.state ≠ .running then e
    else
      let e := e.setJob id { j with state := .stopped }
      let (change, table) :=
        match j.tableId with
        | some n => e.table.update n .stopped none
        | none => (.updated, e.table)
      e.halt j table (e.owner = some id ∨ change = .foregroundStopped)

def continued (e : Engine) (id : JobId) : Engine :=
  match e.job? id with
  | none => e
  | some j =>
    if j.state ≠ .stopped then e
    else
      let e := e.setJob id { j with state := .running }
      match j.tableId with
      | none => e
      | some n =>
        { e with table := (e.table.update n .running none).2 }.notice
          { id := n, command := j.command, state := .running, status := none,
            foreground := j.mode == Mode.foreground }

def interrupt (e : Engine) : Engine :=
  match (e.table.foreground.bind e.table.jobOf?).bind e.native? with
  | some (_, n) => { e with system := n.signal e.system .interrupt }
  | none => e

def dispatch (e : Engine) : Event → Engine × List Duty
  | .output id stream data => (e.send id stream data, [])
  | .closed id _ =>
    match e.native? id with
    | some (j, n) => (e.setJob id { j with body := .native n.streamClosed }).settleNative id
    | none => (e, [])
  | .process id index change =>
    match e.native? id with
    | some (j, n) =>
      let n := n.processChanged index change
      let e := e.setJob id { j with body := .native n }
      match change with
      | .exited _ => e.settleNative id
      | .stopped => (if n.isStopped then e.stopped id else e, [])
      | .continued => (e.continued id, [])
    | none => (e, [])
  | .interrupt => (e.interrupt, [])

/-! ### Job control -/

def jobNumbered (e : Engine) (n : Nat) : Except Fault (JobId × Job) :=
  match e.table.jobOf? n with
  | none => .error (.unknownJob n)
  | some id =>
    match e.job? id with
    | none => .error (.unknownJob n)
    | some j => .ok (id, j)

def foreground (e : Engine) (n : Nat) : Except Fault Engine := do
  let (id, j) ← e.jobNumbered n
  let raised (s : Sink) : Sink := if s = .console then .terminal else s
  let j := { j with mode := .foreground, stdout := raised j.stdout, stderr := raised j.stderr }
  let e := (e.setJob id j).takeTerminal id (some n)
  match j.body with
  | .native p => return { e with system := p.signal e.system .resume }
  | .chain _ => return e

def background (e : Engine) (n : Nat) : Except Fault Engine := do
  let (id, j) ← e.jobNumbered n
  let e := e.setJob id { j with mode := .background }
  match j.body with
  | .native p => return { e with system := p.signal e.system .resume }
  | .chain _ => return e

/-! ### Chains -/

/-- Runs a chain whose input is complete. Its finalizers, if any, wait until all that follows from
its end has been done. -/
def runChain (e : Engine) (id : JobId) : Engine × List Duty × Option Task :=
  match e.chain? id with
  | none => (e, [], none)
  | some (j, c) =>
    let (o, c, world) := c.run e.config.failedStatus e.system.world
    let e := { e with system := { e.system with world } }.setJob id { j with body := .chain c }
    let e := { e with stores := e.stores.escapeAll j.store o.escapes }
    let e := (e.sendAny id .stdout o.stdout).sendAny id .stderr o.stderr
    let (e, duties) := e.settle id .terminated o.status
    (e, duties, o.pending.map (.finalize · j.store))

/-- Calls the finalizers of a chain; their output is background output. -/
def finalize (e : Engine) (p : Chain.Pending) (store : StoreId) : Engine :=
  let (o, world) := p.run e.system.world
  let e := { e with
    system := { e.system with world }
    stores := e.stores.escapeAll store o.escapes }
  let e := if o.stdout.isEmpty then e else e.write .log o.stdout
  if o.stderr.isEmpty then e else e.write .error o.stderr

end JobShell.Engine
