import JobShell.Engine.Control

/-!
The engine at work.

What is in hand stands on a stack, the innermost first: completing a hub may call a subscriber
that starts a command, whose words run another command and wait for it, which takes turns of the
engine in between. A step takes the work on top, does it, and puts what is left of it in its place.
-/

namespace JobShell

inductive Reply where
  | nothing
  | status (n : Int)
  | flags (bs : List Bool)
  | captured (c : Captured)
  | command (c : Command)
  | text (s : String)
  | values (vs : List Value)

inductive Built where
  | command (r : Runner) (background : Bool) (c : Except Fault Command)
  | pipeline (r : Runner) (background negated : Bool) (cs : Except Fault (List Command))
  | loop (l : Loop) (values : Except Fault (List Value))
  | choice (hub : HubId) (ctx : Context) (body : Except Fault (Option (List Tree.Item)))
  | reply (r : Except Fault Reply)

/-- How an evaluation goes on once it has the output of a command. -/
abbrev Resumption := Except Fault Captured → Expansion Built

/-- Who waits for a hub: whoever sent the request, or an evaluation. -/
inductive Waiter where
  | request
  | evaluation (store : StoreId) (key : Nat) (next : Resumption)

inductive Work where
  | duty (d : Duty)
  | defer (t : Task)
  | advance (r : Runner)
  /-- Have a list go on when a step of it completes. -/
  | follow (r : Runner) (child : HubId)
  | evaluate (store : StoreId) (x : Expansion Built)
  | await (hub : HubId) (w : Waiter)
  | turns (count : Nat) (block : Bool) (taken : List Bool)
  | poll
  | drain
  /-- Take turns until a job has a state, or is gone. -/
  | untilState (id : Nat) (state : Option JobState)
  | reply (r : Except Fault Reply)

/-- What a turn came to: work, nothing to do, or nothing that could ever be done. -/
inductive Turn where
  | took (e : Engine) (work : List Work)
  | idle
  | stalled

namespace Engine

/-! ### Lists -/

def pipelineStep (e : Engine) (r : Runner) (commands : List Command) (background negated : Bool) :
    Engine × List Work :=
  if background then
    let (s, e) := e.startPipeline commands r.ctx.inBackground none negated
    let status := if s.launched then 0 else e.config.failedStatus
    (e, s.duties.map .duty ++ [.advance { r with background := some status }])
  else
    let (s, e) := e.startPipeline commands r.ctx (some r.hub) negated
    (e, s.duties.map .duty ++ [.follow r s.hub])

def stepDone (e : Engine) (r : Runner) (status : Int) : Engine × List Work :=
  let (r, e) := e.record r status
  (e, [.advance r])

def commandStep (e : Engine) (r : Runner) (c : Command) : Engine × List Work :=
  if c.assignmentOnly then
    let stores := c.assignments.foldl (fun s (n, v) => s.set r.ctx.store n v) e.stores
    { e with stores }.stepDone r 0
  else
    match e.jobControl? c r.ctx.route with
    | some (status, e) => e.stepDone r status
    | none => e.pipelineStep r [c] c.background false

/-- A step that could not be evaluated is reported, and the list goes on. -/
def faultStep (e : Engine) (r : Runner) (f : Fault) : Engine × List Work :=
  (e.report f).stepDone r (f.status e.config.failedStatus)

/-- Goes on with a list. Its status is that of the last step that was waited for, or else that of
the last one that was not. -/
def advance (e : Engine) (r : Runner) : Engine × List Work :=
  match r.steps with
  | [] => (e, [.duty (.notify r.hub ((r.foreground <|> r.background).getD 0))])
  | .ready c :: steps => e.commandStep { r with steps } c
  | .item ⟨.command c, background⟩ :: steps =>
    (e, [.evaluate r.ctx.store
      ((c.command r.ctx.scope).run.map (.command { r with steps } background))])
  | .item ⟨.pipeline cs negated, background⟩ :: steps =>
    (e, [.evaluate r.ctx.store
      ((commands r.ctx.scope cs).run.map (.pipeline { r with steps } background negated))])
  | .item ⟨node, true⟩ :: steps =>
    let (_, e, duties) := e.spawnNode node r.ctx.inBackground none
    (e, duties.map .duty ++ [.advance { r with steps, background := some 0 }])
  | .item ⟨node, false⟩ :: steps =>
    let (child, e, duties) := e.spawnNode node r.ctx (some r.hub)
    (e, duties.map .duty ++ [.follow { r with steps } child])

/-! ### Callbacks, tasks and evaluations -/

def owing (p : Engine × List Duty) : Engine × List Work := (p.1, p.2.map .duty)

def call (e : Engine) (status : Int) : Callback → Engine × List Work
  | .runner r => e.stepDone r status
  | .logical hub op right ctx =>
    if op.goesOn status then owing (e.conclude hub [⟨right, false⟩] ctx)
    else (e, [.duty (.notify hub status)])
  | .branch hub onSuccess onFailure ctx =>
    match if status = 0 then onSuccess else onFailure with
    | some items => owing (e.conclude hub items ctx)
    | none => (e, [.duty (.notify hub 0)])
  | .loop l => owing (e.iterate { l with status })
  | .subshell hub store =>
    ({ e with stores := e.stores.release store }, [.duty (.notify hub status)])
  | .negate hub => (e, [.duty (.notify hub (if status = 0 then 1 else 0))])

def runTask (e : Engine) : Task → Engine × List Work
  | .advance r => (e, [.advance r])
  | .complete hub status => (e, [.duty (.notify hub status)])
  | .loop hub name words body ctx =>
    (e, [.evaluate ctx.store ((loopItems ctx.scope e.config.separators words).run.map
      (.loop { hub, name, values := [], body, ctx }))])
  | .choice hub subject arms ctx =>
    (e, [.evaluate ctx.store ((chooseArm ctx.scope subject arms).run.map (.choice hub ctx))])
  | .finalize p store => (e.finalize p store, [])
  | .flush hub => (e, (e.hubs.flush hub).map .duty)
  | .runChain job =>
    let (e, duties, pending) := e.runChain job
    (e, duties.map .duty ++ pending.toList.map .defer)
  | .fail job => owing (e.settle job .failed e.config.failedStatus)

def built (e : Engine) : Built → Engine × List Work
  | .command r background (.ok c) => e.commandStep r { c with background }
  | .command r _ (.error f) => e.faultStep r f
  | .pipeline r background negated (.ok cs) => e.pipelineStep r cs background negated
  | .pipeline r _ _ (.error f) => e.faultStep r f
  | .loop l (.ok values) => owing (e.iterate { l with values })
  | .loop l (.error f) => owing (e.failHub l.hub f)
  | .choice hub ctx (.ok (some body)) => owing (e.conclude hub body ctx)
  | .choice hub _ (.ok none) => (e, [.duty (.notify hub 0)])
  | .choice hub _ (.error f) => owing (e.failHub hub f)
  | .reply r => (e, [.reply r])

/-- An engine with one more buffer to capture output in. -/
abbrev withCapture (e : Engine) : Engine := { e with captures := e.captures.insert {} }

def startCapture (e : Engine) (commands : List Command) (store : StoreId) (negated : Bool) :
    Nat × Started × Engine :=
  let key := e.captures.next
  let (s, e) :=
    e.withCapture.startPipeline commands { store, route := .capture key } none negated
  (key, s, { e with hubs := e.hubs.retain s.hub })

def takeCapture (e : Engine) (key : Nat) (status : Int) : Captured × Engine :=
  let b := (e.captures.get? key).getD {}
  (⟨Text.decodeLossy b.stdout, Text.decodeLossy b.stderr, status⟩,
    { e with captures := e.captures.erase key })

def evaluate (e : Engine) (store : StoreId) : Expansion Built → Engine × List Work
  | .done b => e.built b
  | .value name next => (e, [.evaluate store (next (e.valueOf store name))])
  | .aliasOf name next => (e, [.evaluate store (next (e.services.alias? name))])
  | .paths pattern next => (e, [.evaluate store (next (e.system.world.expand pattern))])
  | .capture commands negated next =>
    let (key, s, e) := e.startCapture commands store negated
    (e, s.duties.map .duty ++ [.await s.hub (.evaluation store key next)])

/-! ### Turns -/

/-- How long processes may run before the engine gives up on hearing of one. -/
def patience : Nat := 1 <<< 20

/-- How many rounds processes that never rest may run once there is something to hear. -/
def restless : Nat := 10000

/-- Lets processes run until there is something to hear. -/
def listen (e : Engine) : Engine :=
  let (events, system) := (e.system.wait patience restless).takeEvents
  { e with system, events := e.events ++ events }

def hear (e : Engine) : Option (Engine × List Work) :=
  match e.events with
  | [] => none
  | event :: events => some (owing ({ e with events }.dispatch event))

/-- One turn: a task if there is one, else an event. Only a turn that may block waits for one, and
only while there is a process that may report. -/
def turn (e : Engine) (block : Bool) : Turn :=
  match e.tasks with
  | t :: tasks => let (e, work) := (e.withTasks tasks).runTask t; .took e work
  | [] =>
    match e.hear with
    | some (e, work) => .took e work
    | none =>
      if !block then .idle
      else if e.live = 0 then .stalled
      else
        match e.listen.hear with
        | some (e, work) => .took e work
        | none => .stalled

def turnThen (e : Engine) (onStall : Fault → Engine × List Work) (next : List Work) :
    Engine × List Work :=
  match e.turn true with
  | .took e work => (e, work ++ next)
  | .idle => (e, next)
  | .stalled => onStall .stalled

def answer (e : Engine) (result : Except Fault Int) : Waiter → Engine × List Work
  | .request => (e, [.reply (result.map .status)])
  | .evaluation store key next =>
    let (c, e) := e.takeCapture key (result.toOption.getD 0)
    (e, [.evaluate store (next (result.map fun _ => c))])

def await (e : Engine) (hub : HubId) (w : Waiter) : Engine × List Work :=
  match e.hubs.get? hub with
  | none => e.answer (.error (.unknownHub hub)) w
  | some h =>
    match h.status with
    | some status => { e with hubs := e.hubs.release hub }.answer (.ok status) w
    | none => e.turnThen (fun f => e.answer (.error f) w) [.await hub w]

def refuse (e : Engine) (f : Fault) : Engine × List Work := (e, [.reply (.error f)])

def perform (e : Engine) : Work → Engine × List Work
  | .duty d =>
    let (hubs, called, duties) := e.hubs.perform d
    let e := { e with hubs }
    let (e, work) := called.elim (e, []) fun (callback, status) => e.call status callback
    (e, work ++ duties.map .duty)
  | .defer t => (e.defer t, [])
  | .advance r => e.advance r
  | .follow r child => owing (e.follow r.hub child (.runner r))
  | .evaluate store x => e.evaluate store x
  | .await hub w => e.await hub w
  | .turns 0 _ taken => (e, [.reply (.ok (.flags taken))])
  | .turns (count + 1) block taken =>
    match e.turn block with
    | .took e work => (e, work ++ [.turns count block (taken ++ [true])])
    | .idle => (e, [.turns count block (taken ++ [false])])
    | .stalled => e.refuse .stalled
  | .poll =>
    match e.turn false with
    | .took e work => (e, work ++ [.poll])
    | _ => (e, [.reply (.ok .nothing)])
  | .drain =>
    if e.tasks.isEmpty ∧ e.live = 0 then (e, [.poll]) else e.turnThen e.refuse [.drain]
  | .untilState id state =>
    if (e.table.get? id).map (·.state) = state then (e, [.reply (.ok .nothing)])
    else e.turnThen e.refuse [.untilState id state]
  | .reply _ => (e, [])

end Engine

structure Machine where
  engine : Engine
  stack : List Work

namespace Machine

def step (m : Machine) : Machine :=
  match m.stack with
  | [] => m
  | w :: stack =>
    let (engine, work) := m.engine.perform w
    { engine, stack := work ++ stack }

/-- Works until there is a reply, or until the fuel is used up. -/
def run : Nat → Machine → Option (Except Fault Reply × Engine)
  | 0, _ => none
  | fuel + 1, m =>
    match m.stack with
    | [] => some (.ok .nothing, m.engine)
    | .reply r :: _ => some (r, m.engine)
    | _ => run fuel m.step

end Machine

end JobShell
