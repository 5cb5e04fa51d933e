import JobShell.Engine.Pipeline

/-!
Lists and compound commands.

A compound command has a hub of its own and goes on when a part of it completes.
-/

namespace JobShell.Engine

/-- Runs steps one after the other, from a later turn on. -/
def spawnRunner (e : Engine) (steps : List Step) (ctx : Context) (parent : Option HubId) :
    HubId × Engine :=
  let (hub, e) := e.createHub parent
  (hub, e.defer (.advance { hub, steps, ctx }))

def spawnItems (e : Engine) (items : List Tree.Item) (ctx : Context) (parent : Option HubId) :
    HubId × Engine :=
  e.spawnRunner (items.map .item) ctx parent

/-- Reports a fault, which is then the outcome of a hub. -/
def failHub (e : Engine) (hub : HubId) (f : Fault) : Engine × List Duty :=
  (e.report f, [.notify hub (f.status e.config.failedStatus)])

def follow (e : Engine) (hub child : HubId) (callback : Callback) : Engine × List Duty :=
  match e.subscribe child callback with
  | .ok e => (e, [])
  | .error f => e.failHub hub f

def conclude (e : Engine) (hub : HubId) (items : List Tree.Item) (ctx : Context) :
    Engine × List Duty :=
  ((e.spawnItems items ctx (some hub)).2, [.sealOff hub])

def spawnNode (e : Engine) (node : Tree.Node) (ctx : Context) (parent : Option HubId) :
    HubId × Engine × List Duty :=
  match node with
  | .logical op left right =>
    let (hub, e) := e.createHub parent
    let (child, e) := e.spawnItems [⟨left, false⟩] ctx (some hub)
    (hub, e.follow hub child (.logical hub op right ctx))
  | .conditional condition onSuccess onFailure =>
    let (hub, e) := e.createHub parent
    let (child, e) := e.spawnItems condition ctx (some hub)
    (hub, e.follow hub child (.branch hub onSuccess onFailure ctx))
  | .loop name words body =>
    let (hub, e) := e.createHub parent
    (hub, e.defer (.loop hub name words body ctx), [])
  | .choice subject arms =>
    let (hub, e) := e.createHub parent
    (hub, e.defer (.choice hub subject arms ctx), [])
  | .subshell body =>
    let (hub, e) := e.createHub parent
    let (store, stores) := e.stores.fork ctx.store
    let (child, e) := { e with stores }.spawnItems body { ctx with store } (some hub)
    (hub, e.follow hub child (.subshell hub store))
  | node =>
    let (hub, e) := e.spawnItems [⟨node, false⟩] ctx parent
    (hub, e, [])

/-- Runs a loop for its next value, which stands in a frame of its own. -/
def iterate (e : Engine) (l : Loop) : Engine × List Duty :=
  match l.values with
  | [] => (e, [.notify l.hub l.status])
  | v :: values =>
    let ctx := { l.ctx with scope := l.ctx.scope.push [(l.name, v)] }
    let (child, e) := e.spawnItems l.body ctx (some l.hub)
    e.follow l.hub child (.loop { l with values })

def record (e : Engine) (r : Runner) (status : Int) : Runner × Engine :=
  ({ r with foreground := some status },
    { e with stores := e.stores.set r.ctx.store Stores.statusName (.int status) })

/-! ### Job control commands -/

/-- The job a job control command is about: the one it names, or the current one. -/
def resume (e : Engine) (args : List String) (go : Nat → Except Fault Engine) :
    Except Fault Engine :=
  e.table.resolve (args.head?.getD "%+") >>= go

def listJobs (e : Engine) (args : List String) (route : Route) : Except Fault Engine :=
  match args with
  | arg :: _ => .error (.invalidJobSpec arg)
  | [] =>
    let channel := if route = .terminal then .out else .log
    .ok (e.write channel (Text.encode e.table.listing))

/-- Runs a command that works on the job table; `none` for any other. -/
def jobControl? (e : Engine) (c : Command) (route : Route) : Option (Int × Engine) :=
  let args := c.expandArgs e.system.world.expand
  let result? :=
    match c.name with
    | "jobs" => some (e.listJobs args route)
    | "fg" => some (e.resume args e.foreground)
    | "bg" => some (e.resume args e.background)
    | _ => none
  result?.map fun result =>
    match result with
    | .ok e => (0, e)
    | .error f =>
      let channel := if route = .terminal then .err else .error
      (1, e.write channel (Text.encode s!"{c.name}: {f.message}\n"))

end JobShell.Engine
