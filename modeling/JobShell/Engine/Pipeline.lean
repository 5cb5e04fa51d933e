import JobShell.Engine.Jobs

/-!
Pipelines.

Neighbours of one kind share a job, and the jobs feed each other. The hub of a pipeline waits for
all of them; its status is that of the last one.
-/

namespace JobShell.Engine

structure Started where
  hub : HubId
  /-- Whether its last job could be started. -/
  launched : Bool
  duties : List Duty := []

/-- Makes the jobs of a pipeline. The last one is entered in the job table, for all of them. -/
def createSegments (e : Engine) (hub : HubId) (ctx : Context) (title : String) :
    Groups → List JobId × Engine
  | [] => ([], e)
  | (kind, group) :: rest =>
    let listed := if rest.isEmpty then ctx.route.listed?.map (·, title) else none
    let (job, e) := e.createJob kind group hub ctx.store ctx.route.sink listed
    let (jobs, e) := e.createSegments hub ctx title rest
    (job :: jobs, e)

def connectAll (e : Engine) : List JobId → Engine
  | job :: next :: rest => (e.connect job next).connectAll (next :: rest)
  | _ => e

/-- Starts the jobs of a pipeline, the last one first, so that none is fed before it runs. Says
whether the last one could be started. -/
def startSegments (e : Engine) (route : Route) (fed : Bool) : List JobId → Bool × Engine
  | [] => (true, e)
  | [job] =>
    e.startJob job route.mode { route.taps e.config.inheritTerminal with stdin := fed }
  | job :: rest =>
    let (launched, e) := e.startSegments route true rest
    let stderr := (route.taps e.config.inheritTerminal).stderr
    (launched, (e.startJob job .background { stdin := fed, stdout := true, stderr }).2)

/-- The jobs of a pipeline, made, connected and started. -/
def launchJobs (e : Engine) (hub : HubId) (commands : List Command) (ctx : Context) :
    List JobId × Bool × Engine :=
  let (jobs, e) :=
    e.createSegments hub ctx (Command.pipeLine commands) (e.services.partition commands)
  (jobs, (e.connectAll jobs).startSegments ctx.route false jobs)

/-- How the hub of a pipeline gets its status: from what follows its last job if that is to be
turned around, and else from its jobs. -/
def oversee (e : Engine) (hub : HubId) (jobs : List JobId) (launched negated : Bool) :
    Started × Engine :=
  let watched : Option Engine :=
    if negated then
      (jobs.getLast?.bind e.job?).bind fun j => (e.subscribe j.hub (.negate hub)).toOption
    else none
  match watched with
  | some e => (⟨hub, launched, []⟩, e)
  | none =>
    let (hubs, duties) := e.hubs.sealOff hub
    (⟨hub, launched, duties⟩, { e with hubs })

/-- Starts commands as one pipeline. Commands that only set variables have no part in it, and if
there are no others it succeeds on a later turn. -/
def startPipeline (e : Engine) (commands : List Command) (ctx : Context) (parent : Option HubId)
    (negated : Bool) : Started × Engine :=
  let (hub, e) := e.createHub parent
  let commands := commands.filter (!·.assignmentOnly)
  if commands.isEmpty then (⟨hub, true, []⟩, e.defer (.complete hub 0))
  else
    let (jobs, launched, e) := e.launchJobs hub commands ctx
    e.oversee hub jobs launched negated

end JobShell.Engine
