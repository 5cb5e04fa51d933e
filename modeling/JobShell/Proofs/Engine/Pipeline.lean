import JobShell.Proofs.Engine.Compound
import JobShell.Proofs.Engine.Jobs
import JobShell.Proofs.Grouping

/-!
Pipelines of routines.

A pipeline of routines has one job, which runs on the next turn.
-/

namespace JobShell

open Machine Interpreter List Option Route JobTable Chain

/-- A launch that leaves nothing to be done after its job. -/
def Launch.Plain (l : Launch) : Prop := ∀ r, l.routine = some r → r.finalizers = []

namespace Chain

lemma finalizers_advance (failedStatus : Int) {p : Progress} {l : Launch} (hp : p.finalizers = [])
    (hl : l.Plain) : (advance failedStatus p l).finalizers = [] := by
  rcases hplan : Routes.plan p.world l.redirections with ⟨_ | routes, world⟩
  · simpa only [advance, hplan] using hp
  · rcases hr : l.routine with _ | r
    · simp only [advance, hplan, hr]
      split <;> simp [hp]
    · simp only [advance, hplan, hr]
      split <;> simp [hp, hl r hr]

lemma pending_runAll (failedStatus : Int) {launches : List Launch}
    (hl : ∀ l ∈ launches, l.Plain) (input : Bytes) (w : World) :
    (runAll failedStatus launches input w).1.pending = none := by
  have hfold : ∀ p : Progress, p.finalizers = [] →
      (launches.foldl (advance failedStatus) p).finalizers = [] := by
    induction launches with
    | nil => exact fun p hp => hp
    | cons l rest ih =>
      intro p hp
      exact ih (fun x hx => hl x (by simp [hx])) _
        (finalizers_advance failedStatus hp (hl l (by simp)))
  have hnil := hfold { flow := if launches.isEmpty then [] else input, world := w } rfl
  simp only [runAll, Progress.outcome, hnil, isEmpty_nil, if_true]

end Chain

namespace Engine

/-! ### Launching -/

/-- The job of a pipeline of routines, about to run. -/
def soleJob (e : Engine) (ctx : Context) (cs : List Command) (hub : HubId) : Job where
  body := .chain {
    launches := cs.map (Launch.resolve e.services e.system.world .routine)
    closed := true, started := true, queued := true }
  state := .running
  mode := ctx.route.mode
  hub
  store := ctx.store
  stdout := ctx.route.sink
  stderr := ctx.route.sink
  tableId := ctx.route.listed?.map fun _ => 1
  command := Command.pipeLine cs

/-- An engine with no other job that has made one of routines and is about to run it. -/
def launch (e : Engine) (ctx : Context) (cs : List Command) (hub : HubId) : Engine :=
  { e with
    nextJob := e.nextJob + 1
    jobs := [(e.nextJob, e.soleJob ctx cs hub)]
    console := if ctx.route.mode = .foreground then e.console.pause else e.console
    owner := if ctx.route.mode = .foreground then some e.nextJob else e.owner
    table := ctx.route.listed?.elim e.table fun foreground =>
      ⟨[(1, ⟨e.nextJob, Command.pipeLine cs, .running, none, e.table.nextSeq⟩)],
        if foreground then some 1 else e.table.foreground, e.table.nextSeq + 1⟩ }

lemma launchJobs_sole {e : Engine} (hj : e.jobs = []) (ht : e.table.entries = []) (ctx : Context)
    {cs : List Command} (hp : e.services.partition cs = [(.routine, cs)]) (hub : HubId) :
    e.launchJobs hub cs ctx =
      ([e.nextJob], true,
        ((e.createHub (some hub)).2.launch ctx cs (e.createHub (some hub)).1).defer
          (.runChain e.nextJob)) := by
  rcases hr : ctx.route with _ | _ | key
  all_goals
    simp [launchJobs, hp, createSegments, createJob, newJob, enter, connectAll, startSegments,
      startJob, readied, begun, createHub, launch, hr, hj, ht, listed?, mode, job?, setJob,
      takeTerminal, JobTable.add, JobTable.freshId, JobTable.contains, JobTable.entry?, insertEntry,
      setForeground, update, start, ready, soleJob, defer, JobState.isFinal, range']

/-! ### Running -/

variable {k : Setting} {σ σ' : State} {C : Captures} {b e : Engine}
  {E : Multiset HubEntry} {ts : List Task} {id : JobId} {j : Job} {commands cs : List Command}
  {ctx : Context} {o : Outcome} {w : World}

/-- Jobs and hubs stay, and so do tasks, the job table and the owner of the terminal. -/
structure Steady (e e' : Engine) : Prop where
  jobs : e'.jobs = e.jobs
  hubs : e'.hubs = e.hubs
  tasks : e'.tasks = e.tasks
  table : e'.table = e.table
  owner : e'.owner = e.owner

lemma job?_sole (hj : e.jobs = [(id, j)]) : e.job? id = some j := by
  simp [job?, hj]

lemma steady_sendAny (hj : e.jobs = [(id, j)]) (hs : ∀ s next, j.sink s ≠ .forward next)
    (s : Stream) (data : Bytes) : Steady e (e.sendAny id s data) := by
  rw [sendAny, send_eq_pour (job?_sole hj)]
  split
  · exact ⟨rfl, rfl, rfl, rfl, rfl⟩
  · cases hsink : j.sink s with
    | forward next => exact absurd hsink (hs s next)
    | _ => cases s <;> exact ⟨rfl, rfl, rfl, rfl, rfl⟩

lemma Mirrors.sendAny_terminal (hm : Mirrors k σ C e) (hj : e.jobs = [(id, j)])
    (hs : ∀ s, j.sink s = .terminal) (data : Bytes) :
    Mirrors k (σ.output .out data) C (e.sendAny id .stdout data) ∧
      Mirrors k (σ.output .err data) C (e.sendAny id .stderr data) := by
  simp only [sendAny, send_eq_pour (job?_sole hj), hs, pour, State.output]
  split
  · exact ⟨hm, hm⟩
  · exact ⟨hm.write .out data, hm.write .err data⟩

lemma Mirrors.sendAny_capture {key : ℕ} {B : Buffers} (hm : Mirrors k σ ({(key, B)} + C) e)
    (hj : e.jobs = [(id, j)]) (hs : ∀ s, j.sink s = .capture key) (data : Bytes) :
    Mirrors k σ ({(key, { B with stdout := B.stdout ++ data })} + C) (e.sendAny id .stdout data) ∧
      Mirrors k σ ({(key, { B with stderr := B.stderr ++ data })} + C)
        (e.sendAny id .stderr data) := by
  simp only [sendAny, send_eq_pour (job?_sole hj), hs, pour]
  split
  · rename_i hd
    rw [List.isEmpty_iff.mp hd]
    simpa using hm
  · exact ⟨{ hm with sound := hm.sound.modify _ _, captures := Slab.entries_modify hm.captures _ },
      { hm with sound := hm.sound.modify _ _, captures := Slab.entries_modify hm.captures _ }⟩

/-- A job that owns the terminal and stands in the table is told of, and the console goes on. -/
lemma Mirrors.announce (hm : Mirrors k σ C e) (ho : e.owner = some id) {n : ℕ}
    (hn : j.tableId = some n) (state : JobState) (status : Int) :
    let σ' := σ.notice ⟨n, j.command, state, some status, e.table.foreground == some n⟩
    Mirrors k { σ' with console := σ'.console.resume } C (e.announce id j state status) ∧
      (e.announce id j state status).owner = none ∧
      (e.announce id j state status).table = (e.table.update n state (some status)).2 := by
  intro σ'
  simp only [Engine.announce, ho, hn, if_true]
  have hm1 : Mirrors k σ C
      { e with owner := none, table := (e.table.update n state (some status)).2 } := { hm with }
  have hm2 := hm1.notice ⟨n, j.command, state, some status, e.table.foreground == some n⟩
  exact ⟨{ hm2 with console := congrArg Console.resume hm2.console }, rfl, rfl⟩

/-! ### The hub of a pipeline -/

variable {C' : Captures} {s : Int}

/-- A job that is ready runs on a turn and has its hub complete. -/
def RunsJob (k : Setting) (b : Engine) (id : JobId) (J : HubId) (s : Int) (σ' : State)
    (C' : Captures) : Prop :=
  ∀ E e, Holds b E [] e → ∃ e', Rests k σ' C' e' ∧ Holds e' E [] e' ∧
    e.runTask (.runChain id) = (e', [.duty (.notify J s)])

lemma RunsJob.performs {J : HubId} (hrun : RunsJob k b id J s σ' C') :
    Performs k b 0 (.runChain id) J 0 false s σ' C' := by
  intro h F e X w S hst hX hh
  rw [zero_add] at hh
  refine leads_turn hh hX fun e1 h1 => ?_
  obtain ⟨e2, hr, h2, heq⟩ := hrun _ e1 h1
  rw [heq]
  exact (Phase.fresh hst).notify hr (h2.congr (by rw [zero_add]))

/-- Starts a pipeline, as the start of a part. -/
def openPipeline (commands : List Command) (ctx : Context) (negated : Bool)
    (parent : Option HubId) (e : Engine) : HubId × Engine × List Duty :=
  let (s, e) := e.startPipeline commands ctx parent negated
  (s.hub, e, s.duties)

lemma Starts.empty (ctx : Context) (negated : Bool)
    (hcs : commands.filter (!·.assignmentOnly) = []) :
    Starts k σ C 0 σ C (openPipeline commands ctx negated) := by
  have he : Ends k C σ 0 σ fun H e => e.runTask (.complete H 0) := by
    intro b H h D K F e X w S hr hp _ hh
    exact hp.notify hr hh
  have hs := Starts.deferred (.complete · 0) he
  intro b E E' parent e hr hh ha
  obtain ⟨b', e', c, h, n, z, K, t, heq, hrest⟩ := hs b E E' parent e hr hh ha
  refine ⟨b', e', c, h, n, z, K, t, ?_, hrest⟩
  rw [← heq]
  simp [openPipeline, startPipeline, hcs]

lemma Starts.pipeline (negated : Bool)
    (hcs : commands.filter (!·.assignmentOnly) = cs) (hne : cs ≠ [])
    (hkind : ∀ c ∈ cs, k.services.kindOf c.name = .routine)
    (hjob : ∀ b, Rests k σ C b → ∀ J, RunsJob k (b.launch ctx cs J) b.nextJob J s σ' C') :
    Starts k σ C (negate negated s) σ' C' (openPipeline commands ctx negated) := by
  intro b E E' parent e hr hh ha
  obtain ⟨order, hh1⟩ := hh.createHub ha
  obtain ⟨P, hP⟩ : ∃ P, (e.createHub parent).1 = P := ⟨_, rfl⟩
  obtain ⟨e1, he1⟩ : ∃ e1, (e.createHub parent).2 = e1 := ⟨_, rfl⟩
  rw [hP, he1] at hh1
  obtain ⟨o2, hh2⟩ := hh1.createHub (.child rfl _)
  obtain ⟨J, hJ⟩ : ∃ J, (e1.createHub (some P)).1 = J := ⟨_, rfl⟩
  obtain ⟨e2, he2⟩ : ∃ e2, (e1.createHub (some P)).2 = e2 := ⟨_, rfl⟩
  rw [hJ, he2] at hh2
  have hjobs : e1.jobs = [] := by rw [hh1.base]; exact hr.jobs
  have htable : e1.table.entries = [] := by rw [hh1.base]; exact hr.table
  have hservices : e1.services = k.services := by rw [hh1.base]; exact hr.services
  have hid : e1.nextJob = b.nextJob := by rw [hh1.base]
  have hcreate : e.createHub parent = (P, e1) := Prod.ext hP he1
  have hempty : cs.isEmpty = false := by simpa using hne
  have hparts : e1.services.partition cs = [(.routine, cs)] := by
    rw [hservices]
    exact Services.partition_routines _ hne hkind
  have hlaunch := launchJobs_sole hjobs htable ctx hparts P
  rw [hJ, he2] at hlaunch
  have hh3 : Holds (b.launch ctx cs J) _ _ ((e2.launch ctx cs J).defer (.runChain e1.nextJob)) :=
    (hh2.rebase (·.launch ctx cs J) fun _ _ _ => rfl).defer _
  obtain ⟨e3, he3⟩ : ∃ e3, (e2.launch ctx cs J).defer (.runChain e1.nextJob) = e3 := ⟨_, rfl⟩
  rw [he3] at hh3 hlaunch
  have hrun := (hjob b hr J).performs
  rw [← hid] at hrun
  have hJst : ({ parent := some P, order := o2 } : Hub Callback).Standing 0 false :=
    ⟨rfl, rfl, rfl, rfl, rfl⟩
  cases negated with
  | false =>
    have hopen : openPipeline commands ctx false parent e =
        (P, { e3 with hubs := (e3.hubs.sealOff P).1 }, (e3.hubs.sealOff P).2) := by
      simp only [openPipeline, startPipeline, hcreate, hcs, hempty, hlaunch, oversee,
        Bool.false_eq_true, if_false]
    have hh4 := hh3.congr (add_left_comm _ _ _)
    obtain ⟨he, hd⟩ := Hubs.entries_waiting (d := .sealOff P) hh4.entries rfl rfl
      fun hd => Nat.succ_ne_zero _ hd.1
    have hnone : (e3.hubs.sealOff P).2 = [] := congrArg Prod.snd hd
    rw [hnone] at hopen
    have hh5 := hh4.update (Hubs.Sound.perform hh4.sound (.sealOff P)) he
    exact ⟨_, _, P, { Hub.withChild { parent, order } with isSealed := true }, 1, true,
      {(J, { parent := some P, order := o2 })} + 0, _, hopen,
      ⟨rfl, rfl, rfl, rfl, rfl⟩, rfl, rfl, rfl, hh5.congr (by rw [add_zero]; rfl),
      hrun.last hJst rfl rfl rfl⟩
  | true =>
    obtain ⟨hubs, hsub, hsound, he⟩ := Hubs.subscribe_entries hh3.entries (.negate P)
    have hjob? : e3.job? e1.nextJob = some (e2.soleJob ctx cs J) := by
      rw [← he3, ← he2]
      exact job?_sole rfl
    have hopen : openPipeline commands ctx true parent e = (P, { e3 with hubs }, []) := by
      simp only [openPipeline, startPipeline, hcreate, hcs, hempty, hlaunch, oversee,
        Bool.false_eq_true, if_false, if_true, getLast?_singleton, bind_some, hjob?,
        soleJob, subscribe, hsub, Hubs.status?_of_entries hh3.entries, isSome_none, Except.toOption]
    have hh4 := hh3.update (hsound hh3.sound) he
    have hend : Ends k C' σ' (negate true s) σ' fun H e => e.call s (.negate H) := by
      intro b H h D K F e X w S hr hp _ hh
      exact hp.notify hr hh
    exact ⟨_, _, P, Hub.withChild { parent, order }, 1, false, _, _, hopen,
      ⟨rfl, rfl, rfl, rfl, rfl⟩, rfl, rfl, rfl, hh4.congr (by rw [add_zero, add_left_comm]),
      hrun.part (hJst.subscribed (.negate P)) rfl rfl rfl hend⟩

/-! ### Outcomes -/

lemma Holds.mirrors (hh : Holds b E ts e) (hm : Mirrors k σ C b) : Mirrors k σ C e := by
  rw [hh.base]
  exact { hm with }

lemma Holds.rests (hh : Holds b E ts e) (hr : Rests k σ C b) : Rests k σ C e := by
  rw [hh.base]
  exact { hr with }

lemma Holds.after {e' : Engine} (hh : Holds b E ts e) (hhubs : e'.hubs = e.hubs)
    (htasks : e'.tasks = e.tasks) : Holds e' E ts e' := by
  have ht : e'.tasks = ts := by rw [htasks, hh.base]
  exact ⟨by rw [← ht], hhubs ▸ hh.sound, hhubs ▸ hh.entries⟩

lemma plain_resolve (hcs : cs.all k.plain = true) (world : World) :
    ∀ l ∈ cs.map (Launch.resolve k.services world .routine), l.Plain := by
  intro l hl r hr
  obtain ⟨c, hc, rfl⟩ := mem_map.mp hl
  have hplain := all_eq_true.mp hcs c hc
  have hfind : k.services.find? c.name = some r := hr
  simpa [Setting.plain, hfind] using hplain

lemma kindOf_plain (hcs : cs.all k.plain = true) :
    ∀ c ∈ cs, k.services.kindOf c.name = .routine := by
  intro c hc
  have hplain := all_eq_true.mp hcs c hc
  rcases hfind : k.services.find? c.name with _ | r
  · simp [Setting.plain, hfind] at hplain
  · simp [Services.kindOf, hfind]

/-- The only job there is runs: it leaves the world and the variables as its routines left them,
writes to its own end, is told of and is gone. -/
lemma Rests.runChain (hr : Rests k σ C b) (hcs : cs.all k.plain = true)
    (ho : runAll k.config.failedStatus (cs.map (Launch.resolve k.services σ.world .routine))
      [] σ.world = (o, w)) {J : HubId} (hh : Holds (b.launch ctx cs J) E [] e) :
    ∃ e1 j, Mirrors k { σ with
        world := w
        stores := σ.stores.escapeAll ctx.store o.escapes
        console := (b.launch ctx cs J).console } C e1 ∧
      (∀ s, j.sink s = ctx.route.sink) ∧ j.tableId = ctx.route.listed?.map (fun _ => 1) ∧
      j.command = Command.pipeLine cs ∧
      let e2 := e1.sendAny b.nextJob .stdout o.stdout
      let e3 := e2.sendAny b.nextJob .stderr o.stderr
      let e4 := (e3.announce b.nextJob j .terminated o.status).eraseJob b.nextJob
      e1.jobs = [(b.nextJob, j)] ∧ e2.jobs = [(b.nextJob, j)] ∧
      e3.table = (b.launch ctx cs J).table ∧ e3.owner = (b.launch ctx cs J).owner ∧
      e4.jobs = [] ∧ Holds e4 E [] e4 ∧
      e.runTask (.runChain b.nextJob) = (e4, [.duty (.notify J o.status)]) := by
  have hj : e.jobs = [(b.nextJob, b.soleJob ctx cs J)] := by rw [hh.base]; rfl
  have hm : Mirrors k { σ with console := (b.launch ctx cs J).console } C e :=
    hh.mirrors { hr.toMirrors with console := rfl }
  have hpending : o.pending = none := by
    have hnone := pending_runAll k.config.failedStatus (plain_resolve hcs σ.world) [] σ.world
    rwa [ho] at hnone
  obtain ⟨c, hb, ho'⟩ : ∃ c, (b.soleJob ctx cs J).body = .chain c ∧
      runAll e.config.failedStatus c.launches c.input e.system.world = (o, w) :=
    ⟨_, rfl, by rw [hm.config, hm.world, ← ho, ← hr.services, ← hr.world]⟩
  set j := usedUp (b.soleJob ctx cs J) c
  have hsink : ∀ s, j.sink s = ctx.route.sink := fun s => by cases s <;> rfl
  have hends : ∀ s next, j.sink s ≠ .forward next := fun s next => by
    rw [hsink]
    cases ctx.route <;> exact nofun
  have hj1 : (e.used b.nextJob (b.soleJob ctx cs J) c o w).jobs = [(b.nextJob, j)] := by
    simp [used, setJob, hj, j]
  have hm1 : Mirrors k { σ with
      world := w
      stores := σ.stores.escapeAll ctx.store o.escapes
      console := (b.launch ctx cs J).console } C (e.used b.nextJob (b.soleJob ctx cs J) c o w) :=
    { hm with stores := congrArg (·.escapeAll ctx.store o.escapes) hm.stores, world := rfl }
  have st2 := steady_sendAny hj1 hends .stdout o.stdout
  have hj2 := st2.jobs.trans hj1
  have st3 := steady_sendAny hj2 hends .stderr o.stderr
  have hj3 := st3.jobs.trans hj2
  refine ⟨_, j, hm1, hsink, rfl, rfl, hj1, hj2, ?_, ?_, ?_, hh.after ?_ ?_, ?_⟩
  · rw [st3.table, st2.table, hh.base]
    rfl
  · rw [st3.owner, st2.owner, hh.base]
    rfl
  · simp [eraseJob, jobs_announce, hj3]
  · refine Eq.trans ?_ (st3.hubs.trans st2.hubs)
    simp only [announce]
    rcases j.tableId with _ | n <;> split <;> rfl
  · exact ((tasks_announce ..).trans st3.tasks).trans st2.tasks
  · simp only [runTask, runChain_eq (job?_sole hj) hb ho', settle_eq (job?_sole hj3), hpending]
    have hpass : ∀ e : Engine, e.passOn j = e := fun e => by
      have hstdout : j.stdout = ctx.route.sink := hsink .stdout
      rw [passOn, hstdout]
      cases ctx.route <;> rfl
    rw [hpass]
    rfl

/-- A job at the terminal pauses the console while it runs, and is told of at its end. -/
lemma runsJob_terminal (hr : Rests k σ C b) (hroute : ctx.route = .terminal)
    (hcs : cs.all k.plain = true)
    (ho : runAll k.config.failedStatus (cs.map (Launch.resolve k.services σ.world .routine))
      [] σ.world = (o, w)) (J : HubId) :
    let σ1 := { σ with
      world := w, stores := σ.stores.escapeAll ctx.store o.escapes, console := σ.console.pause }
    let σ2 := ((σ1.output .out o.stdout).output .err o.stderr).notice
      ⟨1, Command.pipeLine cs, .terminated, some o.status, true⟩
    RunsJob k (b.launch ctx cs J) b.nextJob J o.status
      { σ2 with console := σ2.console.resume } C := by
  intro σ1 σ2 E e hh
  obtain ⟨e1, j, hm1, hs, hid, hcommand, hj1, hj2, htable, howner, hjobs, hh', heq⟩ :=
    hr.runChain hcs ho hh
  have hconsole : (b.launch ctx cs J).console = σ.console.pause := by
    simp [launch, hroute, mode, hr.console]
  simp only [hroute, sink, listed?, map_some, hconsole] at hm1 hs hid
  have hm2 := (hm1.sendAny_terminal hj1 hs o.stdout).1
  have hm3 := (hm2.sendAny_terminal hj2 hs o.stderr).2
  have howner' : _ = some b.nextJob := howner.trans (by simp [launch, hroute, mode])
  obtain ⟨hm4, howner4, htable4⟩ := hm3.announce howner' hid .terminated o.status
  rw [htable] at hm4 htable4
  simp only [launch, hroute, listed?, elim_some, if_true, hcommand] at hm4 htable4
  refine ⟨_, ?_, hh', heq⟩
  refine { hm4 with jobs := hjobs, owner := howner4, table := ?_ }
  refine (congrArg entries htable4).trans ?_
  simp [JobTable.update, JobTable.contains, JobTable.entry?, JobState.isFinal, JobTable.eraseEntry]

lemma runsJob_capture {key : ℕ} (hr : Rests k σ ({(key, {})} + C) b)
    (hroute : ctx.route = .capture key) (hcs : cs.all k.plain = true)
    (ho : runAll k.config.failedStatus (cs.map (Launch.resolve k.services σ.world .routine))
      [] σ.world = (o, w)) (J : HubId) :
    RunsJob k (b.launch ctx cs J) b.nextJob J o.status
      { σ with world := w, stores := σ.stores.escapeAll ctx.store o.escapes }
      ({(key, ⟨o.stdout, o.stderr⟩)} + C) := by
  intro E e hh
  obtain ⟨e1, j, hm1, hs, hid, -, hj1, hj2, htable, howner, hjobs, hh', heq⟩ :=
    hr.runChain hcs ho hh
  have hconsole : (b.launch ctx cs J).console = σ.console := by
    simp [launch, hroute, mode, hr.console]
  simp only [hroute, sink, listed?, map_none, hconsole] at hm1 hs hid
  have hm2 := (hm1.sendAny_capture hj1 hs o.stdout).1
  have hm3 := (hm2.sendAny_capture hj2 hs o.stderr).2
  simp only [launch, hroute, mode, listed?, elim_none, reduceCtorEq, if_false,
    hr.owner] at howner htable
  refine ⟨_, ?_, hh', heq⟩
  simp only [announce, howner, hid, reduceCtorEq, if_false] at hjobs ⊢
  exact { hm3 with jobs := hjobs, owner := howner, table := htable ▸ hr.table }

/-! ### Pipelines as the interpreter runs them -/

lemma Starts.terminal {negated : Bool} {store : StoreId}
    (h : Interpreter.pipeline k store commands negated σ = some (s, σ')) (scope : Scope) :
    Starts k σ C s σ' C (openPipeline commands ⟨scope, store, .terminal⟩ negated) := by
  rcases hcs : commands.filter (!·.assignmentOnly) with _ | ⟨c, cs⟩
  · rw [pipeline_empty hcs] at h
    cases h
    exact .empty _ negated hcs
  · obtain ⟨hplain, o, w, ho, rfl, rfl⟩ := pipeline_eq_some hcs (by simp) h
    exact .pipeline negated hcs (by simp) (kindOf_plain hplain) fun b hr J =>
      runsJob_terminal hr rfl hplain ho J

lemma Starts.capture {negated : Bool} {store : StoreId} {c : Captured}
    (h : Interpreter.capture k store commands negated σ = some (c, σ')) (key : ℕ) :
    ∃ B : Buffers, c = ⟨Text.decodeLossy B.stdout, Text.decodeLossy B.stderr, c.status⟩ ∧
      Starts k σ ({(key, {})} + C) c.status σ' ({(key, B)} + C)
        (openPipeline commands { store, route := .capture key } negated) := by
  rcases hcs : commands.filter (!·.assignmentOnly) with _ | ⟨d, cs⟩
  · rw [capture_empty hcs] at h
    cases h
    exact ⟨{}, rfl, .empty _ negated hcs⟩
  · obtain ⟨hplain, o, w, ho, rfl, rfl⟩ := capture_eq_some hcs (by simp) h
    exact ⟨⟨o.stdout, o.stderr⟩, rfl, .pipeline negated hcs (by simp) (kindOf_plain hplain)
      fun b hr J => runsJob_capture hr rfl hplain ho J⟩

end Engine

end JobShell
