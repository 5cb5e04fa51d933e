import JobShell.Proofs.Engine.Machine
import JobShell.Proofs.Engine.Moves
import JobShell.Proofs.Engine.Refinement

/-!
The states an engine can come to.

From a fresh engine on, pieces of work are done, pipelines started and events heard in any order,
and all of that moves the registry. So in each state that can be reached the job table agrees with
the jobs there are, and the terminal belongs to the job in the foreground.
-/

namespace JobShell

open Registry Relation Option Console

namespace Engine

variable {e e' e'' : Engine}

/-- Two ways to compare engines: one for what is done around the jobs, or to one of them without
moving it, and one for all that is done to jobs. -/
structure Watches (κ μ : Engine → Engine → Prop) : Prop extends Audible κ where
  same (e : Engine) : μ e e
  before {e e' e'' : Engine} : κ e e' → μ e' e'' → μ e e''
  after {e e' e'' : Engine} : μ e e' → κ e' e'' → μ e e''
  beside (e : Engine) (config : Config) (services : Services) (system : System)
    (hubs : Hubs Callback) (stores : Stores) (captures : Slab Buffers) (tasks : List Task)
    (events : List Event) :
    κ e { e with config, services, system, hubs, stores, captures, tasks, events }
  native {e : Engine} {id : JobId} {j : Job} (n : Native) :
    e.job? id = some j → κ e (e.setJob id { j with body := .native n })
  used {e : Engine} {id : JobId} {j : Job} (c : Chain) (o : Chain.Outcome) (w : World) :
    e.job? id = some j → κ e (e.used id j c o w)
  settle (e : Engine) (id : JobId) {state : JobState} (status : Int) :
    state.isFinal = true → μ e (e.settle id state status).1
  stopped (e : Engine) (id : JobId) : μ e (e.stopped id)
  continued (e : Engine) (id : JobId) : μ e (e.continued id)
  startPipeline (e : Engine) (commands : List Command) (ctx : Context) (parent : Option HubId)
    (negated : Bool) : μ e (e.startPipeline commands ctx parent negated).2
  foreground {e e' : Engine} {n : ℕ} : e.foreground n = .ok e' → μ e e'
  background {e e' : Engine} {n : ℕ} : e.background n = .ok e' → μ e e'

namespace Watches

variable {κ μ : Engine → Engine → Prop} (t : Watches κ μ)

include t

lemma around (h : κ e e') : μ e e' := t.before h (t.same e')

/-! ### Lists and compound commands -/

variable (e)

lemma spawnRunner (steps : List Step) (ctx : Context) (parent : Option HubId) :
    κ e (e.spawnRunner steps ctx parent).2 := t.beside e _ _ _ _ _ _ _ _

lemma follow (hub child : HubId) (callback : Callback) : κ e (e.follow hub child callback).1 := by
  unfold Engine.follow
  split
  · rename_i hs
    unfold subscribe at hs
    split at hs <;> cases hs
    split <;> exact t.beside e _ _ _ _ _ _ _ _
  · exact t.write e _ _

lemma spawnNode (node : Tree.Node) (ctx : Context) (parent : Option HubId) :
    κ e (e.spawnNode node ctx parent).2.1 := by
  unfold Engine.spawnNode
  split
  · exact t.trans (t.beside e _ _ _ _ _ _ _ _) (t.follow _ _ _ _)
  · exact t.trans (t.beside e _ _ _ _ _ _ _ _) (t.follow _ _ _ _)
  · exact t.beside e _ _ _ _ _ _ _ _
  · exact t.beside e _ _ _ _ _ _ _ _
  · exact t.trans (t.beside e _ _ _ _ _ _ _ _) (t.follow _ _ _ _)
  · exact t.spawnRunner e _ _ _

lemma iterate (l : Loop) : κ e (e.iterate l).1 := by
  unfold Engine.iterate
  split
  · exact t.refl e
  · exact t.trans (t.spawnRunner e _ _ _) (t.follow _ _ _ _)

lemma stepDone (r : Runner) (status : Int) : κ e (e.stepDone r status).1 :=
  t.beside e _ _ _ _ _ _ _ _

lemma faultStep (r : Runner) (f : Fault) : κ e (e.faultStep r f).1 :=
  t.trans (t.write e _ _) (t.stepDone _ r _)

lemma pipelineStep (r : Runner) (commands : List Command)
    (background negated : Bool) : μ e (e.pipelineStep r commands background negated).1 := by
  unfold Engine.pipelineStep
  split <;> exact t.startPipeline e _ _ _ _

lemma commandStep (r : Runner) (c : Command) : μ e (e.commandStep r c).1 := by
  unfold Engine.commandStep
  split
  · exact t.around (t.beside e _ _ _ _ _ _ _ _)
  · split
    · rename_i hc
      refine t.after ?_ (t.stepDone _ r _)
      rcases jobControl?_eq_some hc with ⟨channel, data, rfl⟩ | ⟨n, hn⟩ | ⟨n, hn⟩
      · exact t.around (t.write e channel data)
      · exact t.foreground hn
      · exact t.background hn
    · exact t.pipelineStep e _ _ _ _

lemma advance (r : Runner) : μ e (e.advance r).1 := by
  unfold Engine.advance
  split
  · exact t.same e
  · exact t.commandStep e _ _
  · exact t.same e
  · exact t.same e
  · exact t.around (t.spawnNode e _ _ _)
  · exact t.around (t.spawnNode e _ _ _)

/-! ### Callbacks, tasks and evaluations -/

lemma call (status : Int) (callback : Callback) : κ e (e.call status callback).1 := by
  cases callback with
  | runner r => exact t.stepDone e r status
  | logical | branch =>
    simp only [Engine.call]
    split
    · exact t.spawnRunner e _ _ _
    · exact t.refl e
  | loop l => exact t.iterate e _
  | subshell hub store => exact t.beside e _ _ _ _ _ _ _ _
  | negate hub => exact t.refl e

lemma runChain (id : JobId) : μ e (e.runChain id).1 := by
  rcases hc : e.chain? id with _ | ⟨j, c⟩
  · simp only [Engine.runChain, hc]
    exact t.same e
  · obtain ⟨hj, hb⟩ := chain?_eq_some_iff.mp hc
    rcases ho : Chain.runAll e.config.failedStatus c.launches c.input e.system.world with ⟨o, w⟩
    rw [runChain_eq hj hb ho]
    have hsent := t.trans (t.trans (t.used c o w hj) (t.sendAny _ id .stdout o.stdout))
      (t.sendAny _ id .stderr o.stderr)
    exact t.before hsent (t.settle _ id o.status rfl)

lemma runTask (task : Task) : μ e (e.runTask task).1 := by
  cases task with
  | advance | complete | loop | choice | flush => exact t.same e
  | finalize p store =>
    exact t.around (finalize_of t.refl t.trans t.write (t.beside e _ _ _ _ _ _ _ _))
  | runChain job => exact t.runChain e job
  | fail job => exact t.settle e job _ rfl

lemma built (b : Built) : μ e (e.built b).1 := by
  unfold Engine.built
  split
  · exact t.commandStep e _ _
  · exact t.around (t.faultStep e _ _)
  · exact t.pipelineStep e _ _ _ _
  · exact t.around (t.faultStep e _ _)
  · exact t.around (t.iterate e _)
  · exact t.around (t.write e _ _)
  · exact t.around (t.spawnRunner e _ _ _)
  · exact t.same e
  · exact t.around (t.write e _ _)
  · exact t.same e

lemma evaluate (store : StoreId) (x : Expansion Built) : μ e (e.evaluate store x).1 := by
  cases x with
  | done b => exact t.built e b
  | value | aliasOf | paths => exact t.same e
  | capture commands negated next =>
    exact t.after (t.before (t.beside e _ _ _ _ _ _ _ _) (t.startPipeline _ _ _ _ _))
      (t.beside _ _ _ _ _ _ _ _ _)

/-! ### Turns -/

lemma interrupt : κ e e.interrupt := by
  unfold Engine.interrupt
  split
  · exact t.beside e _ _ _ _ _ _ _ _
  · exact t.refl e

lemma settleNative (id : JobId) : μ e (e.settleNative id).1 := by
  unfold Engine.settleNative
  split
  · split
    · refine t.settle e id _ ?_
      split <;> rfl
    · exact t.same e
  · exact t.same e

lemma dispatch (ev : Event) : μ e (e.dispatch ev).1 := by
  cases ev with
  | output id stream data => exact t.around (t.send e id stream data)
  | closed id stream =>
    simp only [Engine.dispatch]
    split
    · rename_i j n hn
      exact t.before (t.native _ (native?_eq_some_iff.mp hn).1) (t.settleNative _ id)
    · exact t.same e
  | process id index change =>
    simp only [Engine.dispatch]
    split
    · rename_i j n hn
      have hset := t.native (n.processChanged index change) (native?_eq_some_iff.mp hn).1
      split
      · exact t.before hset (t.settleNative _ id)
      · split
        · exact t.before hset (t.stopped _ id)
        · exact t.around hset
      · exact t.before hset (t.continued _ id)
    · exact t.same e
  | interrupt => exact t.around (t.interrupt e)

variable {e}

lemma turn {block : Bool} {ws : List Work} (h : e.turn block = .took e' ws) : μ e e' := by
  rcases took_cases h with ⟨task, ts, -, h⟩ | ⟨e1, event, events, he, h⟩
  · obtain ⟨rfl, rfl⟩ := Prod.ext_iff.mp h
    exact t.before (t.beside e _ _ _ _ _ _ _ _) (t.runTask _ task)
  · have hheard : κ e { e1 with events } := by
      rcases he with rfl | rfl <;> exact t.beside _ _ _ _ _ _ _ _ _
    obtain ⟨rfl, rfl⟩ := Prod.ext_iff.mp h
    exact t.before hheard (t.dispatch _ event)

lemma answer (e : Engine) (result : Except Fault Int) (w : Waiter) : κ e (e.answer result w).1 := by
  cases w with
  | request => exact t.refl e
  | evaluation store key next => exact t.beside e _ _ _ _ _ _ _ _

lemma await (e : Engine) (hub : HubId) (w : Waiter) : μ e (e.await hub w).1 := by
  rcases await_cases e hub w with ⟨s, -, h⟩ | ⟨-, ⟨f, -, h⟩ | ⟨e', ws, ht, h⟩⟩ <;> rw [h]
  · exact t.around (t.trans (t.beside e _ _ _ _ _ _ _ _) (t.answer _ _ w))
  · exact t.around (t.answer e _ w)
  · exact t.turn ht

lemma asks {w : Work} (hw : Asks w) (e : Engine) : μ e (e.perform w).1 := by
  rcases hw.perform e with ⟨next, -, h⟩ | ⟨block, e', ws, w', ht, -, h⟩ <;> rw [h]
  · exact t.same e
  · exact t.turn ht

lemma perform (e : Engine) (w : Work) : μ e (e.perform w).1 := by
  cases w with
  | duty d =>
    have hhubs : κ e { e with hubs := (e.hubs.perform d).1 } := t.beside e _ _ _ _ _ _ _ _
    simp only [Engine.perform]
    rcases (e.hubs.perform d).2.1 with _ | ⟨callback, status⟩
    · exact t.around hhubs
    · exact t.around (t.trans hhubs (t.call _ status callback))
  | defer task => exact t.around (t.beside e _ _ _ _ _ _ _ _)
  | advance r => exact t.advance e r
  | follow r child => exact t.around (t.follow e _ _ _)
  | evaluate store x => exact t.evaluate e store x
  | await hub w => exact t.await e hub w
  | turns => exact t.asks (.turns ..) e
  | poll => exact t.asks .poll e
  | drain => exact t.asks .drain e
  | untilState => exact t.asks (.untilState ..) e
  | reply => exact t.same e

end Watches

/-! ### States that can be reached -/

/-- An engine that has done nothing yet, with a console that keeps a transcript or one that does
not. -/
def initial (config : Config) (services : Services) (system : System) (direct : Bool) : Engine :=
  { config, services, system, console := if direct then .direct else .transcript [] }

/-- What an engine does from one state to the next. Work that is in hand, tasks and events come in
any order, and so do scripts and pipelines that are started from outside; the last case is for all
that has no part in keeping the jobs. -/
inductive Act : Engine → Engine → Prop where
  | perform (e : Engine) (w : Work) : Act e (e.perform w).1
  | runTask (e : Engine) (t : Task) : Act e (e.runTask t).1
  | dispatch (e : Engine) (ev : Event) : Act e (e.dispatch ev).1
  | spawn (e : Engine) (steps : List Step) (ctx : Context) (parent : Option HubId) :
      Act e (e.spawnRunner steps ctx parent).2
  | startPipeline (e : Engine) (commands : List Command) (ctx : Context) (parent : Option HubId)
      (negated : Bool) : Act e (e.startPipeline commands ctx parent negated).2
  | foreground {e e' : Engine} {n : ℕ} (h : e.foreground n = .ok e') : Act e e'
  | background {e e' : Engine} {n : ℕ} (h : e.background n = .ok e') : Act e e'
  | interrupt (e : Engine) : Act e e.interrupt
  | beside (e : Engine) (config : Config) (services : Services) (system : System)
      (hubs : Hubs Callback) (stores : Stores) (captures : Slab Buffers) (tasks : List Task)
      (events : List Event) :
      Act e { e with config, services, system, hubs, stores, captures, tasks, events }

lemma Watches.act {κ μ : Engine → Engine → Prop} (t : Watches κ μ) (h : Act e e') : μ e e' := by
  cases h with
  | perform w => exact t.perform e w
  | runTask task => exact t.runTask e task
  | dispatch ev => exact t.dispatch e ev
  | spawn steps ctx parent => exact t.around (t.spawnRunner e _ _ _)
  | startPipeline commands ctx parent negated => exact t.startPipeline e _ _ _ _
  | foreground h => exact t.foreground h
  | background h => exact t.background h
  | interrupt => exact t.around (t.interrupt e)
  | beside => exact t.around (t.beside e _ _ _ _ _ _ _ _)

lemma watches_moves : Watches Quiet Moves where
  toAudible := audible_quiet
  same := .refl
  before := Quiet.then
  after := .quiet
  beside _ _ _ _ _ _ _ _ _ := .of_eq rfl
  native _ h := quiet_setJob h rfl
  used {_ _ j} c _ _ h :=
    (quiet_system _).trans (.trans (quiet_setJob (j := j) (k := usedUp j c) h rfl) (.of_eq rfl))
  settle _ id _ status hs := moves_settle hs id status
  stopped _ id := moves_stopped id
  continued _ id := moves_continued id
  startPipeline _ := moves_startPipeline
  foreground := moves_foreground
  background := moves_background

lemma Act.moves (h : Act e e') : Moves e e' := watches_moves.act h

/-- A state an engine can come to. -/
def Reachable (e : Engine) : Prop :=
  ∃ config services system direct, ReflTransGen Act (initial config services system direct) e

lemma kept_initial (config : Config) (services : Services) (system : System) (direct : Bool) :
    (initial config services system direct).registry.Kept := by
  refine ⟨⟨.nil, .nil, ?_, ?_, ?_, ?_, ?_, rfl⟩, .inl ⟨rfl, rfl⟩, ?_⟩
  all_goals simp [initial, registry]
  cases direct <;> simp [turn?, lastTurn]

lemma Reachable.kept (h : Reachable e) : e.registry.Kept := by
  obtain ⟨config, services, system, direct, h⟩ := h
  induction h with
  | refl => exact kept_initial _ _ _ _
  | tail _ ha ih => exact ih.moves (ha.moves.path ih.toAgrees)

/-! ### The terminal -/

lemma job?_of_mem_registry (a : e.registry.Agrees) {id : JobId} {c : Card} :
    (id, c) ∈ e.registry.jobs ↔ ∃ j, e.job? id = some j ∧ j.card = c := by
  constructor
  · exact exists_job_of_mem_registry (keyed_of_agrees a)
  · rintro ⟨j, hj, rfl⟩
    exact mem_registry hj

/-- In each state that can be reached, the job that has the terminal is the one the table has in the
foreground. It is still there and has not ended; the console was paused last as long as there is
such a job; and it is the one that is interrupted. -/
theorem Reachable.terminal_owner (h : Reachable e) :
    e.owner = e.table.foreground.bind e.table.jobOf? ∧
    (e.owner = none ↔ e.table.foreground = none) ∧
    (∀ id, e.owner = some id → ∃ j, e.job? id = some j ∧ j.state.isFinal = false) ∧
    (∀ es, e.console = .transcript es →
      (Console.lastTurn es = some .pause ↔ e.owner.isSome = true)) ∧
    e.interrupt = (e.owner.bind e.native?).elim e fun (_, n) =>
      { e with system := n.signal e.system .interrupt } := by
  have k := h.kept
  have hpaused : ∀ es, e.console = .transcript es →
      (lastTurn es = some .pause ↔ e.owner.isSome = true) := by
    intro es hes
    exact k.paused (lastTurn es) (by simp [registry, hes, turn?])
  have hint : e.owner = e.table.foreground.bind e.table.jobOf? → e.interrupt =
      (e.owner.bind e.native?).elim e fun (_, n) =>
        { e with system := n.signal e.system .interrupt } := by
    intro ho
    rw [interrupt, ho]
    split <;> rename_i hn <;> rw [hn] <;> rfl
  rcases k.holder with ⟨ho, hf⟩ | ⟨id, c, n, hc, hn, ho, hf⟩
  · have ho' : e.owner = none := ho
    have hf' : e.table.foreground = none := hf
    have howner : e.owner = e.table.foreground.bind e.table.jobOf? := by rw [ho', hf']; rfl
    exact ⟨howner, by simp [ho', hf'], by simp [ho'], hpaused, hint howner⟩
  · have ho' : e.owner = some id := ho
    have hf' : e.table.foreground = some n := hf
    have hjob : e.table.jobOf? n = some id := k.toAgrees.jobOf?_eq_some_iff.mpr ⟨c, hc, hn⟩
    have howner : e.owner = e.table.foreground.bind e.table.jobOf? := by
      rw [ho', hf', bind_some, hjob]
    refine ⟨howner, by simp [ho', hf'], fun i hi => ?_, hpaused, hint howner⟩
    cases ho'.symm.trans hi
    obtain ⟨j, hj, rfl⟩ := (job?_of_mem_registry k.toAgrees).mp hc
    exact ⟨j, hj, (k.unsettled _ hc).1⟩

/-- `say a` and then `say b` are started in the foreground, and the first one ends: the terminal
stays with the second. -/
def overtaken : Engine :=
  let say (text : String) : Command := { name := "say", args := [.text text] }
  let e := (talking.startPipeline [say "a"] {} none false).2
  let e := (e.startPipeline [say "b"] {} none false).2
  (e.runTask (.runChain 1)).1

lemma acts_overtaken : ReflTransGen Act (initial {} talking.services {} false) overtaken :=
  ((ReflTransGen.single (.startPipeline _ _ _ _ _)).tail (.startPipeline _ _ _ _ _)).tail
    (.runTask _ _)

theorem terminal_owner_overtaken :
    overtaken.owner = some 2 ∧
      overtaken.owner = overtaken.table.foreground.bind overtaken.table.jobOf? ∧
      ∃ es, overtaken.console = .transcript es ∧ Console.lastTurn es = some .pause := by
  have howner : overtaken.owner = some 2 := by decide +kernel
  obtain ⟨hfg, -, -, hpaused, -⟩ :=
    Reachable.terminal_owner ⟨{}, talking.services, {}, false, acts_overtaken⟩
  have hkeeps : overtaken.console.turn?.isSome = true := by decide +kernel
  rcases hc : overtaken.console with es | _
  · exact ⟨howner, hfg, es, rfl, (hpaused es hc).mpr (by rw [howner]; rfl)⟩
  · rw [hc] at hkeeps
    cases hkeeps

/-! ### The job table -/

/-- What an engine does, with jobs that are made and started one by one. -/
inductive Deed : Engine → Engine → Prop where
  | act {e e' : Engine} (h : Act e e') : Deed e e'
  | create (e : Engine) (kind : JobKind) (commands : List Command) (hub : HubId) (store : StoreId)
      (sink : Sink) (listed : Listing) :
      Deed e (e.createJob kind commands hub store sink listed).2
  | start {e : Engine} {id : JobId} {j : Job} (h : e.job? id = some j) (hs : j.state = .unstarted)
      (mode : Mode) (taps : Taps) : Deed e (e.startJob id mode taps).2

lemma Deed.agrees (h : Deed e e') (a : e.registry.Agrees) :
    e'.registry.Agrees ∧ Later e.registry e'.registry := by
  cases h with
  | act h => exact ⟨a.moves (h.moves.path a), later_of_moves (h.moves.path a)⟩
  | create kind commands hub store sink listed =>
    rw [registry_createJob]
    exact ⟨a.enter _ _ _, later_enter _ _ _ _⟩
  | @start id j hj hs mode taps =>
    have hm := mem_registry hj
    have hl := a.fresh _ hm hs
    have a' := a.start hm mode
    have hlater := later_start e.registry id j.card mode
    rcases registry_startJob (keyed_of_agrees a) hm hl mode taps with hr | hr <;> rw [hr]
    · exact ⟨a', hlater⟩
    · exact ⟨a'.enliven ((mem_start hm mode).mpr (.inr ⟨rfl, rfl⟩)) hl rfl,
        hlater.trans (later_enliven _ _ _)⟩

lemma Deed.all_agrees (h : ReflTransGen Deed e e') (a : e.registry.Agrees) :
    e'.registry.Agrees ∧ Later e.registry e'.registry := by
  induction h with
  | refl => exact ⟨a, .of_subset rfl (List.Subset.refl _)⟩
  | tail _ hd ih =>
    obtain ⟨a', hl⟩ := hd.agrees ih.1
    exact ⟨a', ih.2.trans hl⟩

/-- A state an engine can come to while jobs are made and started one by one. -/
def Attainable (e : Engine) : Prop :=
  ∃ config services system direct, ReflTransGen Deed (initial config services system direct) e

lemma Attainable.agrees (h : Attainable e) : e.registry.Agrees := by
  obtain ⟨config, services, system, direct, h⟩ := h
  exact (Deed.all_agrees h (kept_initial _ _ _ _).toAgrees).1

/-- In each state that can be reached, the table lists the jobs that have a number in it, in the
states they have, and no job that has ended is left in either. Jobs are numbered through, and the
number of one that is gone does not come back; and all jobs with processes that may report are
counted. -/
theorem Attainable.table_agrees (h : Attainable e) :
    (e.jobs.map Prod.fst).Nodup ∧
    (∀ n id, e.table.jobOf? n = some id ↔ ∃ j, e.job? id = some j ∧ j.tableId = some n) ∧
    (∀ n x, e.table.entry? n = some x → x.state.isFinal = false ∧ x.status = none ∧
      ∃ j, e.job? x.job = some j ∧ j.tableId = some n ∧ j.state = x.state) ∧
    (∀ id j, e.job? id = some j → j.state.isFinal = false ∧ j.status = none ∧ id < e.nextJob) ∧
    (∀ e' id, ReflTransGen Deed e e' → id < e.nextJob → e.job? id = none → e'.job? id = none) ∧
    e.live = e.jobs.countP fun p => p.2.live := by
  have a := h.agrees
  refine ⟨keyed_of_agrees a, fun n id => ?_, fun n x hx => ?_, fun id j hj => ?_,
    fun e' id hd hid hnone => ?_, ?_⟩
  · refine a.jobOf?_eq_some_iff.trans ⟨?_, ?_⟩
    · rintro ⟨c, hc, hn⟩
      obtain ⟨j, hj, rfl⟩ := (job?_of_mem_registry a).mp hc
      exact ⟨j, hj, hn⟩
    · rintro ⟨j, hj, hn⟩
      exact ⟨j.card, mem_registry hj, hn⟩
  · have hm : (n, x) ∈ e.registry.table.entries := (lookup_eq_some_iff_mem a.numbers).mp hx
    obtain ⟨c, hc, hn, hs⟩ := a.job_of_entry hm
    obtain ⟨j, hj, rfl⟩ := (job?_of_mem_registry a).mp hc
    exact ⟨hs ▸ (a.unsettled _ hc).1, a.entries _ hm, j, hj, hn, hs⟩
  · have hm := mem_registry hj
    exact ⟨(a.unsettled _ hm).1, (a.unsettled _ hm).2, a.numbered _ hm⟩
  · obtain ⟨a', hl⟩ := Deed.all_agrees hd a
    by_contra hsome
    obtain ⟨j', hj'⟩ := ne_none_iff_exists'.mp hsome
    rcases hl.jobs id (List.mem_map.mpr ⟨_, mem_registry hj', rfl⟩) with hold | hnew
    · obtain ⟨⟨i, c⟩, hm, rfl⟩ := List.mem_map.mp hold
      obtain ⟨j, hj, -⟩ := (job?_of_mem_registry a).mp hm
      cases hnone.symm.trans hj
    · exact absurd hid (Nat.not_lt.mpr hnew)
  · have hlive := a.live
    simp only [registry, List.countP_map] at hlive
    exact hlive

/-- A job for `say c` that was made and not started: it has the number in the table that the first
job had, and the number of that job does not come back. -/
def unstarted : Engine :=
  (overtaken.createJob .routine [{ name := "say", args := [.text "c"] }] 0 Stores.root .terminal
    (some (false, "say c"))).2

theorem table_agrees_unstarted :
    (∃ j, unstarted.job? 3 = some j ∧ j.tableId = some 1) ∧ unstarted.live = 0 ∧
      ∀ e', ReflTransGen Deed unstarted e' → e'.job? 1 = none := by
  have hreach : Attainable unstarted :=
    ⟨{}, talking.services, {}, false,
      (acts_overtaken.lift id fun _ _ h => .act h).tail (.create _ _ _ _ _ _ _)⟩
  obtain ⟨-, hlisted, -, -, hgone, -⟩ := hreach.table_agrees
  have hjob : unstarted.table.jobOf? 1 = some 3 := by decide +kernel
  have hnone : unstarted.job? 1 = none := isNone_iff_eq_none.mp (by decide +kernel)
  exact ⟨(hlisted 1 3).mp hjob, by decide +kernel,
    fun e' he' => hgone e' 1 he' (by decide +kernel) hnone⟩

end Engine

end JobShell
