import JobShell.Proofs.Engine.Debts
import JobShell.Proofs.Engine.Outlets

/-!
What one piece of work does to jobs and buffers.

Whatever stands on top of the stack, doing it has one of a few effects: jobs and buffers are left
alone, a pipeline of a list is launched, one whose output is kept is launched, a job comes to its
end, or an evaluation is given what was kept for it. Main statement: there are no other effects as
long as no process has anything to report.
-/

namespace JobShell

open List

def Built.Aloud : Built → Prop
  | .command r _ _ | .pipeline r _ _ _ => r.ctx.Aloud
  | .loop l _ => l.ctx.Aloud
  | .choice _ ctx _ => ctx.Aloud
  | .reply _ => True

def Waiter.Aloud : Waiter → Prop
  | .request => True
  | .evaluation _ _ next => ∀ r, (next r).All Built.Aloud

/-- Work that is done for a list that speaks aloud. -/
def Work.Aloud : Work → Prop
  | .defer t => t.Aloud
  | .advance r | .follow r _ => r.ctx.Aloud
  | .evaluate _ x => x.All Built.Aloud
  | .await _ w => w.Aloud
  | _ => True

/-- The end of a job: what it has come to, and the world that it leaves. -/
structure Finish where
  job : JobId
  outcome : Chain.Outcome
  world : World

/-- What is left to do for a job that has come to its end: its hub is notified, and finalizers are
to come. -/
def Finish.rest (x : Finish) (hub : HubId) (store : StoreId) : List Work :=
  .duty (.notify hub x.outcome.status) ::
    (x.outcome.pending.map (.finalize · store)).toList.map .defer

lemma Finish.aloud_rest (x : Finish) (hub : HubId) (store : StoreId) :
    ∀ w ∈ x.rest hub store, w.Aloud := by
  intro w hw
  rcases mem_cons.mp hw with rfl | hw
  · exact trivial
  · obtain ⟨t, ht, rfl⟩ := mem_map.mp hw
    obtain ⟨p, -, rfl⟩ := Option.map_eq_some_iff.mp (Option.mem_toList.mp ht)
    exact trivial

namespace Engine

open Expansion

variable {e e' : Engine} {ctx : Context} {r : Runner} {p : Engine × List Work} {hub child : HubId}
  {cb : Callback} {ws : List Work} {w : Work} {t : Task}

/-- Jobs and buffers are left alone, and what is then in hand is done aloud. -/
structure Mild (e : Engine) (p : Engine × List Work) : Prop where
  hushed : Hushed e p.1
  aloud : ∀ w ∈ p.2, w.Aloud

/-- A list goes on: jobs and buffers are left alone, or a pipeline is launched. -/
inductive Effect (e : Engine) (p : Engine × List Work) : Prop where
  | mild (h : Mild e p)
  | launched {ctx : Context} {diagnostics : Bytes} {n : ℕ} (hc : ctx.Aloud)
      (h : Launched ctx.route diagnostics n e p.1) (ha : ∀ w ∈ p.2, w.Aloud)

lemma aloud_duties (ds : List Duty) : ∀ w ∈ ds.map Work.duty, w.Aloud := by
  intro w hw
  obtain ⟨d, -, rfl⟩ := mem_map.mp hw
  exact trivial

lemma aloud_append {ws' : List Work} (h : ∀ w ∈ ws, w.Aloud) (h' : ∀ w ∈ ws', w.Aloud) :
    ∀ w ∈ ws ++ ws', w.Aloud :=
  forall_mem_append.mpr ⟨h, h'⟩

lemma aloud_one (hw : w.Aloud) : ∀ w' ∈ [w], w'.Aloud := by
  intro w' hm
  rw [mem_singleton.mp hm]
  exact hw

lemma mild_owing {p : Engine × List Duty} (h : Hushed e p.1) : Mild e (owing p) :=
  ⟨h, aloud_duties p.2⟩

lemma Mild.one (h : Hushed e e') (hw : w.Aloud) : Mild e (e', [w]) := ⟨h, aloud_one hw⟩

lemma Hushed.mild (h : Hushed e e') (h' : Mild e' p) : Mild e p := ⟨h.trans h'.hushed, h'.aloud⟩

/-! ### Compound commands -/

lemma hushed_report (e : Engine) (f : Fault) : Hushed e (e.report f) := hushed_write e _ _

lemma hushed_spawnRunner (e : Engine) (steps : List Step) (hc : ctx.Aloud) (parent : Option HubId) :
    Hushed e (e.spawnRunner steps ctx parent).2 :=
  (hushed_createHub e parent).trans (hushed_defer _ (t := .advance _) hc)

lemma hushed_follow (e : Engine) (hub child : HubId) (cb : Callback) (hcb : cb.Aloud) :
    Hushed e (e.follow hub child cb).1 := by
  unfold follow
  split
  · rename_i e' hsub
    exact hushed_subscribe hsub hcb
  · exact hushed_report e _

/-- A part of a compound command is started, and the rest is to follow. -/
lemma hushed_part (e : Engine) (items : List Tree.Item) (hc : ctx.Aloud) (cb : Callback)
    (hcb : cb.Aloud) :
    Hushed e ((e.spawnItems items ctx (some hub)).2.follow hub
      (e.spawnItems items ctx (some hub)).1 cb).1 :=
  (hushed_spawnRunner e _ hc _).trans (hushed_follow _ _ _ cb hcb)

lemma hushed_spawnNode (e : Engine) (node : Tree.Node) (hc : ctx.Aloud) (parent : Option HubId) :
    Hushed e (e.spawnNode node ctx parent).2.1 := by
  have hhub := hushed_createHub e parent
  cases node with
  | logical op left right => exact hhub.trans (hushed_part _ _ hc (.logical _ _ _ _) hc)
  | conditional condition onSuccess onFailure =>
    exact hhub.trans (hushed_part _ _ hc (.branch _ _ _ _) hc)
  | loop name words body => exact hhub.trans (hushed_defer _ (t := .loop _ _ _ _ _) hc)
  | choice subject arms => exact hhub.trans (hushed_defer _ (t := .choice _ _ _ _) hc)
  | subshell body =>
    set e1 := (e.createHub parent).2
    have hfork : Hushed e1 { e1 with stores := (e1.stores.fork ctx.store).2 } :=
      .of_eq rfl rfl rfl rfl rfl
    have hc' : ({ ctx with store := (e1.stores.fork ctx.store).1 } : Context).Aloud := hc
    exact (hhub.trans hfork).trans (hushed_part _ _ hc' (.subshell _ _) trivial)
  | command | pipeline => exact hushed_spawnRunner e _ hc parent

lemma mild_conclude (e : Engine) (hub : HubId) (items : List Tree.Item) (hc : ctx.Aloud) :
    Mild e (owing (e.conclude hub items ctx)) :=
  mild_owing (hushed_spawnRunner e _ hc _)

lemma mild_failHub (e : Engine) (hub : HubId) (f : Fault) : Mild e (owing (e.failHub hub f)) :=
  mild_owing (hushed_report e f)

lemma mild_iterate (e : Engine) {l : Loop} (hc : l.ctx.Aloud) : Mild e (owing (e.iterate l)) := by
  refine mild_owing ?_
  unfold iterate
  split
  · exact .refl e
  · rename_i v values hv
    have hc' : ({ l.ctx with scope := l.ctx.scope.push [(l.name, v)] } : Context).Aloud := hc
    exact hushed_part e _ hc' (.loop _) hc

/-! ### Lists -/

section

variable (e) (hr : r.ctx.Aloud)
include hr

lemma mild_stepDone (status : Int) : Mild e (e.stepDone r status) :=
  .one (w := .advance _) (.of_eq rfl rfl rfl rfl rfl) hr

lemma mild_faultStep (f : Fault) : Mild e (e.faultStep r f) :=
  (hushed_report e f).mild (mild_stepDone _ hr _)

lemma effect_pipelineStep (commands : List Command)
    (background negated : Bool) : Effect e (e.pipelineStep r commands background negated) := by
  cases background with
  | true =>
    have h := launched_startPipeline e commands r.ctx.inBackground none negated
    exact .launched r.ctx.aloud_inBackground h
      (aloud_append (aloud_duties _) (aloud_one (w := .advance _) hr))
  | false =>
    have h := launched_startPipeline e commands r.ctx (some r.hub) negated
    exact .launched hr h (aloud_append (aloud_duties _) (aloud_one (w := .follow _ _) hr))

lemma effect_commandStep (c : Command) : Effect e (e.commandStep r c) := by
  unfold commandStep
  split
  · have hstores : Hushed e { e with
        stores := c.assignments.foldl (fun s b => s.set r.ctx.store b.1 b.2) e.stores } :=
      .of_eq rfl rfl rfl rfl rfl
    exact .mild (hstores.mild (mild_stepDone _ hr 0))
  · split
    · rename_i status e' hcontrol
      exact .mild ((hushed_jobControl? hcontrol).mild (mild_stepDone _ hr status))
    · exact effect_pipelineStep e hr _ _ _

lemma effect_advance : Effect e (e.advance r) := by
  have hevaluate : ∀ {α : Type} (x : Expansion α) (f : α → Built), (∀ a, (f a).Aloud) →
      Effect e (e, [.evaluate r.ctx.store (x.map f)]) := fun x f hf =>
    .mild (.one (w := .evaluate _ _) (.refl e) ((all_true x).map fun a _ => hf a))
  rcases hs : r.steps with _ | ⟨step, steps⟩
  · simp only [advance, hs]
    exact .mild (.one (w := .duty _) (.refl e) trivial)
  · rcases step with c | ⟨node, background⟩
    · simp only [advance, hs]
      exact effect_commandStep (r := { r with steps }) e hr c
    · by_cases hn : Compound node
      · rw [advance_compound hn hs]
        cases background with
        | true => exact .mild ⟨hushed_spawnNode e node r.ctx.aloud_inBackground none,
            aloud_append (aloud_duties _) (aloud_one (w := .advance _) hr)⟩
        | false => exact .mild ⟨hushed_spawnNode e node hr (some r.hub),
            aloud_append (aloud_duties _) (aloud_one (w := .follow _ _) hr)⟩
      · cases node with
        | command | pipeline =>
          simp only [advance, hs]
          exact hevaluate _ _ fun _ => hr
        | _ => exact absurd trivial hn

end

/-! ### Callbacks and evaluations -/

lemma mild_call (e : Engine) (status : Int) (hcb : cb.Aloud) : Mild e (e.call status cb) := by
  have hnotify : ∀ {e' : Engine} (hub : HubId) (s : Int), Hushed e e' →
      Mild e (e', [.duty (.notify hub s)]) := fun hub s h => .one (w := .duty _) h trivial
  cases cb with
  | runner r => exact mild_stepDone e hcb status
  | logical hub =>
    simp only [call]
    split
    · exact mild_conclude e hub _ hcb
    · exact hnotify hub status (.refl e)
  | branch hub =>
    simp only [call]
    split
    · exact mild_conclude e hub _ hcb
    · exact hnotify hub 0 (.refl e)
  | loop l => exact mild_iterate (l := { l with status }) e hcb
  | subshell hub store => exact hnotify hub status (.of_eq rfl rfl rfl rfl rfl)
  | negate hub => exact hnotify hub _ (.refl e)

lemma effect_built (e : Engine) {b : Built} (hb : b.Aloud) : Effect e (e.built b) := by
  cases b with
  | command r background c =>
    cases c with
    | ok c => exact effect_commandStep e hb _
    | error f => exact .mild (mild_faultStep e hb f)
  | pipeline r background negated cs =>
    cases cs with
    | ok cs => exact effect_pipelineStep e hb cs background negated
    | error f => exact .mild (mild_faultStep e hb f)
  | loop l values =>
    cases values with
    | ok values => exact .mild (mild_iterate (l := { l with values }) e hb)
    | error f => exact .mild (mild_failHub e l.hub f)
  | choice hub ctx body =>
    rcases body with f | _ | items
    · exact .mild (mild_failHub e hub f)
    · exact .mild (.one (w := .duty _) (.refl e) trivial)
    · exact .mild (mild_conclude e hub items hb)
  | reply r => exact .mild (.one (w := .reply _) (.refl e) trivial)

lemma mild_duty (ha : e.Aloud) (d : Duty) : Mild e (e.perform (.duty d)) := by
  have hcalls : ∀ cb, (e.hubs.perform d).1.Calls cb → e.hubs.Calls cb :=
    fun cb => Hubs.Calls.of_perform.1
  have hcalled : ∀ cb status, (e.hubs.perform d).2.1 = some (cb, status) → e.hubs.Calls cb :=
    fun cb => Hubs.Calls.of_perform.2
  rcases hp : e.hubs.perform d with ⟨hubs, called, duties⟩
  rw [hp] at hcalls hcalled
  have hhubs : Hushed e { e with hubs } := hushed_hubs e fun cb hc => .inl (hcalls cb hc)
  simp only [perform, hp]
  rcases called with _ | ⟨cb, status⟩
  · exact ⟨hhubs, aloud_duties duties⟩
  · have h :=
      hhubs.mild (mild_call { e with hubs } status (ha.callbacks cb (hcalled cb status rfl)))
    exact ⟨h.hushed, aloud_append h.aloud (aloud_duties duties)⟩

/-! ### Tasks -/

/-- What a task that ends a job makes of it: its routines run, or it has failed. -/
def finish? (e : Engine) : Task → Option Finish
  | .runChain id => (e.chain? id).map fun (_, c) =>
      let (o, _, world) := c.run e.config.failedStatus e.system.world
      ⟨id, o, world⟩
  | .fail id => (e.job? id).map fun _ =>
      ⟨id, ⟨[], [], e.config.failedStatus, [], none⟩, e.system.world⟩
  | _ => none

/-- A task leaves jobs and buffers alone, or a job comes to its end. -/
lemma runTask_effect (ha : t.Aloud) :
    Mild e (e.runTask t) ∨ ∃ x j, e.finish? t = some x ∧ e.job? x.job = some j ∧
      Closes x.job j.outlet x.outcome.stdout x.outcome.stderr e (e.runTask t).1 ∧
      (e.runTask t).2 = x.rest j.hub j.store := by
  cases t with
  | advance r => exact .inl (.one (w := .advance _) (.refl e) ha)
  | complete hub status => exact .inl (.one (w := .duty _) (.refl e) trivial)
  | loop | choice =>
    exact .inl (.one (w := .evaluate _ _) (.refl e) ((all_true _).map fun _ _ => ha))
  | finalize p store => exact .inl ⟨hushed_finalize e p store, by simp [runTask]⟩
  | flush hub => exact .inl ⟨.refl e, aloud_duties _⟩
  | runChain id =>
    rcases hc : e.chain? id with _ | ⟨j, c⟩
    · refine .inl ⟨?_, ?_⟩ <;> simp [runTask, runChain, hc, Hushed.refl]
    · obtain ⟨hj, hb⟩ := chain?_eq_some_iff.mp hc
      rcases ho : Chain.runAll e.config.failedStatus c.launches c.input e.system.world with ⟨o, w⟩
      obtain ⟨hcloses, hrest⟩ := closes_runChain hj hb ho
      refine .inr ⟨⟨id, o, w⟩, j, ?_, hj, hcloses, ?_⟩
      · simp [finish?, hc, Chain.run, ho]
      · simp [runTask, Finish.rest, hrest]
  | fail id =>
    rcases hj : e.job? id with _ | j
    · refine .inl ⟨?_, ?_⟩ <;> simp [runTask, settle, owing, hj, Hushed.refl]
    · refine .inr ⟨⟨id, ⟨[], [], e.config.failedStatus, [], none⟩, e.system.world⟩, j, ?_, hj,
        closes_settle hj .failed _, ?_⟩
      · simp [finish?, hj]
      · simp [runTask, owing, settle_eq hj, Finish.rest]

lemma hushed_pop {ts : List Task} (ht : e.tasks = t :: ts) : Hushed e (e.withTasks ts) :=
  ⟨⟨⟨fun _ hu => .inl (ht ▸ mem_cons_of_mem _ hu), fun _ h => .inl h⟩, fun _ => rfl, rfl⟩, rfl⟩

lemma Hushed.closes {id : JobId} {o : Outlet} {stdout stderr : Bytes} {e'' : Engine}
    (h : Hushed e e') (h' : Closes id o stdout stderr e' e'') :
    Closes id o stdout stderr e e'' where
  toTends := h.toTends.trans h'.toTends
  nextJob := h'.nextJob.trans h.nextJob
  outlet i := by rw [h'.outlet i, h.outlet i]
  captures key := by rw [h'.captures key, h.captures]

lemma finish?_tasks (e : Engine) (ts : List Task) (t : Task) :
    (e.withTasks ts).finish? t = e.finish? t := by
  cases t <;> rfl

/-! ### All work -/

/-- The buffer of a substitution is taken, and jobs are left alone. -/
structure Taken (key : ℕ) (e e' : Engine) : Prop extends Placed e e' where
  captures : e'.captures = e.captures.erase key

/-- What doing a piece of work comes to. Whoever waits goes on waiting, unless the answer is
there. -/
inductive Acts (e : Engine) (w : Work) (p : Engine × List Work) : Prop where
  | mild (h : Mild e p)
      (hw : ∀ X store key next, w = .await X (.evaluation store key next) → ∃ us, p.2 = us ++ [w])
  | launched {ctx : Context} {diagnostics : Bytes} {n : ℕ} (hc : ctx.Aloud)
      (h : Launched ctx.route diagnostics n e p.1) (ha : ∀ w ∈ p.2, w.Aloud)
      (hw : ∀ X v, w ≠ .await X v)
  | captured {store : StoreId} {commands : List Command} {negated : Bool}
      {next : Resumption}
      (hw : w = .evaluate store (.capture commands negated next))
      (h : Launched (.capture e.captures.next)
        (e.withCapture.pipelineDiagnostics commands
          { store, route := .capture e.captures.next } none)
        (e.segments commands) e.withCapture p.1)
      (ha : ∀ w ∈ p.2, w.Aloud)
  | finished {t : Task} {ts : List Task} {x : Finish} {j : Job} {tail : List Work}
      (ht : e.tasks = t :: ts) (hx : e.finish? t = some x) (hj : e.job? x.job = some j)
      (h : Closes x.job j.outlet x.outcome.stdout x.outcome.stderr e p.1)
      (hrun : p.1 = ((e.withTasks ts).runTask t).1)
      (hp : p.2 = x.rest j.hub j.store ++ tail) (ha : ∀ w ∈ tail, w.Aloud)
      (hw : ∀ X v, w = .await X v → tail = [w])
  | answered {X : HubId} {store : StoreId} {key : ℕ}
      {next : Resumption} {r : Except Fault Captured}
      (hw : w = .await X (.evaluation store key next)) (h : Taken key e p.1)
      (hp : p.2 = [.evaluate store (next r)]) (ha : (next r).All Built.Aloud)
      (hr : (∃ s, e.hubs.status? X = some s ∧ r = .ok (e.takeCapture key s).1) ∨
        e.hubs.status? X = none ∧ (e.hubs.get? X = none ∨ e.tasks = []))

lemma Effect.acts (h : Effect e p) (hw : ∀ X v, w ≠ .await X v) : Acts e w p := by
  cases h with
  | mild h => exact .mild h fun X store key next hX => absurd hX (hw X _)
  | launched hc h ha => exact .launched hc h ha hw

lemma hushed_interrupt (e : Engine) : Hushed e e.interrupt := by
  unfold interrupt
  split
  · exact hushed_system e _
  · exact .refl e

/-- Without news of processes a turn takes a task, or hears of an interrupt. -/
lemma took_quiet (he : ∀ event ∈ e.events, event = .interrupt) (hl : e.live = 0) {block : Bool}
    {ws : List Work} (h : e.turn block = .took e' ws) :
    (∃ t ts, e.tasks = t :: ts ∧ (e.withTasks ts).runTask t = (e', ws)) ∨
    ∃ events, e.events = .interrupt :: events ∧
      (({ e with events } : Engine).interrupt, []) = (e', ws) := by
  rcases ht : e.tasks with _ | ⟨t, ts⟩
  · rcases hev : e.events with _ | ⟨event, events⟩
    · cases block <;> simp [turn, ht, hear, hev, hl] at h
    · obtain rfl := he event (by simp [hev])
      exact .inr ⟨events, rfl, by simpa [turn, ht, hear, hev, dispatch, owing] using h⟩
  · exact .inl ⟨t, ts, rfl, Prod.ext_iff.mpr (by simpa [turn, ht] using h)⟩

lemma tasks_of_stalled {block : Bool} (h : e.turn block = .stalled) : e.tasks = [] := by
  rcases ht : e.tasks with _ | ⟨t, ts⟩
  · rfl
  · simp [turn, ht] at h

lemma mild_interrupt (e : Engine) (events : List Event) {next : List Work}
    (hnext : ∀ w ∈ next, w.Aloud) :
    Mild e (({ e with events } : Engine).interrupt, [] ++ next) := by
  have hheard : Hushed e { e with events } := .of_eq rfl rfl rfl rfl rfl
  exact ⟨hheard.trans (hushed_interrupt _), hnext⟩

lemma acts_task (ha : e.Aloud) {ts : List Task} (ht : e.tasks = t :: ts)
    {tail : List Work} (htail : ∀ w ∈ tail, w.Aloud) (hw : ∀ X v, w = .await X v → tail = [w]) :
    Acts e w (((e.withTasks ts).runTask t).1,
      ((e.withTasks ts).runTask t).2 ++ tail) := by
  have hpop := hushed_pop ht
  have haloud : t.Aloud := ha.tasks t (ht ▸ mem_cons_self)
  rcases runTask_effect (e := (e.withTasks ts)) haloud with h | ⟨x, j, hx, hj, hcloses, hrest⟩
  · refine .mild ⟨hpop.trans h.hushed, aloud_append h.aloud htail⟩ fun X store key next hX => ?_
    exact ⟨_, by rw [hw X _ hX]⟩
  · rw [finish?_tasks] at hx
    exact .finished ht hx hj (hpop.closes hcloses) rfl (by rw [hrest]) htail hw

lemma acts_turn (ha : e.Aloud) (he : ∀ event ∈ e.events, event = .interrupt) (hl : e.live = 0)
    {block : Bool} {ws tail : List Work} (h : e.turn block = .took e' ws)
    (htail : ∀ w ∈ tail, w.Aloud) (hw : ∀ X v, w = .await X v → tail = [w]) :
    Acts e w (e', ws ++ tail) := by
  rcases took_quiet he hl h with ⟨t, ts, ht, h⟩ | ⟨events, -, h⟩ <;>
    obtain ⟨rfl, rfl⟩ := Prod.ext_iff.mp h
  · exact acts_task ha ht htail hw
  · exact .mild (mild_interrupt e events htail) fun X store key next hX => ⟨[], hw X _ hX⟩

lemma Asks.aloud (hw : Asks w) : w.Aloud := by
  cases hw <;> trivial

lemma hushed_retain (e : Engine) (X : HubId) : Hushed e { e with hubs := e.hubs.retain X } :=
  hushed_hubs e fun _ hc => .inl (hc.of_tame (Hubs.tame_retain _ _))

/-- A pipeline whose output is kept is launched with a new buffer. -/
lemma launched_capture (e : Engine) (commands : List Command) (store : StoreId) (negated : Bool) :
    Launched (.capture e.captures.next)
      (e.withCapture.pipelineDiagnostics commands
        { store, route := .capture e.captures.next } none)
      (e.segments commands) e.withCapture
      (e.startCapture commands store negated).2.2 :=
  (launched_startPipeline e.withCapture commands
    { store, route := .capture e.captures.next } none negated).then (hushed_retain _ _)

lemma hushed_release (e : Engine) (X : HubId) : Hushed e { e with hubs := e.hubs.release X } :=
  hushed_hubs e fun _ hc => .inl (hc.of_tame (Hubs.tame_release _ _))

lemma acts_answer {X : HubId} {v : Waiter} (hv : v.Aloud) (h : Hushed e e')
    (result : Except Fault Int) (hr : (∃ s, e.hubs.status? X = some s ∧ result = .ok s) ∨
      e.hubs.status? X = none ∧ (e.hubs.get? X = none ∨ e.tasks = [])) :
    Acts e (.await X v) (e'.answer result v) := by
  cases v with
  | request =>
    exact .mild (.one (w := .reply _) h trivial) fun _ _ _ _ hw => by cases hw
  | evaluation store key next =>
    refine .answered rfl ⟨⟨h.toTends.trans (.of_eq rfl rfl), h.outlet, h.nextJob⟩,
      congrArg (Slab.erase · key) h.captures⟩ rfl (hv _) (hr.imp_left ?_)
    rintro ⟨s, hs, rfl⟩
    refine ⟨s, hs, congrArg Except.ok ?_⟩
    simp only [takeCapture, h.captures]
    rfl

lemma acts_perform (ha : e.Aloud) (he : ∀ event ∈ e.events, event = .interrupt) (hl : e.live = 0)
    (hw : w.Aloud) : Acts e w (e.perform w) := by
  have hmild : ∀ {w : Work} {p : Engine × List Work}, Mild e p → (∀ X v, w ≠ .await X v) →
      Acts e w p := fun h hw => Effect.acts (.mild h) hw
  have hasks : Asks w → (∀ X v, w ≠ .await X v) → Acts e w (e.perform w) := by
    intro hasks hne
    rcases hasks.perform e with ⟨next, hnext, h⟩ | ⟨block, e', ws, w', ht, hw', h⟩ <;> rw [h]
    · exact hmild ⟨.refl e, fun w' hw' => (hnext w' (by simpa using hw')).aloud⟩ hne
    · exact acts_turn ha he hl ht (aloud_one hw'.aloud) fun X v hX => absurd hX (hne X v)
  cases w with
  | duty d => exact hmild (mild_duty ha d) nofun
  | defer t => exact hmild ⟨hushed_defer e hw, by simp [perform]⟩ nofun
  | advance r => exact (effect_advance e hw).acts nofun
  | follow r child => exact hmild (mild_owing (hushed_follow e _ _ (.runner _) hw)) nofun
  | evaluate store x =>
    cases x with
    | done b => exact (effect_built e hw).acts nofun
    | value | aliasOf | paths => exact hmild (.one (w := .evaluate _ _) (.refl e) (hw _)) nofun
    | capture commands negated next =>
      exact .captured rfl (launched_capture e commands store negated)
        (aloud_append (aloud_duties _) (aloud_one (w := .await _ _) hw))
  | await X v =>
    simp only [perform]
    rcases await_cases e X v with ⟨s, hs, h⟩ | ⟨hs, ⟨f, hf, h⟩ | ⟨e', ws, ht, h⟩⟩ <;> rw [h]
    · exact acts_answer hw (hushed_release e X) _ (.inl ⟨s, hs, rfl⟩)
    · exact acts_answer hw (.refl e) _ (.inr ⟨hs, hf.imp_right tasks_of_stalled⟩)
    · exact acts_turn ha he hl ht (aloud_one hw) fun _ _ _ => rfl
  | turns => exact hasks (.turns ..) nofun
  | poll => exact hasks .poll nofun
  | drain => exact hasks .drain nofun
  | untilState => exact hasks (.untilState ..) nofun
  | reply => exact hasks (.reply _) nofun

lemma Acts.aloud (h : Acts e w p) (ha : e.Aloud) : p.1.Aloud ∧ ∀ w' ∈ p.2, w'.Aloud := by
  cases h with
  | mild h hw => exact ⟨ha.tends h.hushed.toTends, h.aloud⟩
  | launched hc h hp hw => exact ⟨ha.tends h.toTends, hp⟩
  | captured hw h hp =>
    have ha' : e.withCapture.Aloud :=
      ⟨ha.tasks, ha.callbacks⟩
    exact ⟨ha'.tends h.toTends, hp⟩
  | finished ht hx hj h hrun hp htail hw =>
    rw [hp]
    exact ⟨ha.tends h.toTends, aloud_append (Finish.aloud_rest _ _ _) htail⟩
  | answered hw h hp hn hr =>
    rw [hp]
    exact ⟨ha.tends h.toTends, aloud_one (w := .evaluate _ _) hn⟩

end Engine

end JobShell
