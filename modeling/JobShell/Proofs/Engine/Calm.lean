import JobShell.Proofs.Engine.Accounted
import JobShell.Proofs.Engine.PipelineStatus
import JobShell.Proofs.Engine.Silence

/-!
Machines that have no news of processes.

From a fresh engine on there may be any requests and any amount of work between them, as long as no
process is started. Then all that happens to jobs and buffers is what the pieces of work do to them,
and a buffer is safe: main statement, each job that writes to a buffer is one of a pipeline that an
evaluation on the stack waits for, and it is that evaluation which will take the buffer.
-/

namespace JobShell

open Accounts Rank Expansion Engine List Option

namespace Engine

variable {e : Engine} {m : Machine}

lemma Begins.effect (hb : e.Begins m) : Effect e (m.engine, m.stack) := by
  have hroot : ({} : Context).Aloud := by
    intro key
    simp
  have hnone : ∀ w ∈ ([] : List Work), w.Aloud := by simp
  cases hb with
  | spawn script =>
    exact .mild ⟨(hushed_spawnRunner e _ hroot none).trans (hushed_retain _ _), hnone⟩
  | wait hub => exact .mild (.one (w := .await _ _) (.refl e) trivial)
  | @runCommands commands hub e' h =>
    have hspawn := hushed_spawnRunner e (commands.map .ready) hroot none
    rw [h] at hspawn
    exact .mild (.one (w := .await _ _) (hspawn.trans (hushed_retain _ _)) trivial)
  | @runPipeline commands negated s e' h =>
    have hstart := launched_startPipeline e commands {} none negated
    rw [h] at hstart
    exact .launched hroot (hstart.then (hushed_retain _ _))
      (aloud_append (aloud_duties _) (aloud_one (w := .await _ _) trivial))
  | takeTurns count block => exact .mild (.one (w := .turns _ _ _) (.refl e) trivial)
  | poll => exact .mild (.one (w := .poll) (.refl e) trivial)
  | drain => exact .mild (.one (w := .drain) (.refl e) trivial)
  | runUntil id state => exact .mild (.one (w := .untilState _ _) (.refl e) trivial)
  | evaluateAs x f =>
    exact .mild (.one (w := .evaluate _ _) (.refl e) ((all_true _).map fun _ _ => trivial))
  | setVariable | postInterrupt => exact .mild ⟨.of_eq rfl rfl rfl rfl rfl, hnone⟩
  | interrupt => exact .mild ⟨hushed_interrupt e, hnone⟩
  | foreground h => exact .mild ⟨hushed_foreground h, hnone⟩
  | background h => exact .mild ⟨hushed_background h, hnone⟩

lemma Begins.moves (hb : e.Begins m) : Moves e m.engine := by
  cases hb with
  | spawn script =>
    have hspawn := watches_moves.spawnRunner e (script.items.map .item) {} none
    exact hspawn.moves.quiet (.of_eq rfl)
  | @runCommands commands hub e' h =>
    have hspawn := watches_moves.spawnRunner e (commands.map .ready) {} none
    rw [h] at hspawn
    exact (hspawn.trans (.of_eq rfl)).moves
  | @runPipeline commands negated s e' h =>
    have hstart := moves_startPipeline (e := e) commands {} none negated
    rw [h] at hstart
    exact hstart.quiet (.of_eq rfl)
  | setVariable | postInterrupt => exact Quiet.moves (.of_eq rfl)
  | interrupt => exact (watches_moves.interrupt _).moves
  | foreground h => exact moves_foreground h
  | background h => exact moves_background h
  | _ => exact .refl e

/-- Whoever waits for a pipeline finds its hub completed, or a task to be done first. -/
lemma Accounted.awaiting {X : HubId} {store : StoreId} {key : ℕ}
    {next : Resumption} {ws : List Work}
    (hc : Accounted e (.await X (.evaluation store key next) :: ws)) :
    ∃ A M, Tidy A (.await X :: M) e := by
  generalize hs : .await X (.evaluation store key next) :: ws = stack at hc
  cases hc with
  | @owed ws' last M K V B hlast h o =>
    cases h with
    | nil =>
      rcases last with _ | w
      · cases hs
      · obtain ⟨rfl, -⟩ := List.cons.inj hs
        exact ⟨_, _, o⟩
    | cons hw hws =>
      obtain ⟨rfl, -⟩ := List.cons.inj hs
      cases hw
      exact ⟨_, _, o⟩
  | follow => cases hs

end Engine

namespace Machine

/-- A machine that a fresh engine comes to without starting a process. -/
inductive Calm : Machine → Prop where
  | fresh (config : Config) (services : Services) (system : System) (direct : Bool) :
      Calm ⟨initial config services system direct, []⟩
  | request {e : Engine} {m : Machine} (h : Calm ⟨e, []⟩) (hb : e.Begins m)
      (hpid : m.engine.system.nextPid = e.system.nextPid) : Calm m
  | step {m : Machine} (h : Calm m)
      (hpid : m.step.engine.system.nextPid = m.engine.system.nextPid) : Calm m.step

variable {m : Machine} {w : Work} {ws : List Work}

lemma step_of_stack (hs : m.stack = w :: ws) :
    m.step = ⟨(m.engine.perform w).1, (m.engine.perform w).2 ++ ws⟩ := by
  rw [step, hs]

lemma step_of_nil (hs : m.stack = []) : m.step = m := by
  rw [step, hs]

lemma Calm.reached (h : Calm m) : m.Reached := by
  induction h with
  | fresh config services system direct => exact ⟨config, services, system, direct, .refl⟩
  | request _ hb _ ih =>
    obtain ⟨config, services, system, direct, h⟩ := ih
    exact ⟨config, services, system, direct, h.tail (.outside (.request hb))⟩
  | step _ _ ih =>
    obtain ⟨config, services, system, direct, h⟩ := ih
    exact ⟨config, services, system, direct, h.tail (.step _)⟩

lemma Calm.accounted (h : Calm m) : Accounted m.engine m.stack := by
  induction h with
  | fresh config services system direct => exact accounted_initial _ _ _ _
  | request _ hb hpid ih => exact hb.accounted ih hpid
  | @step m _ hpid ih =>
    rcases hs : m.stack with _ | ⟨w, ws⟩
    · rwa [step_of_nil hs]
    · rw [step_of_stack hs] at hpid ⊢
      rw [hs] at ih
      exact ih.perform hpid

lemma Calm.neat (h : Calm m) : Neat m.engine m.stack := h.accounted.neat

lemma Calm.aloud (h : Calm m) : m.engine.Aloud ∧ ∀ w ∈ m.stack, w.Aloud := by
  induction h with
  | fresh config services system direct =>
    refine ⟨⟨by simp [initial], ?_⟩, by simp⟩
    rintro cb ⟨slot, h, key, hg, -⟩
    cases hg
  | request _ hb hpid ih =>
    cases hb.effect with
    | mild h => exact ⟨ih.1.tends h.hushed.toTends, h.aloud⟩
    | launched hc h ha => exact ⟨ih.1.tends h.toTends, ha⟩
  | @step m hm hpid ih =>
    rcases hs : m.stack with _ | ⟨w, ws⟩
    · rwa [step_of_nil hs]
    · rw [hs] at ih
      obtain ⟨haloud, hws⟩ := ih
      have hw := hws w mem_cons_self
      have hacts := acts_perform haloud hm.neat.events hm.neat.live hw
      obtain ⟨h1, h2⟩ := hacts.aloud haloud
      rw [step_of_stack hs]
      exact ⟨h1, aloud_append h2 fun w' hw' => hws w' (mem_cons_of_mem _ hw')⟩

lemma Calm.kept (h : Calm m) : m.engine.registry.Kept := by
  induction h with
  | fresh config services system direct => exact kept_initial _ _ _ _
  | request _ hb _ ih => exact ih.moves (hb.moves.path ih.toAgrees)
  | @step m _ _ ih =>
    rcases hs : m.stack with _ | ⟨w, ws⟩
    · rwa [step_of_nil hs]
    · rw [step_of_stack hs]
      exact ih.moves ((watches_moves.perform _ w).path ih.toAgrees)

lemma Calm.acts (h : Calm m) (hs : m.stack = w :: ws) : Acts m.engine w (m.engine.perform w) :=
  acts_perform h.aloud.1 h.neat.events h.neat.live (h.aloud.2 w (hs ▸ mem_cons_self))

lemma Calm.vacant (h : Calm m) (n : ℕ) :
    ∀ i ∈ range' m.engine.nextJob n, m.engine.outlet? i = none := by
  intro i hi
  have hle : m.engine.nextJob ≤ i := (mem_range'_1.mp hi).1
  rw [outlet?, map_eq_none_iff]
  by_contra hne
  have hmem := isSome_job?.mp (ne_none_iff_isSome.mp hne)
  obtain ⟨p, hp, rfl⟩ := mem_map.mp hmem
  exact absurd (h.neat.numbered p hp) (Nat.not_lt.mpr hle)

end Machine

/-! ### Who writes to a buffer -/

/-- A job writes to a buffer. -/
def Engine.Outlet.Fills (o : Outlet) (key : ℕ) : Prop :=
  o.stdout = .capture key ∨ o.stderr = .capture key

lemma Engine.Outlet.Segment.aloud {o : Outlet} {route : Route} {next : Option JobId} {key : ℕ}
    (hs : o.Segment route next) (hr : route ≠ .capture key) : ¬ o.Fills key := by
  have hsink : route.sink.lowered ≠ .capture key := fun h => hr (sink_eq_capture.mp h)
  rintro (h | h)
  · rw [hs.stdout] at h
    cases next with
    | none => exact hsink h
    | some i => cases h
  · exact hsink (hs.stderr ▸ h)

namespace PipelineCall

variable {e : Engine} {commands : List Command} {store : StoreId} {negated : Bool}
  {next : Resumption} {ws : List Work} {m : Machine}

/-- Only a command that does more than to set variables makes a job. -/
lemma ne_nil_of_mem_jobs {call : PipelineCall} {id : JobId} (hid : id ∈ call.jobs) :
    call.commands.filter (!·.assignmentOnly) ≠ [] := by
  intro hempty
  have hstarted : call.started.2.jobs = call.engine.jobs := by
    rw [started, startPipeline_eq, if_pos (by simp [hempty])]
    rfl
  simp [jobs, segments, hstarted] at hid

lemma jobs_ofCapture (hm : m.Reached)
    (hs : m.stack = .evaluate store (.capture commands negated next) :: ws) :
    (ofCapture m.engine commands store negated).jobs =
      range' m.engine.nextJob (m.engine.segments commands) := by
  by_cases hempty : commands.filter (!·.assignmentOnly) = []
  · have hzero : m.engine.segments commands = 0 := by
      rw [Engine.segments, hempty]
      rfl
    rw [hzero, range'_zero, eq_nil_iff_forall_not_mem]
    exact fun id hid => ne_nil_of_mem_jobs hid hempty
  · obtain ⟨q, hq, -⟩ := (Follows.launch hm (.capture hs)).tracked hempty
    rw [hq.jobs, hq.job, hq.count]
    rfl

/-- A pipeline is followed whose hub has been there all the time. -/
def Lasts (call : PipelineCall) (m : Machine) (settled : Log) : Prop :=
  ∃ fate, call.Follows m settled fate ∧ ∀ s, fate ≠ .removed s

variable {call : PipelineCall} {settled : Log}

lemma Lasts.launch (hm : m.Reached)
    (hs : m.stack = .evaluate store (.capture commands negated next) :: ws) :
    (ofCapture m.engine commands store negated).Lasts m.step [] := by
  refine ⟨_, .launch hm (.capture hs), fun s => ?_⟩
  simp only [Fate.see]
  split
  · simp
  · rename_i h _
    cases h.status <;> simp

lemma Lasts.step (hl : call.Lasts m settled)
    (hX : (m.step.engine.hubs.get? call.hub).isSome = true) :
    call.Lasts m.step (settled ++ m.settlements m.step) := by
  obtain ⟨fate, hf, hne⟩ := hl
  refine ⟨_, hf.goes (.step m), fun s => ?_⟩
  obtain ⟨h, hh⟩ := isSome_iff_exists.mp hX
  cases fate with
  | running => cases hst : h.status <;> simp [Fate.see, hh, hst]
  | completed status =>
    simp only [Fate.see, hh]
    split <;> simp
  | removed status => exact absurd rfl (hne status)
  | broken => simp [Fate.see]

/-- When the hub of a pipeline has a status, all of its jobs have settled, the last one with the
status that the pipeline has. -/
lemma Lasts.completed (hl : call.Lasts m settled) {s : Int}
    (hX : m.engine.hubs.status? call.hub = some s)
    (hne : call.commands.filter (!·.assignmentOnly) ≠ []) :
    (settled.map Prod.fst).Nodup ∧
      (∀ id ∈ call.jobs, m.engine.job? id = none ∧ ∃ status, (id, status) ∈ settled) ∧
      ∃ id last, call.jobs.getLast? = some id ∧ (id, last) ∈ settled ∧ s = call.verdict last := by
  obtain ⟨fate, hf, hkept⟩ := hl
  obtain ⟨q, hq, hb⟩ := hf.tracked hne
  obtain ⟨handles, past, ds, H, ⟨w, t⟩, -⟩ := hb.desk
  obtain ⟨h, hh, hst⟩ := bind_eq_some_iff.mp hX
  -- looking at the hub again shows that it has completed
  obtain rfl : fate = .completed s := by
    have hsee := w.see t
    rw [hq.slot, show (m.engine.desk handles ds H).scene.hubs = m.engine.hubs from rfl] at hsee
    cases fate with
    | running => simp [Fate.see, hh, hst] at hsee
    | completed status =>
      simp only [Fate.see, hh, hst] at hsee
      split at hsee
      · rename_i he
        rw [some.inj he]
      · cases hsee
    | removed status => exact absurd rfl (hkept status)
    | broken => exact t.elim
  obtain ⟨⟨waiting, hcomp⟩, -⟩ := t
  obtain ⟨hall, last, hlast, hverdict⟩ := w.staged.completed w.run hcomp
  refine ⟨w.logged.nodup, fun id hid => ?_, q.job + (q.count - 1), last, ?_, hlast, ?_⟩
  · obtain ⟨i, hi, rfl⟩ := hq.mem_jobs.mp hid
    obtain ⟨status, hl⟩ := hall i hi
    refine ⟨not_isSome_iff_eq_none.mp fun hjob => ?_, status, hl⟩
    obtain ⟨slot, hslot⟩ := isSome_job?_iff.mp hjob
    exact w.logged.gone _ hl slot hslot
  · have hpos := w.staged.pos
    rw [hq.jobs, getLast?_range', if_neg hpos.ne', Nat.add_sub_assoc hpos]
  · rw [hverdict, Desk.Plan.verdict, hq.negated]
    rfl

end PipelineCall

namespace Machine

variable {m : Machine} {w : Work} {ws : List Work} {id : JobId} {key : ℕ} {X : HubId}
  {next : Resumption}

/-- A job belongs to a pipeline that someone on the stack waits for, who will take a buffer. -/
def Minds (m : Machine) (id : JobId) (key : ℕ) : Prop :=
  ∃ (call : PipelineCall) (settled : Log) (store : StoreId)
    (next : Resumption), call.Lasts m settled ∧ id ∈ call.jobs ∧
      .await call.hub (.evaluation store key next) ∈ m.stack

/-- Whoever waits for a buffer does so until there is an answer. -/
lemma await_mem_step (hs : m.stack = w :: ws) {v : Waiter}
    (hw : w = .await X v → ∃ us, (m.engine.perform w).2 = us ++ [w])
    (hm : .await X v ∈ m.stack) : .await X v ∈ m.step.stack := by
  rw [step_of_stack hs]
  rcases mem_cons.mp (hs ▸ hm) with rfl | hm
  · obtain ⟨us, hus⟩ := hw rfl
    rw [hus]
    simp
  · exact mem_append_right _ hm

lemma Minds.step (hc : Calm m.step) (hm : m.Minds id key)
    (hstay : ∀ X store next, .await X (.evaluation store key next) ∈ m.stack →
      .await X (.evaluation store key next) ∈ m.step.stack) : m.step.Minds id key := by
  obtain ⟨call, settled, store, next, hl, hid, hawait⟩ := hm
  have hawait' := hstay _ _ _ hawait
  exact ⟨call, _, store, next, hl.step (hc.neat.awaited _ _ _ _ hawait'), hid, hawait'⟩

lemma Calm.await_unique (h : Calm m) {Y : HubId} {store store' : StoreId}
    {next' : Resumption}
    (hs : m.stack = .await X (.evaluation store key next) :: ws)
    (hm : .await Y (.evaluation store' key next') ∈ m.stack) : Y = X := by
  have hnodup : (Work.keys m.stack).Nodup := by
    rw [← h.neat.captures.2]
    exact Slab.nodup_keys _
  rw [hs] at hm hnodup
  rcases mem_cons.mp hm with he | hm
  · cases he
    rfl
  · have hkeys : Work.keys (.await X (.evaluation store key next) :: ws) =
        key ::ₘ Work.keys ws := rfl
    rw [hkeys, Multiset.nodup_cons] at hnodup
    exact absurd (Work.mem_keys hm) hnodup.1

lemma Calm.status_of_await (h : Calm m) {store : StoreId}
    (hs : m.stack = .await X (.evaluation store key next) :: ws)
    (hn : m.engine.hubs.status? X = none) : m.engine.hubs.get? X ≠ none ∧ m.engine.tasks ≠ [] := by
  have hc := h.accounted
  rw [hs] at hc
  obtain ⟨A, M, o⟩ := hc.awaiting
  obtain ⟨k, hk, hready⟩ := o.status_or_task
  refine ⟨by simp [hk], ?_⟩
  rcases hready with hst | ⟨t, ts, ht⟩
  · rw [Hubs.status?, hk, bind_some] at hn
    simp [hn] at hst
  · simp [ht]

/-- Each job that writes to a buffer is one of a pipeline that is waited for. -/
lemma Calm.minds (h : Calm m) : ∀ id o key, m.engine.outlet? id = some o → o.Fills key →
    m.Minds id key := by
  induction h with
  | fresh config services system direct =>
    intro id o key ho
    cases ho
  | @request e m hc hb hpid ih =>
    have hnone : ∀ {id : JobId} {o : Outlet} {key : ℕ}, e.outlet? id = some o → ¬ o.Fills key := by
      intro id o key ho hf
      obtain ⟨call, settled, store, next, -, -, hawait⟩ := ih id o key ho hf
      cases hawait
    intro id o key ho hf
    cases hb.effect with
    | mild h => exact absurd hf (hnone ((h.hushed.outlet id).symm.trans ho))
    | @launched ctx diagnostics n ha h hws =>
      by_cases hid : id ∈ range' e.nextJob n
      · obtain ⟨o', ho', hseg⟩ := h.segments (hc.vacant n) id hid
        cases ho.symm.trans ho'
        exact absurd hf (hseg.aloud (ha key))
      · exact absurd hf (hnone ((h.others id hid).symm.trans ho))
  | @step m hc hpid ih =>
    have hc' : Calm m.step := .step hc hpid
    rcases hs : m.stack with _ | ⟨w, ws⟩
    · rwa [step_of_nil hs]
    have hstep := step_of_stack hs
    intro id o key ho hf
    have hstay := fun X store next => await_mem_step (X := X) (v := .evaluation store key next) hs
    have ho' : (m.engine.perform w).1.outlet? id = some o := by rwa [hstep] at ho
    cases hc.acts hs with
    | mild h hw =>
      refine (ih id o key ((h.hushed.outlet id).symm.trans ho') hf).step hc' fun X store next => ?_
      exact hstay X store next (hw X store key next)
    | @launched ctx diagnostics n ha h hws hw =>
      by_cases hid : id ∈ range' m.engine.nextJob n
      · obtain ⟨o'', ho'', hseg⟩ := h.segments (hc.vacant n) id hid
        cases ho'.symm.trans ho''
        exact absurd hf (hseg.aloud (ha key))
      · refine (ih id o key ((h.others id hid).symm.trans ho') hf).step hc' fun X store next => ?_
        exact hstay X store next fun he => absurd he (hw X _)
    | @captured store commands negated next hw h hws =>
      subst hw
      by_cases hid : id ∈ range' m.engine.nextJob (m.engine.segments commands)
      · obtain ⟨o'', ho'', hseg⟩ := h.segments (hc.vacant _) id hid
        cases ho'.symm.trans ho''
        obtain rfl : key = m.engine.captures.next := by
          by_contra hne
          exact hseg.aloud (fun he => hne (Route.capture.inj he).symm) hf
        refine ⟨_, _, store, next, .launch hc.reached hs, ?_, ?_⟩
        · rwa [PipelineCall.jobs_ofCapture hc.reached hs]
        · rw [hstep]
          exact mem_append_left _ (mem_append_right _ (mem_singleton_self _))
      · refine (ih id o key ((h.others id hid).symm.trans ho') hf).step hc' fun X store next => ?_
        exact hstay X store next nofun
    | @finished t ts x j tail ht hx hj h hrun hp htail hw =>
      rw [h.outlet id] at ho'
      split at ho'
      · cases ho'
      · refine (ih id o key ho' hf).step hc' fun X store next => ?_
        exact hstay X store next fun he => ⟨x.rest j.hub j.store, by rw [hp, hw X _ he]⟩
    | @answered X store key' next r hw h hp ha hr =>
      subst hw
      have hm := ih id o key ((h.outlet id).symm.trans ho') hf
      by_cases hk : key = key'
      · -- the pipeline that was waited for has completed, and none of its jobs is left
        subst hk
        exfalso
        obtain ⟨call, settled, store', next', hl, hid, hawait⟩ := hm
        have hX := hc.await_unique hs hawait
        have hstatus : ∃ s, m.engine.hubs.status? X = some s := by
          rcases hr with ⟨s, hst, -⟩ | ⟨hst, hr⟩
          · exact ⟨s, hst⟩
          · obtain ⟨h1, h2⟩ := hc.status_of_await hs hst
            exact (hr.elim h1 h2).elim
        obtain ⟨s, hst⟩ := hstatus
        obtain ⟨-, hgone, -⟩ := hl.completed (hX ▸ hst) (PipelineCall.ne_nil_of_mem_jobs hid)
        rw [h.outlet id, outlet?, (hgone id hid).1] at ho'
        cases ho'
      · refine hm.step hc' fun Y store' next' => hstay Y store' next' fun he => ?_
        cases he
        exact absurd rfl hk

end Machine

end JobShell
