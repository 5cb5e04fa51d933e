import JobShell.Proofs.Engine.Calm

/-!
Substitutions do not mix.

A substitution runs a pipeline and waits for it, and while it does all sorts of things go on: the
words of other commands are substituted in turn, and lists that run in the background go on and have
substitutions of their own. Each time a job ends, a note is taken of what it has come to. Main
statement: a substitution is given what the jobs of its own pipeline came to, whatever else was
going on, and none of that is seen on the console.
-/

namespace JobShell

open Accounts Rank Expansion Engine List Option Machine Function Nat PipelineCall

/-- What is noted of a job that settles. -/
def Finish.settlement (x : Finish) : JobId × Int := (x.job, x.outcome.status)

namespace Engine

variable {e : Engine} {t : Task} {x : Finish}

lemma job?_of_finish? (hx : e.finish? t = some x) : ∃ j, e.job? x.job = some j := by
  cases t with
  | runChain id =>
    obtain ⟨⟨j, c⟩, hc, rfl⟩ := map_eq_some_iff.mp hx
    exact ⟨j, (chain?_eq_some_iff.mp hc).1⟩
  | fail id =>
    obtain ⟨j, hj, rfl⟩ := map_eq_some_iff.mp hx
    exact ⟨j, hj⟩
  | _ => cases hx

/-- No more is seen of a job that ends than what its routines have done to the terminal, if its
streams end elsewhere and it is not in the table. -/
lemma shown_finish {j : Job} (hx : e.finish? t = some x) (hj : e.job? x.job = some j)
    (hs : ∀ s, (j.outlet.sink s).Silent) (ht : j.tableId = none) (ho : e.owner ≠ some x.job)
    (hk : e.Keyed) : (e.runTask t).1.shown = (e.console, x.world.terminal) := by
  cases t with
  | runChain id =>
    obtain ⟨⟨j', c⟩, hc, hx⟩ := map_eq_some_iff.mp hx
    obtain ⟨hj', hb⟩ := chain?_eq_some_iff.mp hc
    rcases hrun : Chain.runAll e.config.failedStatus c.launches c.input e.system.world with ⟨o, w⟩
    simp only [Chain.run, hrun] at hx
    subst hx
    cases hj.symm.trans hj'
    exact shown_runChain hj hb hs ht ho hk hrun
  | fail id =>
    obtain ⟨j', hj', rfl⟩ := map_eq_some_iff.mp hx
    cases hj.symm.trans hj'
    exact shown_settle hj ht ho hk .failed _
  | _ => cases hx

end Engine

/-! ### Jobs that end -/

namespace Machine

/-- The job that comes to its end with the next piece of work: the first task ends it, and then it
is gone. -/
def finish? (m : Machine) : Option Finish :=
  (m.engine.tasks.head?.bind m.engine.finish?).filter fun x => (m.step.engine.job? x.job).isNone

/-- The jobs that come to their ends with some pieces of work, in this order. -/
def finishes (m : Machine) (n : ℕ) : List Finish :=
  (List.range n).filterMap fun k => (step^[k] m).finish?

variable {m : Machine} {w : Work} {ws : List Work} {x : Finish}

lemma finishes_succ (m : Machine) (n : ℕ) :
    m.finishes (n + 1) = m.finishes n ++ (step^[n] m).finish?.toList := by
  rw [finishes, range_succ, filterMap_append]
  cases h : (step^[n] m).finish? <;> simp [finishes, h]

lemma isNone_outlet? (e : Engine) (id : JobId) : (e.outlet? id).isNone = (e.job? id).isNone := by
  rw [outlet?, isNone_map]

lemma finish?_eq_none
    (hstay : ∀ i o, m.engine.outlet? i = some o → (m.step.engine.outlet? i).isSome = true) :
    m.finish? = none ∧ m.settlements m.step = [] := by
  have hkeep : ∀ i j, m.engine.job? i = some j → (m.step.engine.job? i).isNone = false := by
    intro i j hj
    have ho : m.engine.outlet? i = some j.outlet := by rw [outlet?, hj, map_some]
    rw [← isNone_outlet?, ← not_isSome, hstay i _ ho]
    rfl
  refine ⟨eq_none_iff_forall_ne_some.mpr fun x hx => ?_, ?_⟩
  · obtain ⟨hx, hnone⟩ := filter_eq_some_iff.mp hx
    obtain ⟨t, -, hx⟩ := bind_eq_some_iff.mp hx
    obtain ⟨j, hj⟩ := job?_of_finish? hx
    rw [hkeep _ j hj] at hnone
    cases hnone
  · rw [settlements, map_eq_nil_iff, filter_eq_nil_iff]
    intro i hi
    obtain ⟨j, hj⟩ := isSome_iff_exists.mp (isSome_job?.mpr hi)
    simp [hkeep i j hj]

lemma finish?_eq_some (hk : m.engine.Keyed) {t : Task} {ts : List Task}
    (ht : m.engine.tasks = t :: ts) (hx : m.engine.finish? t = some x) {hub : HubId}
    {us : List Work} (hstack : m.step.stack = .duty (.notify hub x.outcome.status) :: us)
    (hgone : ∀ i, m.step.engine.outlet? i = if i = x.job then none else m.engine.outlet? i) :
    m.finish? = some x ∧ m.settlements m.step = [x.settlement] := by
  obtain ⟨j, hj⟩ := job?_of_finish? hx
  have hmem : x.job ∈ m.engine.jobs.map Prod.fst := isSome_job?.mp (by simp [hj])
  have hnone : ∀ i ∈ m.engine.jobs.map Prod.fst, (m.step.engine.job? i).isNone = (i == x.job) := by
    intro i hi
    obtain ⟨k, hk⟩ := isSome_iff_exists.mp (isSome_job?.mpr hi)
    rw [← isNone_outlet?, hgone i]
    by_cases he : i = x.job
    · simp [he]
    · simp [he, outlet?, hk]
  refine ⟨?_, ?_⟩
  · rw [finish?, ht, head?_cons, bind_some, hx, filter_some, hnone x.job hmem]
    simp
  · have htold : m.step.told = x.outcome.status := by rw [told, hstack]
    have hcount : (m.engine.jobs.map Prod.fst).count x.job = 1 := count_eq_one_of_mem hk hmem
    rw [settlements, filter_congr hnone, filter_beq, hcount, htold]
    rfl

lemma Calm.finished (hc : Calm m) (hx : m.finish? = some x) :
    ∃ t ts j us, m.engine.finish? t = some x ∧ m.engine.job? x.job = some j ∧
      m.step.engine = ((m.engine.withTasks ts).runTask t).1 ∧
      m.step.stack = x.rest j.hub j.store ++ us := by
  obtain ⟨hx, hnone⟩ := filter_eq_some_iff.mp hx
  obtain ⟨t, hhead, hx⟩ := bind_eq_some_iff.mp hx
  obtain ⟨j, hj⟩ := job?_of_finish? hx
  have hgone : m.step.engine.outlet? x.job ≠ m.engine.outlet? x.job := by
    intro he
    rw [outlet?, isNone_iff_eq_none.mp hnone, outlet?, hj] at he
    cases he
  have hlt : x.job < m.engine.nextJob := by
    obtain ⟨p, hp, he⟩ := mem_map.mp (isSome_job?.mp (by simp [hj] :
      (m.engine.job? x.job).isSome = true))
    rw [← he]
    exact hc.neat.numbered p hp
  have hold : ∀ {n : ℕ}, x.job ∉ range' m.engine.nextJob n := fun hid =>
    absurd (mem_range'_1.mp hid).1 (not_le.mpr hlt)
  rcases hs : m.stack with _ | ⟨w, ws⟩
  · exact absurd (by rw [step_of_nil hs]) hgone
  have hstep := step_of_stack hs
  rw [hstep] at hgone
  cases hc.acts hs with
  | mild h hw => exact absurd (h.hushed.outlet _) hgone
  | launched _ h | captured _ h => exact absurd (h.others _ hold) hgone
  | @finished t' ts x' j' tail ht hx' hj' h hrun hp =>
    rw [ht] at hhead
    cases hhead
    cases hx.symm.trans hx'
    cases hj.symm.trans hj'
    exact ⟨t, ts, j, tail ++ ws, hx, hj, by rw [hstep, hrun], by rw [hstep, hp, append_assoc]⟩
  | answered hw h => exact absurd (h.outlet _) hgone

lemma Calm.owner_ne (hc : Calm m) {id : JobId} {j : Job} (hj : m.engine.job? id = some j)
    (ht : j.tableId = none) : m.engine.owner ≠ some id := by
  intro ho
  rcases hc.kept.holder with ⟨hnone, -⟩ | ⟨i, c, n, hm, hn, hi, -⟩
  · cases ho.symm.trans hnone
  · cases ho.symm.trans hi
    obtain ⟨k, hk, rfl⟩ := (job?_of_mem_registry hc.kept.toAgrees).mp hm
    cases hj.symm.trans hk
    cases ht.symm.trans hn

end Machine

/-! ### One substitution -/

namespace PipelineCall

/-- What is said of the commands of a pipeline that cannot be launched. -/
def diagnostics (call : PipelineCall) : Bytes :=
  call.engine.pipelineDiagnostics call.commands call.ctx call.parent

/-- The jobs of a pipeline among those that have ended. -/
def own (call : PipelineCall) (log : List Finish) : List Finish :=
  log.filter fun x => x.job ∈ call.jobs

/-- What is to be kept of the output of a pipeline. -/
def kept (call : PipelineCall) (log : List Finish) : Buffers where
  stdout := ((call.own log).filter fun x => x.job + 1 ∉ call.jobs).flatMap (·.outcome.stdout)
  stderr := call.diagnostics ++ (call.own log).flatMap (·.outcome.stderr)

variable {call : PipelineCall} {key : ℕ} {log : List Finish} {m : Machine} {x : Finish}
  {store : StoreId} {next : Resumption}

lemma kept_snoc_of_mem (hx : x.job ∈ call.jobs) : call.kept (log ++ [x]) =
    ((call.kept log).add .stdout (if x.job + 1 ∈ call.jobs then [] else x.outcome.stdout)).add
      .stderr x.outcome.stderr := by
  by_cases hnext : x.job + 1 ∈ call.jobs <;>
    simp [kept, own, filter_append, hx, hnext, Buffers.add]

lemma own_snoc_of_notMem (hx : x.job ∉ call.jobs) : call.own (log ++ [x]) = call.own log := by
  simp [own, filter_append, hx]

/-- A buffer holds what the jobs of a pipeline have come to, and no others write to it. -/
structure Gathers (call : PipelineCall) (key : ℕ) (log : List Finish) (m : Machine) : Prop where
  lasts : call.Lasts m (log.map Finish.settlement)
  mine : ∀ id o, m.engine.outlet? id = some o → o.Fills key → id ∈ call.jobs
  segment : ∀ id ∈ call.jobs, ∀ o, m.engine.outlet? id = some o →
    o.Segment (.capture key) (if id + 1 ∈ call.jobs then some (id + 1) else none)
  old : ∀ id ∈ call.jobs, id < m.engine.nextJob
  buffer : m.engine.captures.get? key = some (call.kept log)

lemma Gathers.launch (hc : m.Calm) {commands : List Command} {negated : Bool} {ws : List Work}
    (hs : m.stack = .evaluate store (.capture commands negated next) :: ws) :
    (ofCapture m.engine commands store negated).Gathers m.engine.captures.next [] m.step := by
  set key := m.engine.captures.next
  have hjobs := jobs_ofCapture hc.reached hs
  have hstep := step_of_stack hs
  have hlaunch : Launched (.capture key) (ofCapture m.engine commands store negated).diagnostics
      (m.engine.segments commands) m.engine.withCapture
      m.step.engine := by
    rw [hstep]
    exact launched_capture m.engine commands store negated
  have hvacant := hc.vacant (m.engine.segments commands)
  have hfree : m.engine.captures.get? key = none := hc.neat.captures.1.get?_next
  refine ⟨.launch hc.reached hs, fun id o ho hf => ?_, fun id hid o ho => ?_, fun id hid => ?_, ?_⟩
  · rw [hjobs]
    by_contra hid
    -- a job that had been there would belong to someone who waits for the same buffer
    obtain ⟨call, settled, store', next', -, -, hawait⟩ :=
      hc.minds id o key ((hlaunch.others id hid).symm.trans ho) hf
    have hkey : key ∈ m.engine.captures.keys := by
      rw [hc.neat.captures.2]
      exact Work.mem_keys hawait
    obtain ⟨⟨k, b⟩, hb, rfl⟩ := Multiset.mem_map.mp hkey
    cases hfree.symm.trans (Slab.mem_entries.mp hb)
  · rw [hjobs] at hid ⊢
    obtain ⟨o', ho', hseg⟩ := hlaunch.segments hvacant id hid
    cases ho.symm.trans ho'
    exact hseg
  · rw [hjobs] at hid
    rw [hlaunch.nextJob]
    exact (mem_range'_1.mp hid).2
  · rw [hlaunch.captures hvacant key, hc.neat.captures.1.get?_insert, if_pos rfl, if_pos rfl]
    simp [kept, own, Buffers.add]

section

variable (hg : call.Gathers key log m) (hc : m.Calm) (hc' : m.step.Calm)
  (hawait : .await call.hub (.evaluation store key next) ∈ m.step.stack)
include hg hc hc' hawait

/-- What the next piece of work does to other buffers and with new jobs does not matter. -/
lemma Gathers.keep
    (houtlet : ∀ id < m.engine.nextJob, m.step.engine.outlet? id = m.engine.outlet? id)
    (hmine : ∀ id o, m.step.engine.outlet? id = some o → o.Fills key → id ∈ call.jobs)
    (hnext : m.engine.nextJob ≤ m.step.engine.nextJob)
    (hbuffer : m.step.engine.captures.get? key = m.engine.captures.get? key) :
    call.Gathers key (log ++ m.finish?.toList) m.step := by
  have hstay : ∀ i o, m.engine.outlet? i = some o → (m.step.engine.outlet? i).isSome = true := by
    intro i o ho
    have hjob : (m.engine.job? i).isSome = true := by
      rw [← isSome_map (f := Job.outlet)]
      exact isSome_iff_exists.mpr ⟨o, ho⟩
    obtain ⟨p, hp, rfl⟩ := mem_map.mp (isSome_job?.mp hjob)
    rw [houtlet _ (hc.neat.numbered p hp), ho]
    rfl
  obtain ⟨hnone, hsettled⟩ := finish?_eq_none hstay
  have hlasts := hg.lasts.step (hc'.neat.awaited _ _ _ _ hawait)
  rw [hsettled, append_nil] at hlasts
  rw [hnone, toList_none, append_nil]
  refine ⟨hlasts, hmine, fun id hid o ho => ?_, fun id hid => ?_, hbuffer.trans hg.buffer⟩
  · exact hg.segment id hid o ((houtlet id (hg.old id hid)).symm.trans ho)
  · exact (hg.old id hid).trans_le hnext

/-- A job that ends leaves its output in the buffer if it is one of the pipeline. -/
lemma Gathers.finish {t : Task}
    {ts : List Task} {j : Job} {hub : HubId} {us : List Work} (ht : m.engine.tasks = t :: ts)
    (hx : m.engine.finish? t = some x) (hj : m.engine.job? x.job = some j)
    (h : Closes x.job j.outlet x.outcome.stdout x.outcome.stderr m.engine m.step.engine)
    (hstack : m.step.stack = .duty (.notify hub x.outcome.status) :: us) :
    call.Gathers key (log ++ m.finish?.toList) m.step := by
  obtain ⟨hsome, hsettled⟩ := finish?_eq_some hc.neat.keyed ht hx hstack h.outlet
  have hlasts := hg.lasts.step (hc'.neat.awaited _ _ _ _ hawait)
  have hold : ∀ {id : JobId} {o : Outlet}, m.step.engine.outlet? id = some o →
      m.engine.outlet? id = some o := by
    intro id o ho
    rw [h.outlet id] at ho
    split at ho
    · cases ho
    · exact ho
  have hout : m.engine.outlet? x.job = some j.outlet := by rw [outlet?, hj, map_some]
  rw [hsettled] at hlasts
  rw [hsome, toList_some]
  refine ⟨by simpa using hlasts, fun id o ho hf => hg.mine id o (hold ho) hf,
    fun id hid o ho => hg.segment id hid o (hold ho), fun id hid => ?_, ?_⟩
  · rw [h.nextJob]
    exact hg.old id hid
  · rw [h.captures key, hg.buffer, map_some]
    congr 1
    by_cases hid : x.job ∈ call.jobs
    · have hseg := hg.segment x.job hid _ hout
      have hstderr : j.outlet.stderr = .capture key := hseg.stderr
      have hstdout : j.outlet.stdout = .capture key ↔ x.job + 1 ∉ call.jobs := by
        rw [hseg.stdout]
        by_cases hnext : x.job + 1 ∈ call.jobs <;> simp [hnext, Route.sink, Sink.lowered]
      rw [kept_snoc_of_mem hid, if_pos hstderr]
      simp only [hstdout, ite_not]
    · have hf : ¬ j.outlet.Fills key := fun hf => hid (hg.mine _ _ hout hf)
      rw [if_neg fun he => hf (.inl he), if_neg fun he => hf (.inr he), Buffers.add_nil,
        Buffers.add_nil, kept, kept, own_snoc_of_notMem hid]

/-- Each piece of work leaves the buffer with what the jobs of the pipeline have come to. -/
lemma Gathers.step : call.Gathers key (log ++ m.finish?.toList) m.step := by
  rcases hs : m.stack with _ | ⟨w, ws⟩
  · rw [step_of_nil hs, hs] at hawait
    cases hawait
  have hstep := step_of_stack hs
  have hengine : (m.engine.perform w).1 = m.step.engine := by rw [hstep]
  have hstack : m.step.stack = (m.engine.perform w).2 ++ ws := by rw [hstep]
  -- jobs that are made for a pipeline have new numbers
  have hrange : ∀ {n : ℕ}, ∀ id < m.engine.nextJob, id ∉ range' m.engine.nextJob n :=
    fun id hlt hid => absurd (mem_range'_1.mp hid).1 (not_le.mpr hlt)
  have hnew : ∀ {n : ℕ} {route : Route}, route ≠ .capture key →
      (∀ i ∉ range' m.engine.nextJob n, m.step.engine.outlet? i = m.engine.outlet? i) →
      (∀ i ∈ range' m.engine.nextJob n, ∃ o, m.step.engine.outlet? i = some o ∧
        o.Segment route (if i + 1 ∈ range' m.engine.nextJob n then some (i + 1) else none)) →
      ∀ id o, m.step.engine.outlet? id = some o → o.Fills key → id ∈ call.jobs := by
    intro n route hroute hothers hsegments id o ho hf
    by_cases hid : id ∈ range' m.engine.nextJob n
    · obtain ⟨o', ho', hseg⟩ := hsegments id hid
      cases ho.symm.trans ho'
      exact absurd hf (hseg.aloud hroute)
    · exact hg.mine id o ((hothers id hid).symm.trans ho) hf
  have hacts := hc.acts hs
  cases hacts with
  | mild h hw =>
    have h := h.hushed
    rw [hengine] at h
    exact hg.keep hc hc' hawait (fun id _ => h.outlet id)
      (fun id o ho => hg.mine id o ((h.outlet id).symm.trans ho)) h.nextJob.ge (by rw [h.captures])
  | @launched ctx diagnostics n ha h =>
    rw [hengine] at h
    refine hg.keep hc hc' hawait (fun id hlt => h.others id (hrange id hlt))
      (hnew (ha key) h.others (h.segments (hc.vacant n))) ?_ ?_
    · rw [h.nextJob]
      exact le_add_right _ _
    · rw [h.captures (hc.vacant n) key, if_neg (ha key)]
      simp
  | @captured store' commands negated next' hw h hws =>
    rw [hengine] at h
    have hne : Route.capture m.engine.captures.next ≠ .capture key := by
      intro he
      have hfree := hc.neat.captures.1.get?_next
      rw [Route.capture.inj he, hg.buffer] at hfree
      cases hfree
    refine hg.keep hc hc' hawait (fun id hlt => h.others id (hrange id hlt))
      (hnew hne h.others (h.segments (hc.vacant _))) ?_ ?_
    · rw [h.nextJob]
      exact le_add_right _ _
    · rw [h.captures (hc.vacant _) key, if_neg hne, hc.neat.captures.1.get?_insert,
        if_neg fun he : key = m.engine.captures.next => hne (congrArg Route.capture he.symm)]
      simp
  | @finished t ts x j tail ht hx hj h hrun hp =>
    rw [hengine] at h
    rw [hp] at hstack
    exact hg.finish hc hc' hawait ht hx hj h hstack
  | @answered X store' key' next' r hw h hp ha hr =>
    rw [hengine] at h
    have hkey : key ∈ m.step.engine.captures.keys := by
      rw [hc'.neat.captures.2]
      exact Work.mem_keys hawait
    obtain ⟨⟨k, b⟩, hb, rfl⟩ := Multiset.mem_map.mp hkey
    have hsome := Slab.mem_entries.mp hb
    rw [h.captures, Slab.get?_erase] at hsome
    split at hsome
    · cases hsome
    · rename_i hne
      refine hg.keep hc hc' hawait (fun id _ => h.outlet id)
        (fun id o ho => hg.mine id o ((h.outlet id).symm.trans ho)) h.nextJob.ge ?_
      rw [h.captures, Slab.get?_erase, if_neg hne]

end

end PipelineCall

/-! ### Until the answer is there -/

namespace Machine

variable {m : Machine} {X : HubId} {v : Waiter} {store : StoreId} {key : ℕ}
  {next : Resumption} {ws : List Work}

lemma Leads.exists_iterate {P : Machine → Prop} (h : Leads P m) : ∃ n, P (Machine.step^[n] m) := by
  induction h with
  | here hp => exact ⟨0, hp⟩
  | step hw _ ih =>
    obtain ⟨n, hn⟩ := ih
    exact ⟨n + 1, hn⟩

lemma Calm.iterate (h : Calm m) (hnone : StartsNone m) (n : ℕ) : Calm (Machine.step^[n] m) := by
  induction n with
  | zero => exact h
  | succ n ih =>
    have hn := hnone (n + 1)
    rw [iterate_succ_apply'] at hn ⊢
    exact .step ih (hn.trans (hnone n).symm)

lemma StartsNone.iterate (h : StartsNone m) (k : ℕ) : StartsNone (step^[k] m) := by
  intro n
  rw [← iterate_add_apply]
  exact (h _).trans (h k).symm

/-- Someone waits who has what it waits for. -/
def Ready (X : HubId) (v : Waiter) (ws : List Work) (m : Machine) : Prop :=
  m.stack = .await X v :: ws ∧ (m.engine.hubs.status? X).isSome = true

lemma Calm.exists_ready (h : Calm m) (hs : m.stack = .await X (.evaluation store key next) :: ws)
    (hnone : StartsNone m) : ∃ n, Ready X (.evaluation store key next) ws (Machine.step^[n] m) := by
  have hc := h.accounted
  rw [hs] at hc
  obtain ⟨A, M, o⟩ := hc.awaiting
  obtain ⟨e, stack⟩ := m
  cases hs
  have hnothing : OwesAll [] [] 0 0 := .nil
  obtain ⟨n, hstack, -, hready, -⟩ :=
    (leads_bottom (bottom_await X _ A M) hnothing (by simpa using o) hnone).exists_iterate
  exact ⟨n, hstack, hready⟩

lemma Calm.waiting (h : Calm m) (hs : m.stack = .await X (.evaluation store key next) :: ws)
    (hnone : StartsNone m) {n : ℕ}
    (hn : ∀ k < n, ¬ Ready X (.evaluation store key next) ws (Machine.step^[k] m)) :
    ∃ top, (Machine.step^[n] m).stack = top ++ .await X (.evaluation store key next) :: ws := by
  induction n with
  | zero => exact ⟨[], hs⟩
  | succ n ih =>
    obtain ⟨top, htop⟩ := ih fun k hk => hn k (lt_succ_of_lt hk)
    have hcalm := h.iterate hnone n
    have hnot := hn n (lt_succ_self n)
    rw [iterate_succ_apply']
    set m' := .step^[n] m
    rcases top with _ | ⟨w, top⟩
    · have hst : m'.engine.hubs.status? X = none := by
        by_contra hne
        exact hnot ⟨htop, ne_none_iff_isSome.mp hne⟩
      obtain ⟨hget, htasks⟩ := hcalm.status_of_await htop hst
      obtain ⟨k, hk⟩ := ne_none_iff_exists'.mp hget
      obtain ⟨t, ts, ht⟩ := exists_cons_of_ne_nil htasks
      have hopen : k.status = none := by simpa [Hubs.status?, hk] using hst
      refine ⟨((m'.engine.withTasks ts).runTask t).2, ?_⟩
      rw [step_of_stack htop, perform_await hk hopen ht, append_assoc]
      rfl
    · refine ⟨(m'.engine.perform w).2 ++ top, ?_⟩
      rw [step_of_stack htop, append_assoc]
      rfl

end Machine

namespace PipelineCall

variable {call : PipelineCall} {key : ℕ} {log : List Finish} {m : Machine} {x : Finish} {n : ℕ}

lemma Gathers.shown_step (hg : call.Gathers key log m) (hc : m.Calm) (hx : m.finish? = some x)
    (hid : x.job ∈ call.jobs) :
    m.step.engine.shown = (m.engine.console, x.world.terminal) ∧
      ∃ hub store, x.rest hub store <+: m.step.stack := by
  obtain ⟨t, ts, j, us, hx, hj, hrun, hstack⟩ := hc.finished hx
  refine ⟨?_, j.hub, j.store, hstack ▸ prefix_append _ _⟩
  have hseg := hg.segment x.job hid j.outlet (by rw [outlet?, hj, map_some])
  have htable : j.tableId = none := hseg.tableId rfl
  have hsilent : ∀ s, (j.outlet.sink s).Silent := by
    intro s
    cases s with
    | stdout =>
      change j.outlet.stdout.Silent
      rw [hseg.stdout]
      split <;> trivial
    | stderr =>
      change j.outlet.stderr.Silent
      rw [hseg.stderr]
      trivial
  rw [hrun]
  rw [← finish?_tasks m.engine ts] at hx
  exact shown_finish hx hj hsilent htable (hc.owner_ne hj htable) hc.neat.keyed

/-- A buffer goes on to hold what the jobs of the pipeline have come to, for as long as someone
waits for it. -/
lemma Gathers.iterate (hg : call.Gathers key [] m) (hc : m.Calm) (hnone : m.StartsNone)
    {store : StoreId} {next : Resumption}
    (hawait : ∀ k ≤ n, .await call.hub (.evaluation store key next) ∈ (Machine.step^[k] m).stack) :
    call.Gathers key (m.finishes n) (Machine.step^[n] m) := by
  induction n with
  | zero => exact hg
  | succ n ih =>
    have hlast := hawait (n + 1) le_rfl
    have hnext := hc.iterate hnone (n + 1)
    rw [iterate_succ_apply'] at hlast hnext ⊢
    rw [finishes_succ]
    exact (ih fun k hk => hawait k (le_succ_of_le hk)).step (hc.iterate hnone n) hnext hlast

/-- What a substitution is given for its pipeline: each job of the pipeline has ended once, the last
one with the standard output and with the status that count, and all of them have left something on
standard error, after what was said of those that could not be launched. -/
structure Yields (call : PipelineCall) (log : List Finish) (c : Captured) : Prop where
  jobs : ((call.own log).map (·.job)).Perm call.jobs
  stdout : c.stdout = Text.decodeLossy
    (((call.own log).filter fun x => call.jobs.getLast? = some x.job).flatMap (·.outcome.stdout))
  stderr : c.stderr = Text.decodeLossy
    (call.diagnostics ++ (call.own log).flatMap (·.outcome.stderr))
  status : ∀ x ∈ call.own log, call.jobs.getLast? = some x.job →
    c.status = call.verdict x.outcome.status

lemma mem_own : x ∈ call.own log ↔ x ∈ log ∧ x.job ∈ call.jobs := by
  simp [own]

lemma getLast?_range'_eq_iff {a i : ℕ} (hi : i ∈ range' a n) :
    (range' a n).getLast? = some i ↔ i + 1 ∉ range' a n := by
  rw [mem_range'_1] at hi ⊢
  rw [getLast?_range', if_neg (by omega), some_inj]
  omega

/-- When the hub of the pipeline has completed, the buffer holds all that the substitution is to be
given. -/
lemma Gathers.yields (hg : call.Gathers key log m) {a : ℕ} (hjobs : call.jobs = range' a n)
    {s : Int} (hst : m.engine.hubs.status? call.hub = some s) :
    call.Yields log (m.engine.takeCapture key s).1 := by
  have hdone : call.jobs ≠ [] → ((log.map (·.job)).Nodup ∧
      (∀ id ∈ call.jobs, ∃ x ∈ log, x.job = id) ∧
      ∃ x ∈ log, call.jobs.getLast? = some x.job ∧ s = call.verdict x.outcome.status) := by
    intro hne
    obtain ⟨id, hid⟩ := exists_mem_of_ne_nil _ hne
    obtain ⟨hnodup, hall, last, status, hlast, hmem, hs⟩ :=
      hg.lasts.completed hst (ne_nil_of_mem_jobs hid)
    rw [List.map_map] at hnodup
    refine ⟨hnodup, fun i hi => ?_, ?_⟩
    · obtain ⟨-, status, hm⟩ := hall i hi
      obtain ⟨x, hx, he⟩ := mem_map.mp hm
      exact ⟨x, hx, congrArg Prod.fst he⟩
    · obtain ⟨x, hx, he⟩ := mem_map.mp hmem
      cases he
      exact ⟨x, hx, hlast, hs⟩
  have hcaptured : (m.engine.takeCapture key s).1 = ⟨Text.decodeLossy (call.kept log).stdout,
      Text.decodeLossy (call.kept log).stderr, s⟩ := by
    rw [takeCapture, hg.buffer]
    rfl
  rw [hcaptured]
  by_cases hne : call.jobs = []
  · have hown : call.own log = [] := by simp [own, hne]
    exact ⟨by simp [hown, hne], by simp [kept, hown], by simp [kept], by simp [hown]⟩
  · obtain ⟨hnodup, hall, y, hy, hylast, hs⟩ := hdone hne
    refine ⟨?_, ?_, rfl, fun x hx hlast => ?_⟩
    · have hown : ((call.own log).map (·.job)).Nodup :=
        hnodup.sublist (filter_sublist.map _)
      refine (perm_ext_iff_of_nodup hown (hjobs ▸ nodup_range')).mpr fun id => ?_
      constructor
      · intro hid
        obtain ⟨x, hx, rfl⟩ := mem_map.mp hid
        exact (mem_own.mp hx).2
      · intro hid
        obtain ⟨x, hx, rfl⟩ := hall id hid
        exact mem_map_of_mem (mem_own.mpr ⟨hx, hid⟩)
    · dsimp only [kept]
      congr 2
      refine filter_congr fun x hx => ?_
      have hmem := (mem_own.mp hx).2
      rw [hjobs] at hmem ⊢
      exact decide_eq_decide.mpr (getLast?_range'_eq_iff hmem).symm
    · obtain rfl : x = y := by
        refine inj_on_of_nodup_map hnodup (mem_own.mp hx).1 hy ?_
        exact Option.some.inj (hlast.symm.trans hylast)
      exact hs

end PipelineCall

namespace Machine

variable {m : Machine} {store : StoreId} {commands : List Command} {negated : Bool}
  {next : Resumption} {ws : List Work}

lemma Calm.stack_capture (hc : Calm m)
    (hpid : m.step.engine.system.nextPid = m.engine.system.nextPid)
    (hs : m.stack = .evaluate store (.capture commands negated next) :: ws) :
    m.step.stack = .await (ofCapture m.engine commands store negated).hub
      (.evaluation store m.engine.captures.next next) :: ws := by
  have ha := hc.accounted
  rw [hs] at ha
  obtain ⟨A, M, o⟩ := ha.tidy nofun
  rw [step_of_stack hs] at hpid ⊢
  obtain ⟨key, hub, launched, e', he, -⟩ := o.startCapture commands store negated hpid
  have hduties : (m.engine.startCapture commands store negated).2.1.duties = [] := by rw [he]
  change
    (List.map Work.duty (m.engine.startCapture commands store negated).2.1.duties ++ _) ++ _ = _
  rw [hduties]
  rfl

/-- Whatever else goes on while a substitution waits for its pipeline, be it other substitutions
that it is nested in or that are begun meanwhile: it gets an answer, with the standard output of the
last job of its own pipeline, with what was said when its jobs were launched and what they then left
on standard error, in this order, and with the status of the pipeline. Nothing is seen of the launch
and of the answer, nor of the end of any of its jobs but what the job did to the terminal by itself;
and all that is then left to do for the job is to notify its hub, and to call its finalizers if
there are any. -/
theorem substitution_unmixed (hc : Calm m) (hnone : StartsNone m)
    (hs : m.stack = .evaluate store (.capture commands negated next) :: ws) :
    let call := PipelineCall.ofCapture m.engine commands store negated
    ∃ n c, (∀ k ≤ n, ∃ top, (step^[k] m.step).stack =
        top ++ .await call.hub (.evaluation store m.engine.captures.next next) :: ws) ∧
      (step^[n + 1] m.step).stack = .evaluate store (next (.ok c)) :: ws ∧
      call.Yields (m.step.finishes n) c ∧
      (step^[n] m.step).engine.hubs.status? call.hub = some c.status ∧
      m.step.engine.shown = m.engine.shown ∧
      (step^[n + 1] m.step).engine.shown = (step^[n] m.step).engine.shown ∧
      ∀ k < n, ∀ x, (step^[k] m.step).finish? = some x → x.job ∈ call.jobs →
        (step^[k + 1] m.step).engine.shown = ((step^[k] m.step).engine.console, x.world.terminal) ∧
          ∃ hub store, x.rest hub store <+: (step^[k + 1] m.step).stack := by
  intro call
  have hpid : m.step.engine.system.nextPid = m.engine.system.nextPid := hnone 1
  have hc₁ : Calm m.step := .step hc hpid
  have hnone₁ : StartsNone m.step := hnone.iterate 1
  have hstack := hc.stack_capture hpid hs
  have hex := hc₁.exists_ready hstack hnone₁
  classical
  -- the first time that the hub has completed with the substitution on top of the stack
  obtain ⟨hlast, hready⟩ := Nat.find_spec hex
  have hfirst : ∀ k < Nat.find hex, _ := fun k hk => Nat.find_min hex hk
  set n := Nat.find hex
  have hwaits : ∀ k ≤ n, ∃ top, (step^[k] m.step).stack =
      top ++ .await call.hub (.evaluation store m.engine.captures.next next) :: ws :=
    fun k hk => hc₁.waiting hstack hnone₁ fun i hi => hfirst i (hi.trans_le hk)
  have hawait : ∀ k ≤ n, .await call.hub (.evaluation store m.engine.captures.next next) ∈
      (step^[k] m.step).stack := by
    intro k hk
    obtain ⟨top, htop⟩ := hwaits k hk
    rw [htop]
    exact mem_append_right _ mem_cons_self
  have hgathers : ∀ k ≤ n, call.Gathers m.engine.captures.next (m.step.finishes k)
      (step^[k] m.step) := fun k hk =>
    (Gathers.launch hc hs).iterate hc₁ hnone₁ fun i hi => hawait i (hi.trans hk)
  obtain ⟨s, hst⟩ := isSome_iff_exists.mp hready
  obtain ⟨h, hh, hhs⟩ := bind_eq_some_iff.mp hst
  have hanswer : step^[n + 1] m.step = ⟨({ (step^[n] m.step).engine with
      hubs := (step^[n] m.step).engine.hubs.release call.hub }.takeCapture
        m.engine.captures.next s).2,
      .evaluate store (next (.ok ((step^[n] m.step).engine.takeCapture
        m.engine.captures.next s).1)) :: ws⟩ := by
    rw [iterate_succ_apply', step_of_stack hlast]
    simp only [perform, await, hh, hhs, answer]
    rfl
  refine ⟨n, _, hwaits, congrArg stack hanswer,
    (hgathers n le_rfl).yields (jobs_ofCapture hc.reached hs) hst, hst, ?_, ?_,
    fun k hk x hx hid => ?_⟩
  · rw [step_of_stack hs]
    exact shown_startPipeline (e := m.engine.withCapture) rfl
      commands none negated (hc.vacant _)
  · rw [hanswer]
    rfl
  · rw [iterate_succ_apply']
    exact (hgathers k hk.le).shown_step (hc₁.iterate hnone₁ k) hx hid

/-- `(say $(nothing 5<&- | say a)) & say $(say b)`: while the last command waits for what is said to
it, the list in the background begins a substitution of its own, of which one command cannot be
launched. -/
def crossing : Machine :=
  let output (node : Tree.Node) : Tree.Node :=
    .command ⟨[], some ⟨[.literal "say"]⟩, [⟨[.output [⟨node, false⟩]]⟩], []⟩
  let piped : Tree.Node := .pipeline
    [⟨[], some ⟨[.literal "nothing"]⟩, [], [⟨.dupInput, some 5, ⟨[.literal "-"]⟩⟩]⟩,
      ⟨[], some ⟨[.literal "say"]⟩, [⟨[.literal "a"]⟩], []⟩] false
  let script : Tree.Script :=
    ⟨[⟨.subshell [⟨output piped, false⟩], true⟩, ⟨output (say "b"), false⟩]⟩
  let (hub, e) := (initial {} talking.services {} false).spawn script
  ⟨e, [.await hub .request]⟩

/-- Whether a substitution is about to begin. -/
def isCapturing (m : Machine) : Bool :=
  match m.stack with
  | .evaluate _ (.capture _ _ _) :: _ => true
  | _ => false

lemma exists_capture (h : m.isCapturing = true) : ∃ store commands negated next ws,
    m.stack = .evaluate store (.capture commands negated next) :: ws := by
  unfold isCapturing at h
  split at h
  · rename_i hs
    exact ⟨_, _, _, _, _, hs⟩
  · cases h

theorem substitution_unmixed_crossing :
    ∃ store commands negated next ws n c,
      (step^[11] crossing).stack = .evaluate store (.capture commands negated next) :: ws ∧
      (step^[n + 13] crossing).stack = .evaluate store (next (.ok c)) :: ws ∧
      (PipelineCall.ofCapture (step^[11] crossing).engine commands store negated).Yields
        ((step^[12] crossing).finishes n) c := by
  have hnone : StartsNone crossing :=
    startsNone_of_end (k := 70) (length_eq_zero_iff.mp (by decide +kernel)) (by decide +kernel)
  have hcalm : Calm crossing := .request (.request (.fresh _ _ _ _) (.spawn _) rfl) (.wait _) rfl
  obtain ⟨store, commands, negated, next, ws, hs⟩ :=
    exists_capture (m := step^[11] crossing) (by decide +kernel)
  obtain ⟨n, c, -, hanswer, hyields, -⟩ :=
    substitution_unmixed (hcalm.iterate hnone 11) (hnone.iterate 11) hs
  have hstep : (step^[11] crossing).step = step^[12] crossing :=
    (iterate_succ_apply' step 11 crossing).symm
  rw [hstep] at hanswer hyields
  rw [← iterate_add_apply] at hanswer
  exact ⟨store, commands, negated, next, ws, n, c, hs, hanswer, hyields⟩

end Machine

end JobShell
