import JobShell.Proofs.Engine.Reachable

/-!
Commands find their routines.

What kind of job a command is for is decided by its name, and its routine is looked up under the
same name when the job is made. Main statement: commands are divided into the longest groups of one
kind, and no chain that an engine can come to has a launch without a routine, so no routine is ever
missed when a chain runs.
-/

namespace JobShell

open List Relation Option

/-! ### Launches with their routines -/

lemma Services.exists_routine {s : Services} {c : Command} (h : s.kindOf c.name = .routine)
    (world : World) :
    ∃ r, s.find? c.name = some r ∧ (Launch.resolve s world .routine c).routine = some r := by
  unfold kindOf at h
  split_ifs at h with hr
  obtain ⟨r, hr⟩ := isSome_iff_exists.mp hr
  exact ⟨r, hr, by simp [Launch.resolve, hr]⟩

/-- The status for launches that could not be made is not needed if all have their routines. -/
lemma Chain.run_congr {c : Chain} (h : ∀ l ∈ c.launches, ∃ r, l.routine = some r) (n m : Int)
    (w : World) : c.run n w = c.run m w := by
  have hall : ∀ (ls : List Launch) (p : Progress), (∀ l ∈ ls, ∃ r, l.routine = some r) →
      ls.foldl (advance n) p = ls.foldl (advance m) p := by
    intro ls
    induction ls with
    | nil => exact fun _ _ => rfl
    | cons l ls ih =>
      intro p hls
      obtain ⟨⟨r, hr⟩, hls⟩ := forall_mem_cons.mp hls
      have hl : advance n p l = advance m p l := by simp only [advance, hr]
      rw [foldl_cons, foldl_cons, hl, ih _ hls]
  rw [run, run, runAll, runAll, hall c.launches _ h]

/-- All launches of a chain have their routines. -/
def Job.Body.Resolved : Job.Body → Prop
  | .chain c => ∀ l ∈ c.launches, ∃ r, l.routine = some r
  | .native _ => True

lemma Job.Body.Similar.resolved {b b' : Job.Body} (h : b.Similar b') (hb : b.Resolved) :
    b'.Resolved := by
  cases h with
  | chain _ _ hl => exact fun l hm => hb l (hl hm)
  | native => exact trivial

namespace Engine

def Resolved (e : Engine) : Prop := ∀ p ∈ e.jobs, p.2.body.Resolved

variable {e e' : Engine} {id : JobId} {j k : Job}

lemma Resolved.job (h : e.Resolved) (hj : e.job? id = some j) : j.body.Resolved := by
  obtain ⟨l1, l2, hl, -⟩ := lookup_eq_some_iff.mp hj
  exact h (id, j) (hl ▸ mem_append_right l1 mem_cons_self)

lemma Resolved.setJob (h : e.Resolved) (hk : k.body.Resolved) : (e.setJob id k).Resolved := by
  intro p hp
  obtain ⟨q, hq, rfl⟩ := mem_map.mp hp
  dsimp only
  split
  · exact hk
  · exact h q hq

lemma Resolved.touch (h : e.Resolved) (hj : e.job? id = some j) (hk : k.body = j.body) :
    (e.setJob id k).Resolved := h.setJob (hk ▸ h.job hj)

/-! ### What is done to jobs -/

lemma audible_resolved : Audible fun e e' => e.Resolved → e'.Resolved where
  refl _ h := h
  trans h1 h2 h := h2 (h1 h)
  system _ _ _ h := h
  body hj hb h := h.setJob (hb.resolved (h.job hj))
  write _ _ _ h := h
  captures _ _ _ h := h

lemma rousing_resolved : Rousing fun e e' => e.Resolved → e'.Resolved where
  toTolerant := audible_resolved.toTolerant
  rouse hj hb hl h := by
    refine h.setJob fun l hm => ?_
    have hr := h.job hj
    rw [hb] at hr
    exact hr l (hl ▸ hm)
  ready _ _ h := h

section

variable (h : e.Resolved)
include h

lemma Resolved.settle (id : JobId) (state : JobState) (status : Int) :
    (e.settle id state status).1.Resolved := by
  rcases hj : e.job? id with _ | j
  · simpa [Engine.settle, hj] using h
  · rw [settle_eq hj]
    intro p hp
    have hp := mem_of_mem_filter hp
    rw [jobs_announce] at hp
    exact rousing_resolved.passOn_of_live (fun h => h) j h p hp

lemma Resolved.stopped (id : JobId) : (e.stopped id).Resolved := by
  rcases hj : e.job? id with _ | j
  · simpa [Engine.stopped, hj] using h
  · by_cases hs : j.state = .running
    · rw [stopped_eq hj hs]
      rw [Resolved, (halt_eq _ _ _ _).1]
      exact h.touch hj rfl
    · simpa [Engine.stopped, hj, hs] using h

lemma Resolved.continued (id : JobId) : (e.continued id).Resolved := by
  rcases hj : e.job? id with _ | j
  · simpa [Engine.continued, hj] using h
  · have hset : (e.setJob id { j with state := .running }).Resolved := h.touch hj rfl
    simp only [Engine.continued, hj]
    split
    · exact h
    · split <;> exact hset

/-! ### Pipelines -/

lemma Resolved.createSegments (hub : HubId) (ctx : Context) (title : String)
    {groups : Groups}
    (hg : ∀ g ∈ groups, ∀ c ∈ g.2, e.services.kindOf c.name = g.1) :
    (e.createSegments hub ctx title groups).2.Resolved := by
  induction groups generalizing e with
  | nil => exact h
  | cons g groups ih =>
    obtain ⟨kind, group⟩ := g
    obtain ⟨hkind, hg⟩ := forall_mem_cons.mp hg
    have hnew : ∀ hub store sink listed,
        (e.newJob kind group hub store sink listed).body.Resolved := by
      intro hub store sink listed
      cases kind with
      | process => exact trivial
      | routine =>
        intro l hl
        obtain ⟨c, hc, rfl⟩ := mem_map.mp hl
        obtain ⟨r, -, hr⟩ := Services.exists_routine (hkind c hc) e.system.world
        exact ⟨r, hr⟩
    simp only [createSegments, createJob_eq]
    refine ih (fun p hp => ?_) hg
    rcases mem_append.mp hp with hp | hp
    · exact h p hp
    · rw [mem_singleton.mp hp]
      exact hnew _ _ _ _

lemma Resolved.amend (id : JobId) {f : Job → Job} (hf : ∀ j, (f j).body = j.body) :
    (e.amend id f).Resolved := by
  rcases hj : e.job? id with _ | j <;> simp only [Engine.amend, hj, Option.elim]
  · exact h
  · exact h.touch hj (hf j)

lemma Resolved.connectAll (js : List JobId) : (e.connectAll js).Resolved := by
  refine connectAll_induction (P := Resolved) (fun e a b h => ?_) h js
  rw [connect_eq]
  refine .amend (.amend h a ?_) b ?_ <;> exact fun _ => rfl

lemma Resolved.startJob (id : JobId) (mode : Mode) (taps : Taps) :
    (e.startJob id mode taps).2.Resolved := by
  rcases hj : e.job? id with _ | j
  · simpa [Engine.startJob, hj] using h
  have hready : (e.readied id j mode).Resolved := by
    rw [Resolved, (e.readied_eq id j mode).1]
    exact h
  rcases hb : j.body with c | n
  · have hstart : (c.start taps).2.launches = c.launches := by
      rw [Chain.start, Chain.ready]
      split <;> rfl
    have hr := h.job hj
    rw [hb] at hr
    have hset : ((e.readied id j mode).setJob id
        (begun j mode (.chain (c.start taps).2) j.live)).Resolved :=
      hready.setJob fun l hl => hr l (hstart ▸ hl)
    rw [startJob_chain hj hb]
    dsimp only
    split <;> exact hset
  · rcases hs : n.start id taps e.system with ⟨d, n', s⟩
    rw [startJob_native hj hb mode hs]
    have hset : ∀ live, (({ e.readied id j mode with system := s } : Engine).setJob id
        (begun j mode (.native n') live)).Resolved := fun _ => .setJob hready trivial
    refine audible_resolved.complain _ id d ?_
    split <;> exact hset _

lemma Resolved.startSegments (route : Route) (fed : Bool) (js : List JobId) :
    (e.startSegments route fed js).2.Resolved := by
  induction js generalizing fed with
  | nil => exact h
  | cons id js ih =>
    cases js with
    | nil => exact h.startJob id _ _
    | cons next js => exact (ih true).startJob id _ _

lemma Resolved.startPipeline (commands : List Command) (ctx : Context)
    (parent : Option HubId) (negated : Bool) :
    (e.startPipeline commands ctx parent negated).2.Resolved := by
  rw [startPipeline_eq]
  split
  · exact h
  · set hub := (e.createHub parent).1
    set cs := commands.filter (!·.assignmentOnly)
    have hlaunch : ((e.createHub parent).2.launchJobs hub cs ctx).2.2.Resolved :=
      ((Resolved.createSegments (e := (e.createHub parent).2) h hub ctx (Command.pipeLine cs)
        (e.services.divides_partition cs).kind).connectAll _).startSegments _ _ _
    dsimp only
    rcases oversee_cases ((e.createHub parent).2.launchJobs hub cs ctx).2.2 hub
      ((e.createHub parent).2.launchJobs hub cs ctx).1
      ((e.createHub parent).2.launchJobs hub cs ctx).2.1 negated with ho | ⟨j, ho⟩
    · rw [ho]
      exact hlaunch
    · unfold subscribe at ho
      split at ho <;> simp only [Except.ok.injEq, reduceCtorEq] at ho
      rw [← ho]
      split <;> exact hlaunch

end

lemma watches_resolved :
    Watches (fun e e' => e.Resolved → e'.Resolved) fun e e' => e.Resolved → e'.Resolved where
  toAudible := audible_resolved
  same _ h := h
  before h1 h2 h := h2 (h1 h)
  after h1 h2 h := h2 (h1 h)
  beside _ _ _ _ _ _ _ _ _ h := h
  native _ _ h := h.setJob trivial
  used c o w hj h := .setJob h (by exact fun l hl => absurd hl not_mem_nil)
  settle _ id _ status _ h := h.settle id _ status
  stopped _ id h := h.stopped id
  continued _ id h := h.continued id
  startPipeline _ commands ctx parent negated h := h.startPipeline commands ctx parent negated
  foreground hf h := by
    obtain ⟨i, j, system, -, hj, -, rfl⟩ := foreground_eq_ok hf
    exact h.touch hj rfl
  background hb h := by
    obtain ⟨i, j, system, hj, -, rfl⟩ := background_eq_ok hb
    exact h.touch hj rfl

lemma Reachable.resolved (h : Reachable e) : e.Resolved := by
  obtain ⟨config, services, system, direct, h⟩ := h
  induction h with
  | refl => exact fun p hp => absurd hp not_mem_nil
  | tail _ ha ih => exact watches_resolved.act ha ih

/-- Commands can be divided into groups of one kind, as long as can be, in just one way, and each
command of a group of routines is launched with the routine that is known by its name. In each state
that can be reached, all launches of a chain have their routines, and so running it never comes to
the status for a command that was not found. -/
theorem groups_resolve (s : Services) (cs : List Command) :
    (∀ groups, s.Divides groups cs ↔ groups = s.partition cs) ∧
    (∀ g ∈ s.partition cs, g.1 = .routine → ∀ c ∈ g.2, ∀ world, ∃ r, s.find? c.name = some r ∧
      (Launch.resolve s world g.1 c).routine = some r) ∧
    ∀ e, Reachable e → ∀ id j c, e.chain? id = some (j, c) →
      (∀ l ∈ c.launches, ∃ r, l.routine = some r) ∧
      ∀ n w, c.run n w = c.run e.config.failedStatus w := by
  refine ⟨fun groups => ⟨Services.Divides.eq_partition, ?_⟩, ?_, fun e he id j c hc => ?_⟩
  · rintro rfl
    exact s.divides_partition cs
  · rintro ⟨k, group⟩ hg rfl c hc world
    exact Services.exists_routine ((s.divides_partition cs).kind _ hg c hc) world
  · obtain ⟨hj, hb⟩ := chain?_eq_some_iff.mp hc
    have hr := he.resolved.job hj
    rw [hb] at hr
    exact ⟨hr, fun n w => Chain.run_congr hr n _ w⟩

/-- The job for `say b` that waits while `say a` has ended was launched with its routine. -/
theorem groups_resolve_overtaken :
    ∃ j c, overtaken.chain? 2 = some (j, c) ∧ c.launches ≠ [] ∧
      (∀ l ∈ c.launches, ∃ r, l.routine = some r) ∧ ∀ n w, c.run n w = c.run 127 w := by
  have hwaits : (overtaken.chain? 2).any (!·.2.launches.isEmpty) = true := by decide +kernel
  obtain ⟨⟨j, c⟩, hc, hne⟩ := (any_eq_true _ _).mp hwaits
  have hstatus : overtaken.config.failedStatus = 127 := by decide +kernel
  obtain ⟨-, -, hreach⟩ := groups_resolve overtaken.services []
  obtain ⟨hr, hrun⟩ := hreach overtaken ⟨{}, talking.services, {}, false, acts_overtaken⟩ 2 j c hc
  exact ⟨j, c, hc, by simpa using hne, hr, hstatus ▸ hrun⟩

end Engine

end JobShell
