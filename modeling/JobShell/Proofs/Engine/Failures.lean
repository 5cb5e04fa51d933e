import JobShell.Proofs.Chain
import JobShell.Proofs.Engine.PipelineStatus
import JobShell.Proofs.Engine.Single

/-!
Results that say that they failed.

A routine may return a value with a status in it, of 64 bits; the status of its job has 32, and is
made of the low half. Main statement: unless that half is zero, the job fails as its result does;
and if the job is the left side of an operator, the operator hears of that as soon as the job is
done, so that what follows `&&` is not started and what follows `||` is.
-/

namespace JobShell

open List Option Hub Machine Relation

/-- A value that carries a status of 64 bits with a low half that is not zero. -/
def Value.Fails (v : Value) : Prop :=
  ∃ n : ℤ, v.member? "status" = some (.int n) ∧ (-2 ^ 63 ≤ n ∧ n < 2 ^ 63) ∧ ¬ 2 ^ 32 ∣ n

lemma Text.wrap32_ne_zero {n : ℤ} (h : ¬ 2 ^ 32 ∣ n) : wrap32 n ≠ 0 := by
  intro hz
  apply h
  rw [wrap32] at hz
  exact Int.dvd_of_bmod_eq_zero hz

lemma Value.Fails.embeddedStatus {v : Value} (h : v.Fails) : Output.embeddedStatus v ≠ 0 := by
  obtain ⟨n, hv, hrange, hn⟩ := h
  have hstatus : Output.embeddedStatus v = Text.wrap32 n := by
    simp only [Output.embeddedStatus, hv, Value.int, Number.int64?, if_pos hrange, map_some,
      getD_some]
  rw [hstatus]
  exact Text.wrap32_ne_zero hn

namespace Chain

variable {p : Progress} {l : Launch}

/-- A launch of a routine that returns a value which fails. If the redirections of the launch fail
then the routine is not called. -/
def Fails (p : Progress) (l : Launch) : Prop :=
  ∃ r, l.routine = some r ∧ ∀ routes w, Routes.plan p.world l.redirections = (.ok routes, w) →
    ∃ v, (r.body (p.call l routes w) w).1 = .structured v ∧ v.Fails

/-- Whatever keeps such a routine from running or its output from being delivered fails too. -/
lemma status_advance (h : Fails p l) (failedStatus : Int) :
    (advance failedStatus p l).status ≠ 0 := by
  obtain ⟨r, hl, hr⟩ := h
  rcases hplan : Routes.plan p.world l.redirections with ⟨message | routes, world⟩
  · simp only [advance, hplan]
    exact Int.one_ne_zero
  · simp only [advance, hplan, hl]
    split
    · obtain ⟨v, hv, hfails⟩ := hr _ _ hplan
      simpa only [hv, Output.conclude] using hfails.embeddedStatus
    · exact Int.one_ne_zero

end Chain

/-- A job whose last routine returns a value that fails, if its turn comes now. -/
def Job.Fails (e : Engine) (j : Job) : Prop :=
  ∃ c launches l, j.body = .chain c ∧ c.closed = true ∧ c.launches = launches ++ [l] ∧
    Chain.Fails (Chain.progress e.config.failedStatus launches c.input e.system.world) l

lemma Job.Fails.runChain {e : Engine} {id : JobId} {j : Job} (h : j.Fails e)
    (hj : e.job? id = some j) :
    ∃ s, s ≠ 0 ∧ ∀ ts, ((e.withTasks ts).runChain id).2.1 = [.notify j.hub s] := by
  obtain ⟨c, launches, l, hb, hclosed, hc, hfails⟩ := h
  let o := (Chain.runAll e.config.failedStatus c.launches c.input e.system.world).1
  refine ⟨o.status, ?_, fun ts =>
    congrArg Prod.fst (Engine.runChain_closed (e.withTasks ts) id hj hb hclosed rfl).1⟩
  have hne : (launches ++ [l]).isEmpty = false := by simp
  simp only [o, Chain.runAll, hc, hne, Bool.false_eq_true, if_false, foldl_append]
  exact Chain.status_advance hfails _

/-! ### The left side of an operator -/

/-- An operator between two commands: the hub that it completes, and what it goes on with. -/
structure Operator where
  hub : HubId
  op : Tree.Connective
  right : Tree.Node
  ctx : Context

def Operator.callback (x : Operator) : Callback := .logical x.hub x.op x.right x.ctx

/-- A hub that waits for so many children, below another one and with these subscribers. -/
structure Hub.Stands (n : ℕ) (z : Bool) (p : HubId) (cs : List Callback) (h : Hub Callback) : Prop
    extends Standing n z h where
  parent : h.parent = some p
  callbacks : h.subscribers.map Prod.snd = cs

lemma Hub.Stands.duties {n : ℕ} {z : Bool} {p : HubId} {cs : List Callback} {h : Hub Callback}
    (hs : h.Stands n z p cs) (i : HubId) (s : Int) : h.duties i s =
      [.deliver i s (h.subscribers.map (·.1)), .report p h.order s h.subscribers.isEmpty,
        .settle i] := by
  simp [Hub.duties, hs.parent]

/-- All that the left side of an operator waits for is a job: its pipeline has no other one, and its
list no other step. -/
structure Hubs.LeftOf (hubs : Hubs Callback) (x : Operator) (r : Runner) (P J : HubId) : Prop where
  steps : r.steps = []
  list : ∃ h, hubs.get? r.hub = some h ∧ h.Stands 1 false x.hub [x.callback]
  pipeline : ∃ h, hubs.get? P = some h ∧ h.Stands 1 true r.hub [.runner r]
  job : ∃ h, hubs.get? J = some h ∧ h.Stands 0 false P []

namespace Engine

variable {e : Engine} {x : Operator} {r : Runner} {P J : HubId} {s : Int} {T : List Work}

/-- What there is when an operator has heard the status of its left side: tasks may be new and a
duty is to be done, and else only hubs have changed, and `?`. -/
def Heard (e : Engine) (r : Runner) (s : Int) (T : List Work) (ts : List Task) (d : Duty)
    (m : Machine) : Prop :=
  ∃ hubs ds, m = ⟨{ e with
      stores := e.stores.set r.ctx.store Stores.statusName (.int s)
      hubs
      tasks := e.tasks ++ ts }, (d :: ds).map .duty ++ T⟩

/-- What an operator does when it has heard that its left side failed: `&&` completes with the same
status, and `||` starts its right side. -/
def Reacts (e : Engine) (x : Operator) (r : Runner) (s : Int) (T : List Work) : Machine → Prop :=
  match x.op with
  | .and => e.Heard r s T [] (.notify x.hub s)
  | .or => fun m => ∃ hub, e.Heard r s T
      [.advance { hub, steps := [.item ⟨x.right, false⟩], ctx := x.ctx }] (.sealOff x.hub) m

/-- The hubs of the job, the pipeline and the list complete one after the other, all with the status
of the job. -/
lemma leads_operator (lo : e.hubs.LeftOf x r P J) (sound : e.hubs.Sound) :
    Leads (fun m => ∃ (hubs : Hubs Callback) (ds : List Duty),
      let p := ({ e with
        stores := e.stores.set r.ctx.store Stores.statusName (.int s)
        hubs } : Engine).call s x.callback
      m = ⟨p.1, p.2 ++ (ds.map .duty ++ T)⟩) ⟨e, .duty (.notify J s) :: T⟩ := by
  obtain ⟨l, hl, sl⟩ := lo.list
  obtain ⟨p, hp, sp⟩ := lo.pipeline
  obtain ⟨j, hj, sj⟩ := lo.job
  obtain ⟨key, kl⟩ : ∃ key, l.subscribers = [(key, x.callback)] := by
    obtain ⟨⟨key, cb⟩, hone, rfl⟩ := map_eq_singleton_iff.mp sl.callbacks
    exact ⟨key, hone⟩
  obtain ⟨key', kp⟩ : ∃ key, p.subscribers = [(key, .runner r)] := by
    obtain ⟨⟨key, cb⟩, hone, rfl⟩ := map_eq_singleton_iff.mp sp.callbacks
    exact ⟨key, hone⟩
  have kj : j.subscribers = [] := map_eq_nil_iff.mp sj.callbacks
  have hPJ : (P, p) ≠ (J, j) := by
    rintro ⟨⟩
    cases sp.pending.symm.trans sj.pending
  have hLJ : (r.hub, l) ≠ (J, j) := by
    intro he
    cases congrArg Prod.snd he
    cases sl.pending.symm.trans sj.pending
  have hLP : (r.hub, l) ≠ (P, p) := by
    intro he
    cases congrArg Prod.snd he
    cases sl.isSealed.symm.trans sp.isSealed
  obtain ⟨R, hR⟩ : ∃ R, e.hubs.entries = {(J, j)} + ({(P, p)} + ({(r.hub, l)} + R)) := by
    obtain ⟨R, hR⟩ := Slab.exists_rest hj
    have hmp : (P, p) ∈ e.hubs.entries := Slab.mem_entries.mpr hp
    have hml : (r.hub, l) ∈ e.hubs.entries := Slab.mem_entries.mpr hl
    simp only [hR, Multiset.mem_add, Multiset.mem_singleton, hPJ, hLJ, false_or] at hmp hml
    obtain ⟨R, rfl⟩ := Accounts.frame hmp
    simp only [Multiset.mem_add, Multiset.mem_singleton, hLP, false_or] at hml
    obtain ⟨R, rfl⟩ := Accounts.frame hml
    exact ⟨R, hR⟩
  have hh : Holds e ({(J, j)} + ({(P, p)} + ({(r.hub, l)} + R))) e.tasks e := ⟨rfl, sound, hR⟩
  -- the job
  refine leads_due hh rfl sj.status ⟨sj.pending, rfl⟩ rfl fun e h => ?_
  rw [sj.duties, kj]
  refine leads_deliver_nil ?_
  -- the pipeline
  have hs : p.verdict (.report P j.order s true) = s := by
    simp [verdict, heed, heard, aggregate, sp.requested, sp.latest]
  refine leads_due (h.congr (add_left_comm _ _ _)) rfl sp.status
    ⟨by simp [heed, heard, sp.pending], sp.isSealed⟩ hs fun e h => ?_
  rw [sp.duties, kp]
  refine leads_deliver_one h kp fun e h => .step (by simp) ?_
  -- its list, which has no steps left
  have hdone : ∀ e : Engine, e.perform (.advance { r with foreground := some s }) =
      (e, [.duty (.notify r.hub s)]) := fun e => by simp [perform, advance, lo.steps]
  replace h := h.rebase (fun e => (e.record r s).2) fun _ _ _ => rfl
  rw [hdone]
  have hlist : ∀ (a b : HubEntry) (R : Multiset HubEntry),
      {a} + ({b} + ({(r.hub, l)} + R)) = {(r.hub, l)} + ({a} + ({b} + R)) := by
    intro a b R
    ac_rfl
  refine leads_waiting (h.congr (hlist _ _ _)) rfl sl.status (by simp [IsDue, heed, sl.pending])
    fun e h => leads_deliver_nil ?_
  have hs : (l.heed (.notify r.hub s)).verdict (.report r.hub p.order s false) = s := by
    simp [verdict, heed, heard, aggregate, sl.requested]
  refine leads_due h rfl sl.status ⟨by simp [heed, heard, sl.pending], rfl⟩ hs fun e h => ?_
  have hduties : (l.heed (.notify r.hub s)).duties r.hub s = l.duties r.hub s := rfl
  rw [hduties, sl.duties, kl]
  refine leads_deliver_one h kl fun e h => .here ?_
  refine ⟨e.hubs,
    [.deliver r.hub s [], .report x.hub l.order s false, .settle r.hub, .settle P, .settle J], ?_⟩
  rw [h.base]
  rfl

end Engine

/-! ### Nobody else meddles -/

namespace Desk

variable {t : Terms} {past os : Notes} {ss log : Log} {d d' : Desk}
  {i c : HubId} {h k : Hub Callback} {n : ℕ} {z : Bool} {p : HubId} {cs : List Callback}

/-- A hub that waits for no child, or for one that is still open, hears of no one. -/
lemma Owned.report_notMem (o : d.Owned) (hg : d.scene.hubs.get? i = some h) (hn : h.status = none)
    (hp : h.pending = 0 ∨ h.pending = 1 ∧ ∃ c k, d.scene.hubs.get? c = some k ∧ k.status = none ∧
      k.parent = some i) (order : ℕ) (status : Int) (contributes : Bool) :
    .report i order status contributes ∉ d.scene.duties := by
  intro hm
  obtain ⟨A, b⟩ := o.books
  have hwant : (Accounts.wants d.scene.hubs.entries).count (.report i) = h.pending := by
    have hfilter := congrArg (Multiset.count (.report i)) (b.wants_filter (Slab.mem_entries.mpr hg))
    rw [Multiset.count_filter, if_pos (by rfl)] at hfilter
    rw [hfilter]
    cases hz : h.isSealed <;> simp [Hub.wants, hn, hz, Multiset.count_replicate]
  have hdue : 1 ≤ (Accounts.due (d.scene.duties.flatMap Duty.marks)).count (.report i) := by
    refine Multiset.one_le_count_iff_mem.mpr (Accounts.mem_due.mpr ⟨?_, rfl⟩)
    exact mem_flatMap.mpr ⟨_, hm, mem_singleton_self _⟩
  have hsum := congrArg (Multiset.count (.report i)) b.balance
  simp only [Multiset.count_add] at hsum
  rcases hp with hp | ⟨hp, c, k, hc, hk, hpar⟩
  · omega
  · have hgive : 1 ≤ (Accounts.gives d.scene.hubs.entries).count (.report i) := by
      refine Multiset.one_le_count_iff_mem.mpr (Accounts.mem_gives.mpr ⟨(c, k), ?_, ?_⟩)
      · exact Slab.mem_entries.mpr hc
      · exact Hub.mem_gives.mpr (.inr ⟨hk, i, hpar, rfl⟩)
    omega

/-- Nobody touches a hub that is sealed, or that a job or a subscriber is to complete, while it has
no news of its children. -/
lemma Owned.untouched (o : d.Owned) (hg : d.scene.hubs.get? i = some h) (hn : h.status = none)
    (hdriven : h.isSealed = true ∨ i ∈ jobHubs d.jobs ∨ i ∈ d.scene.hubs.bound)
    (hp : h.pending = 0 ∨ h.pending = 1 ∧ ∃ c k, d.scene.hubs.get? c = some k ∧ k.status = none ∧
      k.parent = some i) :
    i ∉ d.hands ∧ ∀ u ∈ d.scene.duties, u.target? ≠ some i := by
  have hno : d.hands.count i + (Duty.drives d.scene.duties).count i = 0 := by
    rcases hdriven with hz | hi
    · have hnot : i ∉ d.drivers := by
        intro hm
        obtain ⟨k, hk, -, hz'⟩ := o.free i hm
        cases hg.symm.trans hk
        cases hz.symm.trans hz'
      have hzero := Multiset.count_eq_zero.mpr hnot
      simp only [drivers, Multiset.count_add] at hzero
      omega
    · have hone := Multiset.nodup_iff_count_le_one.mp o.nodup i
      simp only [drivers, Multiset.count_add] at hone
      have hpos : 0 < (jobHubs d.jobs).count i ∨ 0 < d.scene.hubs.bound.count i :=
        hi.imp Multiset.count_pos.mpr Multiset.count_pos.mpr
      omega
  have hdrives : i ∉ Duty.drives d.scene.duties := Multiset.count_eq_zero.mp (by omega)
  refine ⟨Multiset.count_eq_zero.mp (by omega), fun u hu ht => ?_⟩
  cases u with
  | notify | sealOff =>
    cases ht
    exact hdrives (mem_filterMap.mpr ⟨_, hu, rfl⟩)
  | report =>
    cases ht
    exact o.report_notMem hg hn hp _ _ _ hu
  | _ => cases ht

/-- A hub that nobody touches stays as it is, unless someone who has its parent in hand subscribes
to it. -/
lemma Deal.stands (hd : Deal t past d os ss d') (o : d.Owned) (sound : d.scene.hubs.Sound)
    (hg : d.scene.hubs.get? i = some h) (hs : h.Stands n z p cs)
    (hi : i ∉ d.hands ∧ ∀ u ∈ d.scene.duties, u.target? ≠ some i)
    (hparent : cs = [] → p ∉ d.hands) :
    ∃ h', d'.scene.hubs.get? i = some h' ∧ h'.Stands n z p cs := by
  cases hd.fares o sound hg with
  | stays n hg' => exact ⟨_, hg', { hs with }⟩
  | bears hh => exact absurd hh hi.1
  | subscribed hn hs' hp hh =>
    have hcs : cs = [] := by rw [← hs.callbacks, hs']; rfl
    obtain rfl := some.inj (hs.parent.symm.trans hp)
    exact absurd hh (hparent hcs)
  | calls hst => cases hs.status.symm.trans hst
  | heeds hu ht => exact absurd ht (hi.2 _ hu)
  | dropped hd hsp => simp [Hub.isSpent, hs.status] at hsp

variable {x : Operator} {r : Runner} {P J : HubId} {id : JobId}

/-- As long as a job has not settled, it is the left side of an operator if it was once. -/
structure Leftward (id : JobId) (x : Operator) (r : Runner) (P J : HubId) (past : Notes)
    (log : Log) (d : Desk) : Prop extends Machine.Based past log d where
  logged : Logged log d
  left : (∃ status, (id, status) ∈ log) ∨
    (∃ store, (id, J, store) ∈ d.jobs) ∧ d.scene.hubs.LeftOf x r P J

lemma law_leftward (t : Terms) : Law t (Leftward id x r P J) where
  run hr := hr.run
  owned hr := hr.owned
  deal := by
    rintro past log d os ss d' ⟨hr, hlogged, hleft⟩ hd
    refine ⟨(Machine.law_based t).deal hr hd, hlogged.deal hr.owned hd, ?_⟩
    rcases hleft with ⟨status, hlog⟩ | ⟨⟨store, hjob⟩, lo⟩
    · exact .inl ⟨status, mem_append_left _ hlog⟩
    rcases hd.job hr.owned hjob with hjob' | ⟨status, rfl, -⟩
    swap
    · exact .inl ⟨status, by simp⟩
    have o := hr.owned
    have sound := hr.run.sane.sound
    obtain ⟨l, hl, sl⟩ := lo.list
    obtain ⟨p, hp, sp⟩ := lo.pipeline
    obtain ⟨j, hj, sj⟩ := lo.job
    -- the list is completed by its runner, the pipeline is sealed, and the job is there
    have hlist : r.hub ∈ d.scene.hubs.bound := by
      obtain ⟨s, hs, hr⟩ := mem_map.mp (sp.callbacks ▸ mem_singleton_self (Callback.runner r))
      exact Hubs.mem_bound.mpr ⟨P, p, hp, s, hs, congrArg Callback.hub hr⟩
    have hjobs : J ∈ jobHubs d.jobs := mem_map.mpr ⟨_, hjob, rfl⟩
    have ulist := o.untouched hl sl.status (.inr (.inr hlist))
      (.inr ⟨sl.pending, P, p, hp, sp.status, sp.parent⟩)
    have upipe := o.untouched hp sp.status (.inl sp.isSealed)
      (.inr ⟨sp.pending, J, j, hj, sj.status, sj.parent⟩)
    have ujob := o.untouched hj sj.status (.inr (.inl hjobs)) (.inl sj.pending)
    exact .inr ⟨⟨store, hjob'⟩, lo.steps, hd.stands o sound hl sl ulist (by simp),
      hd.stands o sound hp sp upipe (by simp), hd.stands o sound hj sj ujob fun _ => upipe.1⟩

end Desk

namespace Engine

variable {e : Engine} {x : Operator} {r : Runner} {cmd : Command} {h : Hub Callback}

/-- A command that is started as the last step of the left side of an operator is all that is left
of it. -/
lemma leftOf_pipelineStep (hk : e.Keyed) (hn : ∀ j ∈ e.jobs, j.1 < e.nextJob)
    (sound : e.hubs.Sound) (hc : cmd.assignmentOnly = false) (hr : r.steps = [])
    (hg : e.hubs.get? r.hub = some h) (hs : h.Stands 0 false x.hub [x.callback]) :
    ∃ P J e1 e2, e.pipelineStep r [cmd] false false = (e1, [.follow r P]) ∧
      e1.subscribe P (.runner r) = .ok e2 ∧ (∃ store, (e.nextJob, J, store) ∈ e2.jobs.map place) ∧
      e2.hubs.LeftOf x r P J := by
  -- the hub of the pipeline, and that of the job below it
  have hLP := sound.ne_next hg
  have hg1 := Hubs.get?_create_child sound hg hs.status
  have sound1 : (e.hubs.create (some r.hub)).2.Sound := Hubs.Sound.create sound _
  have hP1 := (hg1 e.hubs.next).trans (if_pos rfl)
  have hL1 : (e.hubs.create (some r.hub)).2.get? r.hub = some h.withChild := by
    rw [hg1, if_neg hLP, if_pos rfl]
  have hPJ := sound1.ne_next hP1
  have hLJ := sound1.ne_next hL1
  have hg2 := Hubs.get?_create_child sound1 hP1 rfl
  set P := e.hubs.next
  set J := Slab.next (e.hubs.create (some r.hub)).2
  obtain ⟨e0, he0, hk0, hjobs, hhubs⟩ : ∃ e0 : Engine,
      (e.createHub (some r.hub)).2.createJob (e.services.kindOf cmd.name) [cmd]
        (e.createHub (some r.hub)).1 r.ctx.store r.ctx.route.sink
        (r.ctx.route.listed?.map (·, Command.pipeLine [cmd])) = (e.nextJob, e0) ∧
      e0.Keyed ∧ e0.jobs.map place = e.jobs.map place ++ [(e.nextJob, J, r.ctx.store)] ∧
      e0.hubs = ((e.hubs.create (some r.hub)).2.create (some P)).2 := by
    refine ⟨_, createJob_eq _ _ _ _ _ _, nodup_append_new hk hn, ?_, rfl⟩
    rw [map_append]
    rfl
  have hstart := startPipeline_one e hc r.ctx (some r.hub)
  simp only [he0] at hstart
  have hu := unmoved_startJob hk0 e.nextJob r.ctx.route.mode
    { r.ctx.route.taps e0.config.inheritTerminal with stdin := false }
  generalize e0.startJob e.nextJob r.ctx.route.mode
    { r.ctx.route.taps e0.config.inheritTerminal with stdin := false } = q at hstart hu
  rw [← hu.hubs.trans hhubs] at hg2
  have hP2 := (hg2 P).trans ((if_neg hPJ).trans (if_pos rfl))
  obtain ⟨hubs, hseal, hP3, hsame⟩ : ∃ hubs, q.2.hubs.sealOff P = (hubs, []) ∧
      hubs.get? P = some _ ∧ ∀ k, k ≠ P → hubs.get? k = q.2.hubs.get? k := by
    refine ⟨q.2.hubs.update P ({ · with isSealed := true }), ?_, Hubs.get?_update_self hP2 _,
      fun k hk => Hubs.get?_update_of_ne _ _ hk⟩
    simp [Hubs.sealOff, hP2, withChild]
  refine ⟨P, J, { q.2 with hubs }, { q.2 with hubs := hubs.update P (·.subscribed (.runner r)) },
    ?_, ?_, ⟨r.ctx.store, ?_⟩, hr, ?_, ?_, ?_⟩
  · simp only [pipelineStep, hstart, Bool.false_eq_true, if_false]
    exact hseal ▸ rfl
  · simp [subscribe, Hubs.subscribe, Hubs.status?, hP3, withChild]
  · rw [show map place q.2.jobs = _ from hu.jobs.trans hjobs]
    exact mem_append_right _ (mem_singleton_self _)
  · refine ⟨h.withChild, ?_, ⟨⟨hs.status, hs.requested, hs.latest, hs.isSealed, ?_⟩, hs.parent,
      hs.callbacks⟩⟩
    · rw [Hubs.get?_update, if_neg hLP, hsame _ hLP, hg2, if_neg hLJ, if_neg hLP, hL1]
    · rw [withChild, hs.pending]
  · exact ⟨_, Hubs.get?_update_self hP3 _, ⟨rfl, rfl, rfl, rfl, rfl⟩, rfl, rfl⟩
  · refine ⟨{ parent := some P }, ?_, ⟨rfl, rfl, rfl, rfl, rfl⟩, rfl, rfl⟩
    rw [Hubs.get?_update, if_neg hPJ.symm, hsame _ hPJ.symm, hg2, if_pos rfl]

end Engine

namespace Machine

open Engine PipelineCall

variable {m m' : Machine} {x : Operator} {r : Runner} {cmd : Command} {P J : HubId} {id : JobId}

/-- A machine is about to start a command that is the left side of an operator. -/
structure StartsLeft (x : Operator) (r : Runner) (cmd : Command) (m : Machine) : Prop where
  reached : m.Reached
  comes : ∃ w ws, m.stack = w :: ws ∧ Comes m.engine w r [cmd] false false
  named : cmd.assignmentOnly = false
  steps : r.steps = []
  list : ∃ h, m.engine.hubs.get? r.hub = some h ∧ h.Stands 0 false x.hub [x.callback]

lemma Goes.leftward {log : Log} (hg : Goes m m')
    (hb : Busy (Desk.Leftward id x r P J) log m.engine m.stack) :
    ∃ ss, Busy (Desk.Leftward id x r P J) (log ++ ss) m'.engine m'.stack := by
  have hl : Desk.Law (.lax true) (Desk.Leftward id x r P J) := Desk.law_leftward _
  obtain ⟨ss, hb', -⟩ : Done (fun _ => True) (Desk.Leftward id x r P J) log 0 [] m.engine
      (m'.engine, m'.stack) := by
    cases hg with
    | step => exact (hb.step hl rfl fun _ _ _ => allows_lax fun _ => rfl).1
    | outside h => exact h.worked hl hb
  exact ⟨ss, hb'⟩

lemma StartsLeft.leftward (hb : StartsLeft x r cmd m) :
    ∃ P J, Busy (Desk.Leftward m.engine.nextJob x r P J)
      [] m.step.step.engine m.step.step.stack := by
  obtain ⟨hreached, ⟨w, ws, hstack, hc⟩, hcmd, hr, h, hg, hs⟩ := hb
  have hbusy : Busy Based [] m.step.step.engine m.step.step.stack := by
    obtain ⟨config, services, system, direct, hgo⟩ := hreached
    exact Reached.busy ⟨config, services, system, direct, (hgo.tail (.step m)).tail (.step _)⟩
  obtain ⟨handles, past, ds, H, hr0, -⟩ := hreached.busy.desk
  have hk : m.engine.Keyed := by
    have hids := hr0.owned.ids
    rwa [desk, List.map_map] at hids
  have hn : ∀ j ∈ m.engine.jobs, j.1 < m.engine.nextJob := fun j hj =>
    hr0.owned.numbered (place j) (mem_map_of_mem hj)
  obtain ⟨P, J, e1, e2, hstep, hsub, hjob, lo⟩ :=
    leftOf_pipelineStep hk hn hr0.run.sane.sound hcmd hr hg hs
  have hfirst : m.step = ⟨e1, .follow r P :: ws⟩ := by
    rw [step, hstack]
    simp only [hc.perform, hstep]
    rfl
  have hnext : m.step.step = ⟨e2, ws⟩ := by
    rw [hfirst, step]
    simp only [perform, Engine.follow, hsub]
    rfl
  rw [hnext] at hbusy ⊢
  exact ⟨P, J, hbusy.imp (fun _ h => h) fun handles past ds H hr =>
    ⟨hr, ⟨.nil, by simp, by simp⟩, .inr ⟨hjob, lo⟩⟩⟩

lemma StartsLeft.leftOf (hb : StartsLeft x r cmd m) (hgo : ReflTransGen Goes m.step.step m')
    {j : Job} (hj : m'.engine.job? m.engine.nextJob = some j) :
    ∃ P, m'.engine.hubs.LeftOf x r P j.hub ∧ m'.engine.hubs.Sound ∧ m'.engine.Keyed := by
  obtain ⟨P, J, hstart⟩ := hb.leftward
  have hrun : ∃ log, Busy (Desk.Leftward m.engine.nextJob x r P J) log m'.engine m'.stack := by
    clear hj
    induction hgo with
    | refl => exact ⟨[], hstart⟩
    | tail _ hg ih =>
      obtain ⟨log, ih⟩ := ih
      exact (hg.leftward ih).imp' _ fun _ h => h
  obtain ⟨log, hbusy⟩ := hrun
  obtain ⟨handles, past, ds, H, hr, -⟩ := hbusy.desk
  have hk : m'.engine.Keyed := by
    have hids := hr.owned.ids
    rwa [desk, List.map_map] at hids
  have hplace : (m.engine.nextJob, j.hub, j.store) ∈ m'.engine.jobs.map place :=
    mem_map_of_mem (hk.mem_iff.mpr hj)
  rcases hr.left with ⟨status, hlog⟩ | ⟨⟨store, hjob⟩, lo⟩
  · exact absurd hplace (hr.logged.gone _ hlog _)
  · have hsame := inj_on_of_nodup_map hr.owned.ids hjob hplace rfl
    obtain ⟨rfl, -⟩ := Prod.mk.inj (Prod.mk.inj hsame).2
    exact ⟨P, lo, hr.run.sane.sound, hk⟩

end Machine

namespace Engine

variable {e : Engine} {x : Operator} {r : Runner} {P : HubId} {s : Int}

lemma Retires.hubs {p : Engine × List Duty} (h : Retires e p) : p.1.hubs = e.hubs := by
  cases h with
  | none hu => exact hu.hubs
  | one hu hj status => exact hu.hubs

lemma leads_failed {id : JobId} {j : Job} (hk : e.Keyed) (sound : e.hubs.Sound)
    (lo : e.hubs.LeftOf x r P j.hub) (hs : s ≠ 0) (hrun : (e.runChain id).2.1 = [.notify j.hub s])
    (S : List Work) :
    let p := e.runTask (.runChain id)
    Leads (p.1.Reacts x r s (p.2.tail ++ S)) ⟨p.1, p.2 ++ S⟩ := by
  intro p
  obtain ⟨T, hT⟩ : ∃ T, p.2 = .duty (.notify j.hub s) :: T :=
    ⟨(e.runChain id).2.2.toList.map .defer, by simp only [p, runTask, hrun]; rfl⟩
  have hhubs : p.1.hubs = e.hubs := (retires_runChain hk id).hubs
  rw [← hhubs] at lo sound
  rw [hT, tail_cons, cons_append]
  refine (leads_operator lo sound).bind fun m hm => .here ?_
  obtain ⟨hubs, ds, rfl⟩ := hm
  rcases hop : x.op
  · simp only [Reacts, hop]
    refine ⟨hubs, ds, ?_⟩
    simp [call, Operator.callback, hop, Tree.Connective.goesOn, hs]
  · simp only [Reacts, hop]
    refine ⟨hubs.next, (hubs.create (some x.hub)).2, ds, ?_⟩
    simp only [call, Operator.callback, hop, Tree.Connective.goesOn, bne_iff_ne.mpr hs, if_true]
    rfl

/-- Where the routine that a job calls last fails, so does the job. And where that job is the left
side of an operator, then, whatever has happened since it was started, the operator hears of its end
at once: `&&` completes with that status, and nothing else is started; `||` starts the
right side. -/
theorem failing_result_decides (e : Engine) (id : JobId) (j : Job) (hj : e.job? id = some j)
    (hf : j.Fails e) :
    ∃ s, s ≠ 0 ∧ (e.runChain id).2.1 = [.notify j.hub s] ∧
      ∀ (x : Operator) (r : Runner) (cmd : Command) (m : Machine) (ws : List Work),
        StartsLeft x r cmd m → m.engine.nextJob = id → ReflTransGen Goes m.step.step ⟨e, ws⟩ →
        ∀ (ts : List Task) (S : List Work), e.tasks = .runChain id :: ts →
        let p := (e.withTasks ts).runTask (.runChain id)
        Leads (p.1.Reacts x r s (p.2.tail ++ S)) ⟨p.1, p.2 ++ S⟩ := by
  obtain ⟨s, hs, hrun⟩ := hf.runChain hj
  refine ⟨s, hs, hrun e.tasks, ?_⟩
  rintro x r cmd m ws hb rfl hgo ts S - p
  obtain ⟨P, lo, sound, hk⟩ := hb.leftOf hgo hj
  exact leads_failed (e := e.withTasks ts) hk sound lo hs (hrun ts) S

/-- A shell whose routine `tell` returns a value with a status in it. -/
def telling (status : Int) : Engine :=
  initial {} { talking.services with routines := talking.services.routines ++
    [("tell", ⟨fun _ w => (.structured (.record [("status", .int status)]), {}, w), []⟩)] } {} false

/-- `tell && say a` -/
def tellAnd : Tree.Script :=
  ⟨[⟨.logical .and (.command ⟨[], some ⟨[.literal "tell"]⟩, [], []⟩) (say "a"), false⟩]⟩

/-- The machine that runs it, after some steps. -/
def midway (n : ℕ) : Machine := step^[n] ⟨((telling 3).spawn tellAnd).2, [.poll]⟩

lemma reached_midway (n : ℕ) : (midway n).Reached := by
  have hgo : ReflTransGen Goes ⟨telling 3, []⟩ (midway n) := by
    induction n with
    | zero =>
      exact .tail (.single (.outside (.request (.spawn tellAnd)))) (.outside (.request .poll))
    | succ n ih =>
      rw [midway, Function.iterate_succ_apply']
      exact ih.tail (.step _)
  exact ⟨_, _, _, _, hgo⟩

/-- The list of its left side. -/
def leftOfTell : Runner := { hub := 2, steps := [], ctx := {} }

theorem failing_result_decides_tell :
    StartsLeft ⟨1, .and, say "a", {}⟩ leftOfTell { name := "tell" } (midway 6) ∧
      (midway 8).engine.tasks = [.runChain 1] ∧
      let p := ({ (midway 8).engine with tasks := [] } : Engine).runTask (.runChain 1)
      ∃ s, s ≠ 0 ∧ Leads (Heard p.1 leftOfTell s p.2.tail [] (.notify 1 s)) ⟨p.1, p.2⟩ := by
  have hcomes : ∃ w ws, (midway 6).stack = w :: ws ∧
      PipelineCall.Comes (midway 6).engine w leftOfTell [{ name := "tell" }] false false :=
    ⟨.evaluate 0 (.done (.command leftOfTell false (.ok { name := "tell" }))), [.poll], rfl,
      .command rfl rfl⟩
  have hstart : StartsLeft ⟨1, .and, say "a", {}⟩ leftOfTell { name := "tell" } (midway 6) :=
    ⟨reached_midway 6, hcomes, rfl, rfl, _, rfl, ⟨rfl, rfl, rfl, rfl, rfl⟩, rfl, rfl⟩
  have htasks : (midway 8).engine.tasks = [.runChain 1] := rfl
  obtain ⟨j, hj, hf⟩ : ∃ j, (midway 8).engine.job? 1 = some j ∧ j.Fails (midway 8).engine :=
    ⟨_, rfl, _, [], _, rfl, rfl, rfl, _, rfl,
      fun _ _ _ => ⟨_, rfl, 3, rfl, by decide, by decide⟩⟩
  obtain ⟨s, hs, -, hled⟩ := failing_result_decides (midway 8).engine 1 j hj hf
  replace hled := hled _ _ _ _ (midway 8).stack hstart rfl .refl [] [] htasks
  simp only [List.append_nil] at hled
  exact ⟨hstart, htasks, s, hs, hled⟩

/-- A status whose low half is zero is none. -/
theorem wide_status_succeeds :
    ((telling 4294967296).run 100 tellAnd).2.console.events =
      [.pause, .text .out "\x7b\"status\":4294967296\x7d\n",
        .job ⟨1, "tell", .terminated, some 0, true⟩, .resume,
        .pause, .text .out "a", .job ⟨1, "say a", .terminated, some 0, true⟩, .resume] := by
  decide +kernel

end Engine

end JobShell
