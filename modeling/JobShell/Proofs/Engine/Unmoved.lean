import JobShell.Proofs.Engine.JobEnd
import JobShell.Proofs.Engine.Moves

/-!
Jobs that stay where they are.

Most of what happens to jobs moves none of them: each has the hub and the store that it had. When a
job has come to its end it is gone, and its hub is to be notified of its status.
-/

namespace JobShell

open List

namespace Engine

/-- Where a job is. -/
def place (p : JobId × Job) : JobId × HubId × StoreId := (p.1, p.2.hub, p.2.store)

/-- No one has moved, and at most some jobs have been put into the queue. -/
structure Unmoved (e e' : Engine) : Prop where
  hubs : e'.hubs = e.hubs
  tasks : ∃ ts, e'.tasks = e.tasks ++ ts ∧ ∀ t ∈ ts, t.job?.isSome = true
  jobs : e'.jobs.map place = e.jobs.map place
  nextJob : e'.nextJob = e.nextJob
  stores : e'.stores.shape = e.stores.shape

open Unmoved

variable {e e' e'' : Engine} {id : JobId} {j j' : Job}

namespace Unmoved

lemma refl (e : Engine) : Unmoved e e := ⟨rfl, ⟨[], by simp, by simp⟩, rfl, rfl, rfl⟩

lemma trans (h1 : Unmoved e e') (h2 : Unmoved e' e'') : Unmoved e e'' := by
  obtain ⟨ts, ht, hts⟩ := h1.tasks
  obtain ⟨us, hu, hus⟩ := h2.tasks
  refine ⟨h2.hubs.trans h1.hubs, ⟨ts ++ us, by rw [hu, ht, append_assoc], fun t hm => ?_⟩,
    h2.jobs.trans h1.jobs, h2.nextJob.trans h1.nextJob, h2.stores.trans h1.stores⟩
  rcases mem_append.mp hm with hm | hm
  · exact hts t hm
  · exact hus t hm

lemma ids (h : Unmoved e e') : e'.jobs.map Prod.fst = e.jobs.map Prod.fst := by
  have hmap := congrArg (List.map Prod.fst) h.jobs
  rwa [map_map, map_map] at hmap

lemma keyed (h : Unmoved e e') (hk : e.Keyed) : e'.Keyed := by
  rw [Keyed, h.ids]
  exact hk

lemma job (h : Unmoved e e') (hk : e.Keyed) (hj : e.job? id = some j) :
    ∃ j', e'.job? id = some j' ∧ j'.hub = j.hub := by
  have hmem := mem_map_of_mem (f := place) (hk.mem_iff.mpr hj)
  rw [← h.jobs] at hmem
  obtain ⟨⟨i, j'⟩, hq, hp⟩ := mem_map.mp hmem
  obtain ⟨rfl, hp⟩ := Prod.mk.inj hp
  exact ⟨j', (h.keyed hk).mem_iff.mp hq, (Prod.mk.inj hp).1⟩

end Unmoved

lemma SimilarJobs.place {js js' : List (JobId × Job)} (h : SimilarJobs js js') :
    js'.map place = js.map place := by
  induction h with
  | nil => rfl
  | cons hp _ ih => simp [Engine.place, hp.1, hp.2.hub, hp.2.store, ih]

lemma Similar.unmoved (hs : Similar e e') : Unmoved e e' :=
  ⟨hs.hubs, ⟨[], by rw [hs.tasks, append_nil], by simp⟩, hs.jobs.place, hs.nextJob, hs.stores⟩

lemma unmoved_setJob (hk : e.Keyed) (hj : e.job? id = some j) (j' : Job) (hhub : j'.hub = j.hub)
    (hst : j'.store = j.store) : Unmoved e (e.setJob id j') := by
  obtain ⟨l1, l2, hl, -, hset, -⟩ := hk.split hj
  refine { refl e with jobs := ?_ }
  rw [hset, hl]
  simp [place, hhub, hst]

lemma unmoved_defer (e : Engine) {t : Task} (ht : t.job?.isSome = true) : Unmoved e (e.defer t) :=
  { refl e with tasks := ⟨[t], rfl, by simpa using ht⟩ }

/-! ### Jobs that stay -/

lemma rousing_unmoved : Rousing fun e e' => e.Keyed → Unmoved e e' where
  refl e _ := .refl e
  trans h1 h2 hk := (h1 hk).trans (h2 ((h1 hk).keyed hk))
  system e _ hs hk := (audible_similar.system e hs hk).unmoved
  body h hb hk := (audible_similar.body h hb hk).unmoved
  rouse h _ _ hk := unmoved_setJob hk h _ rfl rfl
  ready _ _ _ := unmoved_defer _ rfl

lemma unmoved_interrupt (e : Engine) : Unmoved e e.interrupt := by
  unfold interrupt
  split
  · exact { refl e with }
  · exact .refl e

section

variable (hk : e.Keyed)
include hk

lemma unmoved_amend (id : JobId) {f : Job → Job} (hhub : ∀ j, (f j).hub = j.hub)
    (hst : ∀ j, (f j).store = j.store) : Unmoved e (e.amend id f) := by
  rcases hj : e.job? id with _ | j <;> simp only [amend, hj, Option.elim]
  · exact .refl e
  · exact unmoved_setJob hk hj _ (hhub j) (hst j)

lemma unmoved_connectAll (js : List JobId) : Unmoved e (e.connectAll js) := by
  refine connectAll_induction (P := Unmoved e) (fun e1 a b h => ?_) (.refl e) js
  rw [connect_eq]
  have h1 : Unmoved e (e1.amend a ({ · with stdout := .forward b })) :=
    h.trans (unmoved_amend (h.keyed hk) a (fun _ => rfl) fun _ => rfl)
  exact h1.trans (unmoved_amend (h1.keyed hk) b (fun _ => rfl) fun _ => rfl)

lemma unmoved_startJob (id : JobId) (mode : Mode) (taps : Taps) :
    Unmoved e (e.startJob id mode taps).2 := by
  rcases hj : e.job? id with _ | j
  · simp only [startJob, hj]
    exact .refl e
  have hready := (similar_readied hj mode).unmoved
  have hjob := job?_readied hj mode
  rcases hb : j.body with ch | n
  · rw [startJob_chain hj hb]
    have hset := hready.trans (unmoved_setJob (hready.keyed hk) hjob
      (begun j mode (.chain (ch.start taps).2) j.live) rfl rfl)
    dsimp only
    split
    · exact hset.trans (unmoved_defer _ rfl)
    · exact hset
  · rcases hstart : n.start id taps e.system with ⟨d, n', s⟩
    rw [startJob_native hj hb mode hstart]
    let e1 : Engine := { e.readied id j mode with system := s }
    have h1 : Unmoved e e1 := hready.trans { refl _ with }
    have hset := h1.trans (unmoved_setJob (e := e1) (h1.keyed hk) hjob
      (begun j mode (.native n') !n'.processes.isEmpty) rfl rfl)
    have hsend : ∀ e2, Unmoved e e2 →
        Unmoved e (e2.complain id d) :=
      fun e2 h2 => h2.trans (audible_similar.complain e2 id d (h2.keyed hk)).unmoved
    dsimp only
    split
    · exact hsend _ (hset.trans { refl _ with })
    · exact hsend _ (hset.trans (unmoved_defer _ rfl))

lemma unmoved_startSegments (route : Route) (fed : Bool) (js : List JobId) :
    Unmoved e (e.startSegments route fed js).2 := by
  induction js generalizing fed with
  | nil => exact .refl e
  | cons id js ih =>
    cases js with
    | nil => exact unmoved_startJob hk id _ _
    | cons next js => exact (ih true).trans (unmoved_startJob ((ih true).keyed hk) id _ _)

lemma unmoved_passOn (j : Job) : Unmoved e (e.passOn j) :=
  rousing_unmoved.passOn_of_live (fun _ => { refl e with }) j hk

lemma unmoved_stopped (id : JobId) : Unmoved e (e.stopped id) := by
  rcases hj : e.job? id with _ | j
  · simp only [stopped, hj]
    exact .refl e
  by_cases hs : j.state = .running
  · have hhalt : ∀ (e : Engine) (table : JobTable) (release : Prop) [Decidable release],
        Unmoved e (e.halt j table release) := by
      intro e table release _
      rcases hn : j.tableId with _ | n <;> by_cases hr : release <;> simp only [halt, hn, hr] <;>
        exact { refl e with }
    rw [stopped_eq hj hs]
    exact (unmoved_setJob hk hj { j with state := .stopped } rfl rfl).trans (hhalt _ _ _)
  · simp only [stopped, hj, ne_eq, hs, not_false_eq_true, if_true]
    exact .refl e

lemma unmoved_continued (id : JobId) : Unmoved e (e.continued id) := by
  rcases hj : e.job? id with _ | j
  · simp only [continued, hj]
    exact .refl e
  by_cases hs : j.state = .stopped
  · simp only [continued, hj, hs, ne_eq, not_true_eq_false, if_false]
    have hset := unmoved_setJob hk hj { j with state := .running } rfl rfl
    split
    · exact hset
    · exact hset.trans { refl _ with }
  · simp only [continued, hj, ne_eq, hs, not_false_eq_true, if_true]
    exact .refl e

/-! ### Jobs that end -/

/-- At most one job has ended: it is gone, and its hub is to be notified of its status. -/
inductive Retires (e : Engine) : Engine × List Duty → Prop where
  | none {e' : Engine} (hu : Unmoved e e') : Retires e (e', [])
  | one {e' : Engine} {id : JobId} {j : Job} (hu : Unmoved e e') (hj : e'.job? id = some j)
      (status : Int) : Retires e (e'.eraseJob id, [.notify j.hub status])

omit hk in
lemma Unmoved.retires (hu : Unmoved e e') {p : Engine × List Duty} (h : Retires e' p) :
    Retires e p := by
  cases h with
  | none hu' => exact .none (hu.trans hu')
  | one hu' hj status => exact .one (hu.trans hu') hj status

lemma retires_settle (id : JobId) {state : JobState} (hs : state.isFinal = true)
    (status : Int) : Retires e (e.settle id state status) := by
  rcases hj : e.job? id with _ | j
  · simp only [settle, hj]
    exact .none (.refl e)
  have hu := (unmoved_passOn hk j).trans (similar_announce (e.passOn j) id j hs status).1.unmoved
  obtain ⟨j', hj', hhub⟩ := hu.job hk hj
  rw [settle_eq hj, ← hhub]
  exact .one hu hj' status

lemma retires_settleNative (id : JobId) : Retires e (e.settleNative id) := by
  unfold settleNative
  split
  · split
    · exact retires_settle hk id (by split <;> rfl) _
    · exact .none (.refl e)
  · exact .none (.refl e)

lemma retires_dispatch (ev : Event) : Retires e (e.dispatch ev) := by
  have hset : ∀ {id : JobId} {j : Job} {n : Native}, e.native? id = some (j, n) → ∀ m : Native,
      Unmoved e (e.setJob id { j with body := .native m }) := by
    intro id j n hn m
    exact unmoved_setJob hk (native?_eq_some_iff.mp hn).1 _ rfl rfl
  cases ev with
  | output id stream data => exact .none (audible_similar.send e id stream data hk).unmoved
  | closed id stream =>
    simp only [dispatch]
    split
    · rename_i j n hn
      have hu := hset hn n.streamClosed
      exact hu.retires (retires_settleNative (hu.keyed hk) id)
    · exact .none (.refl e)
  | process id index change =>
    simp only [dispatch]
    split
    · rename_i j n hn
      have hu := hset hn (n.processChanged index change)
      have hk' := hu.keyed hk
      cases change with
      | exited code => exact hu.retires (retires_settleNative hk' id)
      | stopped =>
        dsimp only
        split
        · exact .none (hu.trans (unmoved_stopped hk' id))
        · exact .none hu
      | continued => exact .none (hu.trans (unmoved_continued hk' id))
    · exact .none (.refl e)
  | interrupt => exact .none (unmoved_interrupt e)

lemma retires_runChain (id : JobId) : Retires e ((e.runChain id).1, (e.runChain id).2.1) := by
  rcases hc : e.chain? id with _ | ⟨j, c⟩
  · simp only [runChain, hc]
    exact .none (.refl e)
  obtain ⟨hj, hb⟩ := chain?_eq_some_iff.mp hc
  rcases hout : Chain.runAll e.config.failedStatus c.launches c.input e.system.world with ⟨out, w⟩
  have hu := (similar_ran hk hj hb out w).unmoved
  rw [runChain_eq hj hb hout]
  exact hu.retires (retires_settle (hu.keyed hk) id rfl out.status)

end

end Engine

end JobShell
