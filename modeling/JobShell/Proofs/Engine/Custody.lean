import JobShell.Proofs.Engine.Control
import JobShell.Proofs.Engine.Unmoved

/-!
The engine keeps to its deals.

All that an engine does to its hubs is a sequence of deals: tasks and work in hand go on with hubs
that are theirs, jobs complete the hub they were given, and a subscriber goes on with the hub it
was called for. Whatever all deals preserve holds at every moment of an engine's life.
-/

namespace JobShell

open Hub Desk List Hubs JobShell.Task

/-- The hub that a task goes on with. -/
def Task.hold? (t : Task) : Option Hold := t.hub?.map (⟨·, t.store?, none⟩)

/-- A task that may be in the queue: none flushes a hub, and one that has no hub may be in a store
that no one keeps for it. -/
structure Task.Fits (loose : StoreId → Prop) (t : Task) : Prop where
  flush : ∀ hub, t ≠ .flush hub
  loose : ∀ s, t.hub? = none → t.store? = some s → loose s

lemma Task.fits_of_hub {loose : StoreId → Prop} {t : Task} {hub : HubId} (h : t.hub? = some hub)
    (hf : ∀ hub, t ≠ .flush hub) : t.Fits loose := ⟨hf, by simp [h]⟩

lemma Task.fits_of_job {loose : StoreId → Prop} {t : Task} (h : t.job?.isSome = true) :
    t.Fits loose ∧ t.hold? = none := by
  cases t with
  | runChain | fail => exact ⟨⟨by simp, by simp [store?]⟩, rfl⟩
  | _ => cases h

namespace Engine

/-- The desk of an engine with some duties and hubs in hand. -/
def desk (e : Engine) (handles : List HubId) (ds : List Duty) (H : Multiset Hold) : Desk where
  scene := { hubs := e.hubs, handles, duties := ds }
  held := H + (e.tasks.filterMap Task.hold? : List Hold)
  jobs := e.jobs.map place
  nextJob := e.nextJob
  stores := e.stores.shape

/-- The desk of an engine is one that may come about. -/
structure Under (loose : StoreId → Prop) (R : Rule) (log : Log)
    (H : Multiset Hold) (ds : List Duty) (e : Engine) : Prop where
  queue : ∀ task ∈ e.tasks, task.Fits loose
  books : ∃ handles past, R past log (e.desk handles ds H)

variable {t : Terms} {loose : StoreId → Prop} {R : Rule}
  {log : Log} {H H' : Multiset Hold} {ds : List Duty} {e e' : Engine}
  {hub child x : HubId} {parent : Option HubId} {past os : Notes} {handles : List HubId}
  {ss : Log} {y : Hold} {store : StoreId} {s : Option StoreId}

lemma desk_add (e : Engine) (handles : List HubId) (ds : List Duty) (H H' : Multiset Hold) :
    e.desk handles ds (H' + H) =
      { e.desk handles ds H with held := H' + (e.desk handles ds H).held } := by
  simp only [desk, add_assoc]

lemma Unmoved.desk (hu : Unmoved e e') (handles : List HubId) (ds : List Duty)
    (H : Multiset Hold) : e'.desk handles ds H = e.desk handles ds H := by
  obtain ⟨ts, ht, hts⟩ := hu.tasks
  have hnone : ts.filterMap hold? = [] :=
    filterMap_eq_nil_iff.mpr fun t hm => (fits_of_job (hts t hm) : t.Fits (fun _ => True) ∧ _).2
  simp only [Engine.desk, hu.hubs, hu.nextJob, hu.jobs, hu.stores, ht, filterMap_append, hnone,
    append_nil]

lemma Unmoved.queue (hu : Unmoved e e') (hq : ∀ task ∈ e.tasks, task.Fits loose) :
    ∀ task ∈ e'.tasks, task.Fits loose := by
  obtain ⟨ts, ht, hts⟩ := hu.tasks
  intro task hm
  rcases mem_append.mp (ht ▸ hm) with hm | hm
  · exact hq task hm
  · exact (fits_of_job (hts task hm)).1

lemma Under.unmoved (u : Under loose R log H ds e) (hu : Unmoved e e') :
    Under loose R log H ds e' := by
  obtain ⟨handles, past, hr⟩ := u.books
  exact ⟨hu.queue u.queue, handles, past, by rwa [hu.desk]⟩

lemma Under.imp {R' : Rule} {log' : Log} {loose' : StoreId → Prop}
    (hl : ∀ s, loose s → loose' s)
    (hi : ∀ handles past, R past log (e.desk handles ds H) → R' past log' (e.desk handles ds H))
    (u : Under loose R log H ds e) : Under loose' R' log' H ds e := by
  obtain ⟨handles, past, hr⟩ := u.books
  refine ⟨fun task hm => ?_, handles, past, hi handles past hr⟩
  exact { u.queue task hm with loose := fun s hn hs => hl s ((u.queue task hm).loose s hn hs) }

section

variable (l : Law t R) (u : Under t.loose R log H ds e)
include l u

lemma Under.deals {ds' : List Duty} (hq : ∀ task ∈ e'.tasks, task.Fits t.loose)
    (hd : ∀ handles past, R past log (e.desk handles ds H) → ∃ handles' os,
      Deals t past (e.desk handles ds H) os ss (e'.desk handles' ds' H')) :
    Under t.loose R (log ++ ss) H' ds' e' := by
  obtain ⟨handles, past, hr⟩ := u.books
  obtain ⟨handles', os, hds⟩ := hd handles past hr
  exact ⟨hq, handles', past ++ os, l.deals hr hds⟩

lemma Under.sound : e.hubs.Sound := by
  obtain ⟨handles, past, hr⟩ := u.books
  exact (l.run hr).sane.sound

lemma Under.keyed : e.Keyed := by
  obtain ⟨handles, past, hr⟩ := u.books
  have hids := (l.owned hr).ids
  rwa [desk, map_map] at hids

lemma Under.free (hy : y ∈ H) : e.hubs.Free y.hub := by
  obtain ⟨handles, past, hr⟩ := u.books
  exact (l.owned hr).free_held (Multiset.mem_add.mpr (.inl hy))

end

/-! ### Hubs -/

lemma deal_createHub (e : Engine) (t : Terms) (past : Notes) (handles : List HubId)
    (ds : List Duty) (hp : Admits t.loose H e.hubs.next store parent) :
    Deal t past (e.desk handles ds H)
      [.created handles.length (parent.bind (e.desk handles ds H).scene.openHub?)] []
      ((e.createHub parent).2.desk (handles ++ [e.hubs.next]) ds
        ({⟨e.hubs.next, some store, none⟩} + H)) := by
  rw [desk_add]
  exact .created parent store (hp.mono fun x hx => Multiset.mem_add.mpr (.inl hx))

lemma Under.createHub (l : Law t R) (u : Under t.loose R log H ds e)
    (hp : Admits t.loose H e.hubs.next store parent) :
    Under t.loose R log ({⟨e.hubs.next, some store, none⟩} + H) ds (e.createHub parent).2 ∧
      (e.createHub parent).2.Bare e.hubs.next parent ∧
      ∀ b q, e.Bare b q → b ≠ e.hubs.next ∧ (e.createHub parent).2.Bare b q := by
  refine ⟨?_, bare_createHub (u.sound l) parent fun p he => ?_⟩
  swap
  · obtain ⟨h, hg, hn, -⟩ := u.free l (he ▸ hp : Admits t.loose H e.hubs.next store (some p))
    exact ⟨h, hg, hn⟩
  rw [← append_nil log]
  exact u.deals l u.queue fun handles past _ =>
    ⟨_, _, (deal_createHub e t past handles ds hp).deals⟩

/-- Whoever has a hub in hand has the subscriber of a child go on with it. -/
lemma deal_subscribe {cb : Callback} (hb : e.Bare child (some cb.hub)) (hf : cb.forks = 0)
    (hc : ∀ u, cb.store? = some u → s = some u) :
    ∃ key k e', e.subscribe child cb = .ok e' ∧ e'.hubs.get? child = some k ∧
      k.subscribers = [(key, cb)] ∧ e'.tasks = e.tasks ∧ e'.jobs = e.jobs ∧
      (∀ b q, b ≠ child → e.Bare b q → e'.Bare b q) ∧
      ∀ t past handles ds H, Deal t past (e.desk handles ds ({⟨cb.hub, s, none⟩} + H))
        [.subscribed ((e.desk handles ds H).scene.tenant child) key] [] (e'.desk handles ds H) := by
  obtain ⟨h, hg, hn, hs, hp⟩ := bare_iff.mp hb
  have hst : e.hubs.status? child = none := by simp [Hubs.status?, hg, hn]
  refine ⟨h.nextKey, h.subscribed cb, { e with hubs := e.hubs.update child (·.subscribed cb) }, ?_,
    get?_update_self hg _, by simp [Hub.subscribed, hs], rfl, rfl, ?_, ?_⟩
  · simp [subscribe, Hubs.subscribe, hg, hst]
  · intro b q hne hbare
    rw [bare_iff] at hbare ⊢
    obtain ⟨k, hk, hrest⟩ := hbare
    exact ⟨k, by rw [get?_update, if_neg hne]; exact hk, hrest⟩
  · intro t past handles ds H
    rw [desk_add]
    exact .subscribed hg hn hs hp hf hc rfl

lemma Under.subscribe (l : Law t R) {cb : Callback}
    (u : Under t.loose R log ({⟨cb.hub, s, none⟩} + H) ds e) (hb : e.Bare child (some cb.hub))
    (hf : cb.forks = 0) (hc : ∀ u, cb.store? = some u → s = some u) :
    ∃ e', e.subscribe child cb = .ok e' ∧ Under t.loose R log H ds e' ∧
      ∀ b q, b ≠ child → e.Bare b q → e'.Bare b q := by
  obtain ⟨key, _, e', hsub, -, -, ht, -, hkeep, hd⟩ := deal_subscribe hb hf hc
  refine ⟨e', hsub, ?_, hkeep⟩
  rw [← append_nil log]
  exact u.deals l (ht ▸ u.queue) fun handles past _ => ⟨_, _, (hd t past handles ds H).deals⟩

/-! ### Pipelines -/

variable {c : HubId} {h : Hub Callback} {p : ℕ}

lemma deal_hire (t : Terms) (past : Notes) (handles : List HubId) (ds : List Duty)
    (H : Multiset Hold) (hhubs : e'.hubs = e.hubs) (htasks : e'.tasks = e.tasks)
    (hjobs : e'.jobs.map place = e.jobs.map place ++ [(e.nextJob, hub, store)])
    (hnext : e'.nextJob = e.nextJob + 1) (hstores : e'.stores = e.stores) :
    Deal t past (e.desk handles ds ({⟨hub, some store, none⟩} + H)) [] []
      (e'.desk handles ds H) := by
  have hdesk : e'.desk handles ds H = { e.desk handles ds ({⟨hub, some store, none⟩} + H) with
      held := H + (e.tasks.filterMap hold? : List Hold)
      jobs := e.jobs.map place ++ [(e.nextJob, hub, store)]
      nextJob := e.nextJob + 1 } := by
    simp only [desk, hhubs, htasks, hjobs, hnext, hstores]
  rw [hdesk]
  exact .hired (add_assoc _ _ _)

/-- A job that is made gets a hub of its own below the one in hand. -/
lemma deals_createJob (hg : e.hubs.get? c = some h) (hn : h.status = none) (kind : JobKind)
    (commands : List Command) (store : StoreId) (sink : Sink) (listed : Listing) :
    ∃ e', e.createJob kind commands c store sink listed = (e.nextJob, e') ∧
      e'.hubs = (e.hubs.create (some c)).2 ∧ e'.tasks = e.tasks ∧ e'.nextJob = e.nextJob + 1 ∧
      e'.jobs.map place = e.jobs.map place ++ [(e.nextJob, e.hubs.next, store)] ∧
      ∀ t past handles ds H, Deals t past (e.desk handles ds ({⟨c, some store, none⟩} + H))
        [.created handles.length (some ((e.desk handles ds H).scene.tenant c))] []
        (e'.desk (handles ++ [e.hubs.next]) ds ({⟨c, some store, none⟩} + H)) := by
  have hjobs : (e.jobs ++ [(e.nextJob, e.newJob kind commands (e.createHub (some c)).1 store sink
      listed)]).map place = e.jobs.map place ++ [(e.nextJob, e.hubs.next, store)] := by
    rw [map_append]
    rfl
  refine ⟨_, createJob_eq e kind commands store sink listed, rfl, rfl, rfl, hjobs, ?_⟩
  intro t past handles ds H
  have hopen : (some c).bind (e.desk handles ds ({⟨c, some store, none⟩} + H)).scene.openHub? =
      some ((e.desk handles ds H).scene.tenant c) := Scene.openHub?_eq_some hg hn
  have hparent : Admits t.loose ({⟨c, some store, none⟩} + H) e.hubs.next store (some c) :=
    Multiset.mem_add.mpr (.inl (Multiset.mem_singleton_self _))
  have hmade := deal_createHub e t past handles ds hparent
  rw [hopen] at hmade
  exact hmade.deals.tail (deal_hire t _ _ _ _ rfl rfl hjobs rfl rfl)

/-- The jobs of a pipeline have hubs of their own, one after the other, below the one in hand. -/
lemma deals_createSegments (ctx : Context) (title : String)
    (groups : Groups) (sound : e.hubs.Sound)
    (hg : e.hubs.get? c = some h) (hn : h.status = none) :
    ∃ slots e', e.createSegments c ctx title groups = (range' e.nextJob groups.length, e') ∧
      slots.length = groups.length ∧ e'.hubs.Sound ∧ e'.tasks = e.tasks ∧
      e'.nextJob = e.nextJob + groups.length ∧
      e'.jobs.map place =
        e.jobs.map place ++ (range' e.nextJob groups.length).zip (slots.map (·, ctx.store)) ∧
      e'.hubs.get? c = some { h with
        nextOrder := h.nextOrder + groups.length
        pending := h.pending + groups.length } ∧
      (∀ slot ∈ slots, e'.Bare slot (some c)) ∧ (∀ b q, e.Bare b q → e'.Bare b q) ∧
      (∀ handles ds H, (e'.desk (handles ++ slots) ds H).scene.tenant c =
        (e.desk handles ds H).scene.tenant c) ∧
      ∀ t past handles ds H, Deals t past (e.desk handles ds ({⟨c, some ctx.store, none⟩} + H))
        ((range' handles.length groups.length).map
          (.created · (some ((e.desk handles ds H).scene.tenant c)))) []
        (e'.desk (handles ++ slots) ds ({⟨c, some ctx.store, none⟩} + H)) := by
  induction groups generalizing e h with
  | nil =>
    refine ⟨[], e, rfl, rfl, sound, rfl, rfl, by simp, hg, by simp, fun _ _ hb => hb, by simp, ?_⟩
    intro t past handles ds H
    rw [append_nil]
    exact .refl
  | cons g groups ih =>
    obtain ⟨kind, commands⟩ := g
    have hne := Slab.Sound.ne_next sound hg
    obtain ⟨e1, he1, hhubs, htasks, hnext, hjobs, hdeal⟩ := deals_createJob hg hn kind commands
      ctx.store ctx.route.sink (if groups.isEmpty then ctx.route.listed?.map (·, title) else none)
    have hg1 : e1.hubs.get? c = some h.withChild := by
      rw [hhubs, get?_create_child sound hg hn, if_neg hne, if_pos rfl]
    have sound1 : e1.hubs.Sound := hhubs ▸ Hubs.Sound.create sound (some c)
    obtain ⟨slots, e2, he2, hlen, sound2, htasks2, hnext2, hjobs2, hg2, hbare2, hkeep2, htenant2,
      hdeals⟩ := ih sound1 hg1 hn
    have htenant : ∀ handles ds H, (e1.desk (handles ++ [e.hubs.next]) ds H).scene.tenant c =
        (e.desk handles ds H).scene.tenant c := by
      intro handles ds H
      have hnew : (e1.desk (handles ++ [e.hubs.next]) ds H).scene.handles =
        (e.desk handles ds H).scene.handles ++ [e.hubs.next] := rfl
      exact Scene.tenant_old hnew hne
    obtain ⟨hbare, hkeep⟩ := bare_createHub sound (some c)
      fun p he => ⟨h, Option.some.inj he ▸ hg, hn⟩
    have hsize : range' e.nextJob (groups.length + 1) =
        e.nextJob :: range' e1.nextJob groups.length := by
      rw [range'_succ, hnext]
    refine ⟨e.hubs.next :: slots, e2, ?_, by simp [hlen], sound2, htasks2.trans htasks, ?_, ?_, ?_,
      ?_, ?_, ?_, ?_⟩
    · simp only [createSegments, he1, he2, length_cons, hsize]
    · rw [hnext2, hnext, length_cons, Nat.add_assoc, Nat.add_comm 1]
    · rw [hjobs2, hjobs, length_cons, hsize, map_cons, zip_cons_cons, append_assoc,
        singleton_append]
    · rw [hg2]
      simp only [Hub.withChild, length_cons, Nat.add_assoc, Nat.add_comm 1]
    · intro slot hslot
      rcases mem_cons.mp hslot with rfl | hslot
      · exact hkeep2 _ _ (hbare.congr hhubs)
      · exact hbare2 slot hslot
    · exact fun b q hb => hkeep2 b q ((hkeep b q hb).2.congr hhubs)
    · intro handles ds H
      rw [← htenant handles ds H, ← htenant2, append_assoc, singleton_append]
    · intro t past handles ds H
      have hrest := hdeals t
        (past ++ [.created handles.length (some ((e.desk handles ds H).scene.tenant c))])
        (handles ++ [e.hubs.next]) ds H
      rw [htenant, length_append, length_singleton, append_assoc, singleton_append] at hrest
      rw [length_cons, range'_succ, map_cons]
      exact (hdeal t past handles ds H).trans hrest

lemma deals_oversee_plain (hg : e.hubs.get? c = some h) (hn : h.status = none)
    (hp : 0 < h.pending) (js : List JobId) (launched : Bool) :
    ∃ e', e.oversee c js launched false = (⟨c, launched, []⟩, e') ∧ e'.tasks = e.tasks ∧
      e'.jobs = e.jobs ∧ e'.hubs.get? c = some (h.heed (.sealOff c)) ∧
      ∀ t past handles ds H, Deals t past (e.desk handles ds ({⟨c, s, none⟩} + H))
        [.sealed ((e.desk handles ds H).scene.tenant c)] [] (e'.desk handles ds H) := by
  have hw : ¬ (h.heed (.sealOff c)).IsDue := fun hd => hp.ne' hd.1
  have hperform := perform_waiting rfl hg hn hw
  have hseal : e.hubs.sealOff c = (e.hubs.update c fun _ => h.heed (.sealOff c), []) := by
    obtain ⟨h1, h2⟩ := Prod.mk.inj hperform
    exact Prod.ext h1 (Prod.mk.inj h2).2
  refine ⟨{ e with hubs := e.hubs.update c fun _ => h.heed (.sealOff c) }, ?_, rfl, rfl,
    get?_update_self hg _, ?_⟩
  · simp [oversee, hseal]
  · intro t past handles ds H
    have hsealing : Deal t past (e.desk handles ds ({⟨c, s, none⟩} + H)) [] [] _ :=
      .sealing (add_assoc _ _ _)
    exact hsealing.deals.tail (.heeded ⟨rfl, rfl, hg, hn⟩ hw)

/-- If the status of a pipeline is to be turned around, that is done when its last job is done. -/
lemma deals_oversee_negated {j : Job} {js : List JobId} (hj : js.getLast?.bind e.job? = some j)
    (hb : e.Bare j.hub (some c)) (launched : Bool) :
    ∃ key k e', e.oversee c js launched true = (⟨c, launched, []⟩, e') ∧
      e'.hubs.get? j.hub = some k ∧ k.subscribers = [(key, .negate c)] ∧ e'.tasks = e.tasks ∧
      e'.jobs = e.jobs ∧ (∀ b q, b ≠ j.hub → e.Bare b q → e'.Bare b q) ∧
      ∀ t past handles ds H, Deals t past (e.desk handles ds ({⟨c, s, none⟩} + H))
        [.subscribed ((e.desk handles ds H).scene.tenant j.hub) key] [] (e'.desk handles ds H) := by
  have hb' : e.Bare j.hub (some (Callback.negate c).hub) := hb
  obtain ⟨key, k, e', hsub, hk, hks, htasks, hjobs, hkeep, hdeal⟩ :=
    deal_subscribe hb' rfl nofun
  refine ⟨key, k, e', ?_, hk, hks, htasks, hjobs, hkeep, fun t past handles ds H => ?_⟩
  · simp [oversee, hj, hsub, Except.toOption]
  · exact (hdeal t past handles ds H).deals

/-- The number of jobs that commands are cut into. -/
def segments (e : Engine) (commands : List Command) : ℕ :=
  (e.services.partition (commands.filter (!·.assignmentOnly))).length

/-- What is noted of hubs when the jobs of a pipeline are made. -/
def madeNotes (n k : ℕ) (parent : Option ℕ) : Notes :=
  .created n parent :: (range' (n + 1) k).map (.created · (some n))

lemma deals_launch (l : Law t R) (hr : R past log (e.desk handles ds H))
    (hq : ∀ task ∈ e.tasks, task.Fits t.loose) (commands : List Command) (ctx : Context)
    (hp : Admits t.loose H e.hubs.next ctx.store parent) :
    ∃ launched e' slots h,
      (e.createHub parent).2.launchJobs e.hubs.next (commands.filter (!·.assignmentOnly)) ctx =
        (range' e.nextJob (e.segments commands), launched, e') ∧
      (∀ task ∈ e'.tasks, task.Fits t.loose) ∧ slots.length = e.segments commands ∧
      (∀ slot ∈ slots, e'.Bare slot (some e.hubs.next)) ∧
      e'.jobs.map place = e.jobs.map place ++
        (range' e.nextJob (e.segments commands)).zip (slots.map (·, ctx.store)) ∧
      e'.hubs.get? e.hubs.next = some h ∧ e.segments commands ≤ h.pending ∧
      e'.Bare e.hubs.next parent ∧
      (e'.desk (handles ++ e.hubs.next :: slots) ds H).scene.tenant e.hubs.next = handles.length ∧
      Deals t past (e.desk handles ds H) (madeNotes handles.length (e.segments commands)
          (parent.bind (e.desk handles ds H).scene.openHub?)) []
        (e'.desk (handles ++ e.hubs.next :: slots) ds
          ({⟨e.hubs.next, some ctx.store, none⟩} + H)) := by
  have sound := (l.run hr).sane.sound
  obtain ⟨hbare, -⟩ := bare_createHub sound parent fun p he => by
    subst he
    obtain ⟨h, hg, hn, -⟩ := (l.owned hr).free_held (Multiset.mem_add.mpr (.inl hp))
    exact ⟨h, hg, hn⟩
  obtain ⟨h, hg, hn, hs, hpar⟩ := bare_iff.mp hbare
  obtain ⟨slots, e2, he2, hlen, -, htasks, -, hjobs, hg2, hbare2, -, hsame, hdeals⟩ :=
    deals_createSegments ctx (Command.pipeLine (commands.filter (!·.assignmentOnly)))
      (e.services.partition (commands.filter (!·.assignmentOnly)))
      (Hubs.Sound.create sound parent) hg hn
  have hlast : ((e.createHub parent).2.desk (handles ++ [e.hubs.next]) ds H).scene.handles =
      (e.desk handles ds H).scene.handles ++ [e.hubs.next] := rfl
  have htenant : ((e.createHub parent).2.desk (handles ++ [e.hubs.next]) ds H).scene.tenant
      e.hubs.next = handles.length := Scene.tenant_new hlast
  have hmade := (deal_createHub e t past handles ds hp).deals.trans
    (hdeals t _ (handles ++ [e.hubs.next]) ds H)
  rw [htenant, append_assoc, singleton_append, length_append, length_singleton,
    singleton_append] at hmade
  have hkeyed : e2.Keyed := by
    have hids := (l.owned (l.deals hr hmade)).ids
    rwa [desk, map_map] at hids
  have hconnect := unmoved_connectAll hkeyed (range' e.nextJob (e.segments commands))
  have hu := hconnect.trans (unmoved_startSegments (hconnect.keyed hkeyed) ctx.route false
    (range' e.nextJob (e.segments commands)))
  have hlaunch : (e.createHub parent).2.launchJobs e.hubs.next
      (commands.filter (!·.assignmentOnly)) ctx =
        (range' e.nextJob (e.segments commands),
          (e2.connectAll (range' e.nextJob (e.segments commands))).startSegments ctx.route
            false (range' e.nextJob (e.segments commands))) := by
    unfold launchJobs
    exact he2 ▸ rfl
  refine ⟨_, _, slots, _, hlaunch, hu.queue (htasks ▸ hq), hlen, fun slot hslot => ?_, ?_,
    hu.hubs ▸ hg2, Nat.le_add_left _ _, ?_, ?_, ?_⟩
  · exact (hbare2 slot hslot).congr hu.hubs
  · exact (congrArg Desk.jobs (hu.desk [] [] 0)).trans hjobs
  · rw [bare_iff, hu.hubs]
    exact ⟨_, hg2, hn, hs, hpar⟩
  · rw [hu.desk, ← htenant, ← hsame, append_assoc, singleton_append]
  · rw [hu.desk]
    exact hmade

/-- What is noted of hubs when a pipeline is started. In the end its hub is sealed, or someone waits
for its last job. -/
def openingNotes (n k : ℕ) (parent : Option ℕ) (negated : Bool) (key : ℕ) : Notes :=
  madeNotes n k parent ++ [if negated then .subscribed (n + k) key else .sealed n]

/-- A pipeline is started: nothing is left to be done, and no one has its hub in hand. -/
lemma deals_startPipeline (l : Law t R) (hr : R past log (e.desk handles ds H))
    (hq : ∀ task ∈ e.tasks, task.Fits t.loose) {commands : List Command}
    (hne : commands.filter (!·.assignmentOnly) ≠ []) (ctx : Context)
    (hp : Admits t.loose H e.hubs.next ctx.store parent) (negated : Bool) :
    ∃ launched e' slots key,
      e.startPipeline commands ctx parent negated = (⟨e.hubs.next, launched, []⟩, e') ∧
      e'.Bare e.hubs.next parent ∧ (∀ task ∈ e'.tasks, task.Fits t.loose) ∧
      slots.length = e.segments commands ∧
      e'.jobs.map place = e.jobs.map place ++
        (range' e.nextJob (e.segments commands)).zip (slots.map (·, ctx.store)) ∧
      (negated = true → ∃ slot k, e'.hubs.get? slot = some k ∧
        k.subscribers = [(key, .negate e.hubs.next)] ∧
        (e'.desk (handles ++ e.hubs.next :: slots) ds H).scene.tenant slot =
          handles.length + e.segments commands) ∧
      Deals t past (e.desk handles ds H) (openingNotes handles.length (e.segments commands)
          (parent.bind (e.desk handles ds H).scene.openHub?) negated key) []
        (e'.desk (handles ++ e.hubs.next :: slots) ds H) := by
  have hpos : 0 < e.segments commands :=
    length_pos_of_ne_nil (e.services.partition_ne_nil hne)
  obtain ⟨launched, e1, slots, h, hlaunch, hq1, hlen, hslots, hjobs, hg, hpending, hbare, htenant,
    hdeals⟩ := deals_launch l hr hq commands ctx hp
  have hstart : e.startPipeline commands ctx parent negated = e1.oversee e.hubs.next
      (range' e.nextJob (e.segments commands)) launched negated := by
    rw [startPipeline_eq, if_neg (by simpa using hne)]
    exact hlaunch ▸ rfl
  rw [hstart]
  cases negated with
  | false =>
    obtain ⟨k, hk, hn, hs, hpar⟩ := bare_iff.mp hbare
    cases hg.symm.trans hk
    obtain ⟨e2, he2, htasks, hjobs2, hg2, hdeals2⟩ :=
      deals_oversee_plain hg hn (hpos.trans_le hpending) _ launched
    refine ⟨launched, e2, slots, 0, he2, bare_iff.mpr ⟨_, hg2, hn, hs, hpar⟩, htasks ▸ hq1, hlen,
      hjobs2 ▸ hjobs, by simp, ?_⟩
    have hlast := hdeals2 t (past ++ madeNotes handles.length (e.segments commands)
      (parent.bind (e.desk handles ds H).scene.openHub?)) (handles ++ e.hubs.next :: slots) ds H
    rw [htenant] at hlast
    exact hdeals.trans hlast
  | true =>
    -- the last job is there, with the hub that was created last
    obtain ⟨slots, last, rfl⟩ := eq_nil_or_concat' slots |>.resolve_left (by
      rintro rfl
      simp [← hlen] at hpos)
    rw [length_append, length_singleton] at hlen
    have hids : range' e.nextJob (e.segments commands) =
        range' e.nextJob slots.length ++ [e.nextJob + slots.length] := by
      rw [← hlen, range'_1_concat]
    have hmem : (e.nextJob + slots.length, last, ctx.store) ∈ e1.jobs.map place := by
      rw [hjobs, hids, map_append, zip_append (by simp)]
      simp
    obtain ⟨⟨id, j⟩, hj, hjob⟩ := mem_map.mp hmem
    obtain ⟨rfl, rfl, -⟩ : id = e.nextJob + slots.length ∧ j.hub = last ∧ _ := by
      simpa [place] using hjob
    have hkeyed : e1.Keyed := by
      have hnodup := (l.owned (l.deals hr hdeals)).ids
      rwa [desk, map_map] at hnodup
    have hlast : (range' e.nextJob (e.segments commands)).getLast?.bind e1.job? = some j := by
      rw [hids, getLast?_concat]
      exact hkeyed.mem_iff.mp hj
    have hnumber :
        (e1.desk (handles ++ e.hubs.next :: (slots ++ [j.hub])) ds H).scene.tenant j.hub =
          handles.length + e.segments commands := by
      have hnew : (e1.desk (handles ++ e.hubs.next :: (slots ++ [j.hub])) ds H).scene.handles =
          (e1.desk (handles ++ e.hubs.next :: slots) ds H).scene.handles ++ [j.hub] := by
        simp [desk]
      rw [Scene.tenant_new hnew, ← hlen]
      simp [desk]
    have hself : e.hubs.next ≠ j.hub := by
      intro he
      have hsame := congrArg
        (e1.desk (handles ++ e.hubs.next :: (slots ++ [j.hub])) ds H).scene.tenant he
      rw [htenant, hnumber] at hsame
      omega
    obtain ⟨key, k, e2, he2, hk, hks, htasks, hjobs2, hkeep, hdeals2⟩ :=
      deals_oversee_negated hlast (hslots j.hub (by simp)) launched
    refine ⟨launched, e2, slots ++ [j.hub], key, he2, hkeep _ _ hself hbare, htasks ▸ hq1,
      by simpa using hlen, hjobs2 ▸ hjobs, fun _ => ⟨j.hub, k, hk, hks, hnumber⟩, ?_⟩
    have hsub := hdeals2 t (past ++ madeNotes handles.length (e.segments commands)
      (parent.bind (e.desk handles ds H).scene.openHub?))
      (handles ++ e.hubs.next :: (slots ++ [j.hub])) ds H
    rw [hnumber] at hsub
    exact hdeals.trans hsub

/-! ### Tasks and duties -/

lemma Under.defer {task : Task} (u : Under loose R log ((task.hold?.toList : List Hold) + H) ds e)
    (ht : task.Fits loose) : Under loose R log H ds (e.defer task) := by
  obtain ⟨handles, past, hr⟩ := u.books
  refine ⟨fun task' hm => ?_, handles, past, ?_⟩
  · rcases mem_append.mp hm with hm | hm
    · exact u.queue task' hm
    · exact mem_singleton.mp hm ▸ ht
  · have hdesk : (e.defer task).desk handles ds H =
        e.desk handles ds ((task.hold?.toList : List Hold) + H) := by
      have hone : (e.tasks ++ [task]).filterMap hold? =
          e.tasks.filterMap hold? ++ task.hold?.toList := by
        rw [filterMap_append]
        rcases ht : task.hold? with _ | hub <;> simp [ht]
      simp only [desk, Engine.defer, hone, ← Multiset.coe_add]
      congr 1
      ac_rfl
    rwa [hdesk]

lemma Under.pop {task : Task} {ts : List Task} (u : Under loose R log H ds e)
    (ht : e.tasks = task :: ts) :
    Under loose R log ((task.hold?.toList : List Hold) + H) ds (e.withTasks ts) := by
  obtain ⟨handles, past, hr⟩ := u.books
  refine ⟨fun task' hm => u.queue task' (ht ▸ mem_cons_of_mem task hm), handles, past, ?_⟩
  have hdesk : (e.withTasks ts).desk handles ds
      ((task.hold?.toList : List Hold) + H) = e.desk handles ds H := by
    have hone : e.tasks.filterMap hold? = task.hold?.toList ++ ts.filterMap hold? := by
      rw [ht, filterMap_cons]
      rcases task.hold? with _ | hub <;> rfl
    simp only [desk, hone, ← Multiset.coe_add]
    congr 1
    ac_rfl
  rwa [hdesk]

lemma Under.push (l : Law t R) (u : Under t.loose R log ({y} + H) ds e) {ds' : List Duty}
    (hd : ∀ past (d : Desk), d.held = {y} + (H + (e.tasks.filterMap hold? : List Hold)) →
      d.scene.duties = ds → Deal t past d [] [] { d with
        scene := { d.scene with duties := ds' }
        held := H' + (e.tasks.filterMap hold? : List Hold) }) :
    Under t.loose R log H' ds' e := by
  rw [← append_nil log]
  exact u.deals l u.queue fun handles past _ =>
    ⟨handles, [], (hd past _ (add_assoc _ _ _) rfl).deals⟩

lemma Under.turned {quits : Bool} (l : Turns quits R) {s' : Option StoreId} {a a' : Option HubId}
    (u : Under loose R log ({⟨hub, s, a⟩} + H) ds e) (hs : ∀ v, s' = some v → s = some v)
    (hq : ∀ X, a = some X → quits = true ∨ ∀ h, e.hubs.get? X = some h → h.status.isSome = true) :
    Under loose R log ({⟨hub, s', a'⟩} + H) ds e := by
  obtain ⟨handles, past, hr⟩ := u.books
  refine ⟨u.queue, handles, past, ?_⟩
  rw [desk_add]
  exact l (d := e.desk handles ds ({⟨hub, s, a⟩} + H)) hr (add_assoc _ _ _) hs hq

lemma Under.notify (l : Law t R) (u : Under t.loose R log ({⟨hub, s, none⟩} + H) ds e)
    (status : Int) : Under t.loose R log H (.notify hub status :: ds) e :=
  u.push l fun _ _ hh hd => hd ▸ .notified hh status

lemma Under.sealOff (l : Law t R) (u : Under t.loose R log ({⟨hub, s, none⟩} + H) ds e) :
    Under t.loose R log H (.sealOff hub :: ds) e := u.push l fun _ _ hh hd => hd ▸ .sealing hh

/-- Whoever has a hub in hand starts a list below it in a store that is forked for it. -/
lemma Under.enclose (l : Law t R) (ht : t.reshapes = true)
    (u : Under t.loose R log ({⟨hub, some store, none⟩} + H) ds e) (steps : List Step)
    (ctx : Context) (hctx : ctx.store = e.stores.shape.next) :
    ∃ e', (({ e with stores := (e.stores.fork store).2 } : Engine).spawnRunner steps ctx
          (some hub)).2.subscribe e.hubs.next (.subshell hub ctx.store) = .ok e' ∧
      Under t.loose R log H ds e' ∧ e'.stores.shape = e.stores.shape.insert (some store) ∧
      ∀ b q, e.Bare b q → e'.Bare b q := by
  have hy : (⟨hub, some store, none⟩ : Hold) ∈ ({⟨hub, some store, none⟩} + H : Multiset Hold) := by
    simp
  obtain ⟨h, hg, hn, -⟩ := u.free l hy
  obtain ⟨hbare, hkeep⟩ := bare_createHub (u.sound l) (some hub)
    fun p he => ⟨h, Option.some.inj he ▸ hg, hn⟩
  obtain ⟨k, hk, hkn, hks, -⟩ := bare_iff.mp hbare
  have hget : (e.hubs.create (some hub)).2.get? e.hubs.next = some k := hk
  have hst : Hubs.status? (e.hubs.create (some hub)).2 e.hubs.next = none := by
    simp [Hubs.status?, hget, hkn]
  let e1 : Engine := { e with
    stores := (e.stores.fork store).2
    hubs :=
      (e.hubs.create (some hub)).2.update e.hubs.next (·.subscribed (.subshell hub ctx.store)) }
  have u1 : Under t.loose R log ({⟨e.hubs.next, some ctx.store, none⟩} + H) ds e1 := by
    obtain ⟨handles, past, hr⟩ := u.books
    have hr' := l.deal hr (.enclosed (add_assoc _ _ _) ht)
    rw [append_nil] at hr'
    refine ⟨u.queue, handles ++ [e.hubs.next], past ++ ?_, ?_⟩
    swap
    · rw [desk_add e1]
      simp only [desk, e1, (e.stores.shape_fork store).2, hctx]
      exact hr'
  refine ⟨e1.defer (.advance { hub := e.hubs.next, steps, ctx }), ?_, ?_,
    (e.stores.shape_fork store).2, fun b q hb => ?_⟩
  · simp only [Engine.subscribe, Hubs.subscribe, Engine.spawnRunner, Engine.createHub, Engine.defer,
      hget, hst]
    rfl
  · exact .defer u1 (fits_of_hub rfl (by simp))
  · obtain ⟨hne, hb'⟩ := hkeep b q hb
    rw [bare_iff] at hb' ⊢
    obtain ⟨j, hj, hrest⟩ := hb'
    exact ⟨j, (get?_update ..).trans ((if_neg hne).trans hj), hrest⟩

lemma Under.retain (l : Law t R) (u : Under t.loose R log H ds e) (slot : HubId) :
    Under t.loose R log H ds { e with hubs := e.hubs.retain slot } := by
  rw [← append_nil log]
  exact u.deals l u.queue fun handles past _ =>
    ⟨handles, [], (Deal.retained slot : Deal t past (e.desk handles ds H) [] [] _).deals⟩

lemma Under.startPipeline (l : Law t R) (u : Under t.loose R log H ds e) (commands : List Command)
    (ctx : Context) (hp : Admits t.loose H e.hubs.next ctx.store parent) (negated : Bool) :
    ∃ launched e', e.startPipeline commands ctx parent negated = (⟨e.hubs.next, launched, []⟩, e') ∧
      Under t.loose R log H ds e' ∧ e'.Bare e.hubs.next parent := by
  by_cases hne : commands.filter (!·.assignmentOnly) = []
  · obtain ⟨u1, hbare, -⟩ := u.createHub l hp
    refine ⟨true, (e.createHub parent).2.defer (.complete e.hubs.next 0), ?_, ?_, hbare⟩
    · rw [startPipeline_eq, if_pos (by simp [hne])]
      rfl
    · exact .defer (u1.turned l.turns nofun nofun) (fits_of_hub rfl (by simp))
  · obtain ⟨handles, past, hr⟩ := u.books
    obtain ⟨launched, e', slots, key, hstart, hbare, hq, -, -, -, hdeals⟩ :=
      deals_startPipeline l hr u.queue hne ctx hp negated
    have hr' := l.deals hr hdeals
    rw [append_nil] at hr'
    exact ⟨launched, e', hstart, ⟨hq, _, _, hr'⟩, hbare⟩

lemma Under.release (l : Lull R) (u : Under loose R log H ds e) (slot : HubId) :
    Under loose R log H ds { e with hubs := e.hubs.release slot } := by
  obtain ⟨handles, past, hr⟩ := u.books
  exact ⟨u.queue, handles, past, l.settle (l.released slot hr) rfl⟩

lemma Under.settled (l : Lull R) {slot : HubId} (u : Under loose R log H (.settle slot :: ds) e) :
    Under loose R log H ds { e with hubs := e.hubs.settle slot } := by
  obtain ⟨handles, past, hr⟩ := u.books
  exact ⟨u.queue, handles, past, l.settle hr rfl⟩

lemma Under.perform (l : Law t R) {d : Duty} (u : Under t.loose R log H (d :: ds) e)
    (hdrop : ∀ slot, d = .settle slot → t.drops = true) (hcall : d.calling? = none) :
    Under t.loose R log H ((e.hubs.perform d).2.2 ++ ds) { e with hubs := (e.hubs.perform d).1 } ∧
      (e.hubs.perform d).2.1 = none := by
  have htarget : ∀ slot, d.target? = some slot →
      Under t.loose R log H ((e.hubs.perform d).2.2 ++ ds) { e with hubs := (e.hubs.perform d).1 } ∧
        (e.hubs.perform d).2.1 = none := by
    intro slot ht
    refine ⟨?_, ?_⟩
    · rw [← append_nil log]
      refine u.deals l u.queue fun handles past _ => ⟨handles, ?_⟩
      obtain ⟨⟨os, hdeal⟩, -⟩ :=
        Deal.target (d := e.desk handles (d :: ds) H) t past rfl ht
      exact ⟨os, hdeal.deals⟩
    · exact (Deal.target (d := e.desk [] (d :: ds) H) t [] rfl ht).2
  cases d with
  | notify slot status => exact htarget slot rfl
  | sealOff slot => exact htarget slot rfl
  | report slot => exact htarget slot rfl
  | settle slot =>
    exact ⟨u.settled (l.lull (hdrop slot rfl)), rfl⟩
  | deliver slot status keys =>
    cases keys with
    | cons key keys => cases hcall
    | nil =>
      refine ⟨?_, rfl⟩
      rw [← append_nil log]
      refine u.deals l u.queue fun handles past _ => ⟨handles, [], ?_⟩
      have hidle : Deal t past (e.desk handles (.deliver slot status [] :: ds) H) [] [] _ :=
        .idle rfl (.inl rfl)
      exact hidle.deals

/-- A subscriber that is called goes on with its hub; a status that is only to be passed on is
passed on at once. -/
lemma Under.deliver (l : Law t R) {slot : HubId} {status : Int} {key : ℕ} {keys : List ℕ}
    (u : Under t.loose R log H (.deliver slot status (key :: keys) :: ds) e) :
    ∃ hubs cb, e.hubs.perform (.deliver slot status (key :: keys)) =
        (hubs, some (cb, status), [.deliver slot status []]) ∧
      (cb.passes status = none → Under t.loose R log ({⟨cb.hub, cb.store?, none⟩} + H)
        (.deliver slot status [] :: ds) { e with hubs }) ∧
      ∀ status' stores, cb.passes status = some status' → (t.reshapes = true ∨ cb.forks = 0) →
        stores.shape = cb.freed e.stores.shape → Under t.loose R log H
          (.notify cb.hub status' :: .deliver slot status [] :: ds) { e with hubs, stores } := by
  obtain ⟨handles, past, hr⟩ := u.books
  obtain ⟨h, cb, hg, -, hs, rfl⟩ := (l.owned hr).calls mem_cons_self
  have hget : e.hubs.get? slot = some h := hg
  refine ⟨e.hubs.update slot (·.without key),
    cb, by simp [Hubs.perform, hget, hs], fun hcb => ?_, fun status' stores hcb hf hst => ?_⟩
  · have hcalled := l.deal hr (.called rfl hg hs hcb)
    rw [append_nil] at hcalled
    refine ⟨u.queue, handles,
      past ++ [.called ((e.desk handles [] 0).scene.tenant slot) key status], ?_⟩
    rw [desk_add]
    exact hcalled
  · have hcalled := l.deal hr (.passed rfl hg hs hcb hf)
    rw [append_nil] at hcalled
    refine ⟨u.queue, handles,
      past ++ [.called ((e.desk handles [] 0).scene.tenant slot) key status], ?_⟩
    simp only [desk, hst]
    exact hcalled

/-! ### Jobs that end -/

/-- What work shows of the jobs that settle: the hub of one is about to be notified of
its status. -/
inductive Announces (e : Engine) : Log → List Work → Prop where
  | nothing (ws : List Work) : Announces e [] ws
  | settled {id : JobId} (hj : (e.job? id).isSome = true) (hub : HubId) (status : Int)
      (ws : List Work) : Announces e [(id, status)] (.duty (.notify hub status) :: ws)

/-- What is left of a job that may have settled. -/
def Finishes (loose : StoreId → Prop) (R : Rule) (log : Log)
    (H : Multiset Hold) (ds : List Duty) (e : Engine) (p : Engine × List Duty) : Prop :=
  ∃ ss, Under loose R (log ++ ss) H (p.2 ++ ds) p.1 ∧ e.Announces ss (p.2.map .duty)

lemma isSome_job? {id : JobId} : (e.job? id).isSome = true ↔ id ∈ e.jobs.map Prod.fst := by
  rw [job?, ← Option.ne_none_iff_isSome, Ne, lookup_eq_none_iff, mem_map]
  simp only [bne_iff_ne, not_forall, not_not, exists_prop, @eq_comm _ id]

lemma Announces.congr {ws : List Work} (h : e'.Announces ss ws)
    (hj : e'.jobs.map Prod.fst = e.jobs.map Prod.fst) : e.Announces ss ws := by
  cases h with
  | nothing => exact .nothing _
  | settled hid hub status ws =>
    refine .settled ?_ hub status ws
    rw [isSome_job?] at hid ⊢
    rwa [hj] at hid

lemma Under.retires (l : Law t R) (u : Under t.loose R log H ds e) {p : Engine × List Duty}
    (h : Retires e p) : Finishes t.loose R log H ds e p := by
  cases h with
  | none hu => exact ⟨[], by rw [append_nil]; exact u.unmoved hu, .nothing _⟩
  | @one e1 id j hu hj status =>
    have u1 := u.unmoved hu
    have hthere : e1.Announces [(id, status)] [.duty (.notify j.hub status)] :=
      .settled (by simp [hj]) j.hub status []
    refine ⟨[(id, status)], ?_, hthere.congr hu.ids⟩
    refine u1.deals l u1.queue fun handles past _ => ⟨handles, [], ?_⟩
    have hmem : (id, j.hub, j.store) ∈ (e1.desk handles ds H).jobs :=
      mem_map.mpr ⟨(id, j), (u1.keyed l).mem_iff.mpr hj, rfl⟩
    have herase : (e1.eraseJob id).jobs.map place = (e1.jobs.map place).filter (·.1 != id) := by
      rw [filter_map]
      rfl
    have hsettled : Deal t past (e1.desk handles ds H) [] _ _ := .settled hmem status
    convert hsettled.deals using 1
    simp only [desk, herase]
    rfl

end Engine

end JobShell
