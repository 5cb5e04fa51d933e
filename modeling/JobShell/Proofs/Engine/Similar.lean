import JobShell.Engine.Control
import JobShell.Proofs.Engine.Jobs
import JobShell.Proofs.Engine.Registry
import JobShell.Proofs.Native
import JobShell.Proofs.Slab
import Mathlib.Algebra.Order.Group.Multiset
import Mathlib.Data.List.Forall2

/-!
Changes that matter to no one.

Much of what an engine does leaves all hubs, tasks and jobs in their places: it prints something,
sets a variable, tells a job more than it was told, or lets it have the terminal.
-/

namespace JobShell

open List Option Slab

namespace Slab

variable {α : Type}

/-- The slots that are taken. -/
def keys (s : Slab α) : Multiset ℕ := s.entries.map Prod.fst

lemma keys_modify (s : Slab α) (i : ℕ) (f : α → α) : (s.modify i f).keys = s.keys := by
  rcases hi : s.get? i with _ | a
  · rw [entries_modify_of_none hi]
  · obtain ⟨R, hR⟩ := exists_rest hi
    simp [keys, entries_modify hR, hR]

lemma keys_insert {s : Slab α} (hs : s.Sound) (a : α) : (s.insert a).keys = {s.next} + s.keys := by
  simp [keys, entries_insert hs]

lemma keys_erase {s : Slab α} {i : ℕ} {K : Multiset ℕ} (hk : s.keys = {i} + K) :
    (s.erase i).keys = K := by
  have hmem : i ∈ s.entries.map Prod.fst := by
    rw [← keys, hk]
    simp
  obtain ⟨⟨j, a⟩, hj, rfl⟩ := Multiset.mem_map.mp hmem
  obtain ⟨R, hR⟩ := exists_rest (mem_entries.mp hj)
  rw [keys, hR, Multiset.map_add, Multiset.map_singleton] at hk
  rw [keys, entries_erase hR]
  exact add_left_cancel hk

lemma nodup_keys (s : Slab α) : s.keys.Nodup := by
  refine (Multiset.nodup_map_iff_inj_on (nodup_entries s)).mpr ?_
  rintro ⟨i, a⟩ hi ⟨j, b⟩ hj (rfl : i = j)
  have hab : some a = some b := (mem_entries.mp hi).symm.trans (mem_entries.mp hj)
  cases hab
  rfl

lemma mem_keys {s : Slab α} {i : ℕ} : i ∈ s.keys ↔ (s.get? i).isSome = true := by
  simp [keys, isSome_iff_exists]

lemma keys_map {β : Type} (f : α → β) (s : Slab α) : (s.map f).keys = s.keys := by
  refine (Multiset.Nodup.ext (nodup_keys _) (nodup_keys _)).mpr fun i => ?_
  simp [mem_keys, get?_map]

end Slab

/-- Which stores there are, and what each was forked from. -/
def Stores.shape (s : Stores) : Slab (Option StoreId) := s.slab.map (·.parent)

lemma Stores.sound_shape {s : Stores} : s.shape.Sound ↔ s.slab.Sound := sound_map _

lemma Stores.keys_shape (s : Stores) : s.shape.keys = s.slab.keys := keys_map _ _

lemma Stores.shape_fork (s : Stores) (parent : StoreId) :
    (s.fork parent).1 = s.shape.next ∧ (s.fork parent).2.shape = s.shape.insert (some parent) :=
  ⟨(next_map _ _).symm, map_insert _ _ _⟩

lemma Stores.shape_release (s : Stores) (store : StoreId) :
    (s.release store).shape = if store = root then s.shape else s.shape.erase store := by
  unfold release
  split
  · rfl
  · exact map_erase _ _ _

lemma Stores.shape_set (s : Stores) (store : StoreId) (name : String) (v : Value) :
    (s.set store name v).shape = s.shape := by
  unfold set shape
  rw [map_modify]
  exact fun _ => rfl

lemma Stores.shape_foldl {α : Type} {f : Stores → α → Stores} (hf : ∀ s a, (f s a).shape = s.shape)
    (s : Stores) (as : List α) : (as.foldl f s).shape = s.shape := by
  induction as generalizing s with
  | nil => rfl
  | cons a as ih => exact (ih (f s a)).trans (hf s a)

lemma Stores.shape_escapeAll (s : Stores) (store : StoreId) (bs : List (String × Value)) :
    (s.escapeAll store bs).shape = s.shape := by
  unfold escapeAll
  exact shape_foldl (fun s b => s.shape_set (s.escapeTarget store) b.1 b.2) s bs

/-! ### Similar engines -/

/-- A body that is as far as another one. -/
inductive Job.Body.Similar : Job.Body → Job.Body → Prop where
  | chain {c c' : Chain} (started : c'.started = c.started) (queued : c'.queued = c.queued)
    (launches : c'.launches ⊆ c.launches) : Similar (.chain c) (.chain c')
  | native {n n' : Native} (processes : n'.processes = n.processes)
    (openStreams : n'.openStreams = n.openStreams) (failed : n'.failed = n.failed) :
    Similar (.native n) (.native n')

/-- A job that differs in what it was told, but neither in its place nor in how far it is. -/
structure Job.Similar (j j' : Job) : Prop where
  hub : j'.hub = j.hub
  store : j'.store = j.store
  tableId : j'.tableId = j.tableId
  forward : ∀ next, j'.stdout = .forward next ↔ j.stdout = .forward next
  body : j.body.Similar j'.body

lemma Job.Body.Similar.refl : ∀ b : Job.Body, b.Similar b
  | .chain _ => .chain rfl rfl (Subset.refl _)
  | .native _ => .native rfl rfl rfl

lemma Job.Body.Similar.trans {b b' b'' : Job.Body} (h1 : b.Similar b') (h2 : b'.Similar b'') :
    b.Similar b'' := by
  cases h1 with
  | chain hs hq hl =>
    cases h2 with
    | chain hs' hq' hl' => exact .chain (hs'.trans hs) (hq'.trans hq) (Subset.trans hl' hl)
  | native hp ho hf =>
    cases h2 with
    | native hp' ho' hf' => exact .native (hp'.trans hp) (ho'.trans ho) (hf'.trans hf)

/-- What was for the console goes to the terminal while a job is in the foreground. -/
def Sink.raised (s : Sink) : Sink := if s = .console then .terminal else s

def Job.raised (j : Job) : Job :=
  { j with mode := .foreground, stdout := j.stdout.raised, stderr := j.stderr.raised }

namespace Engine

/-- Jobs that are similar one by one. -/
def SimilarJobs : List (JobId × Job) → List (JobId × Job) → Prop :=
  Forall₂ fun p p' => p'.1 = p.1 ∧ p.2.Similar p'.2

/-- An engine that differs in what was printed, in values and in what jobs were told. -/
structure Similar (e e' : Engine) : Prop where
  hubs : e'.hubs = e.hubs
  tasks : e'.tasks = e.tasks
  jobs : SimilarJobs e.jobs e'.jobs
  nextJob : e'.nextJob = e.nextJob
  captures : (e.captures.Sound → e'.captures.Sound) ∧ e'.captures.keys = e.captures.keys
  stores : e'.stores.shape = e.stores.shape
  table : ∀ t ∈ e'.table.entries, ∃ t' ∈ e.table.entries, t'.1 = t.1
  owner : ∀ id, e'.owner = some id → e.owner = some id ∨ id ∈ e.jobs.map Prod.fst
  live : e'.live = e.live
  events : e'.events = e.events
  nextPid : e'.system.nextPid = e.system.nextPid

open JobShell.Engine.Similar

variable {e e' e'' : Engine} {id : JobId} {j j' : Job} {js js' : List (JobId × Job)} {n : ℕ}

lemma similarJobs_refl (js : List (JobId × Job)) : SimilarJobs js js :=
  forall₂_same.mpr fun _ _ => ⟨rfl, rfl, rfl, rfl, fun _ => Iff.rfl, .refl _⟩

lemma SimilarJobs.ids (h : SimilarJobs js js') : js'.map Prod.fst = js.map Prod.fst := by
  induction h with
  | nil => rfl
  | cons hp _ ih => simp [hp.1, ih]

lemma SimilarJobs.trans {js'' : List (JobId × Job)} (h1 : SimilarJobs js js')
    (h2 : SimilarJobs js' js'') : SimilarJobs js js'' := by
  induction h1 generalizing js'' with
  | nil =>
    cases h2
    exact .nil
  | cons hp _ ih =>
    cases h2 with
    | cons hq h2 =>
      refine .cons ⟨hq.1.trans hp.1, hq.2.hub.trans hp.2.hub, hq.2.store.trans hp.2.store,
        hq.2.tableId.trans hp.2.tableId, fun n => (hq.2.forward n).trans (hp.2.forward n),
        hp.2.body.trans hq.2.body⟩ (ih h2)

namespace Similar

lemma refl (e : Engine) : Similar e e :=
  ⟨rfl, rfl, similarJobs_refl _, rfl, ⟨id, rfl⟩, rfl, fun t ht => ⟨t, ht, rfl⟩,
    fun _ h => .inl h, rfl, rfl, rfl⟩

lemma trans (h1 : Similar e e') (h2 : Similar e' e'') : Similar e e'' where
  hubs := h2.hubs.trans h1.hubs
  tasks := h2.tasks.trans h1.tasks
  jobs := h1.jobs.trans h2.jobs
  nextJob := h2.nextJob.trans h1.nextJob
  captures := ⟨fun h => h2.captures.1 (h1.captures.1 h), h2.captures.2.trans h1.captures.2⟩
  stores := h2.stores.trans h1.stores
  table := by
    intro t ht
    obtain ⟨t', ht', he⟩ := h2.table t ht
    obtain ⟨t'', ht'', he'⟩ := h1.table t' ht'
    exact ⟨t'', ht'', he'.trans he⟩
  owner := by
    intro id hid
    rcases h2.owner id hid with h | h
    · exact h1.owner id h
    · exact .inr (h1.jobs.ids ▸ h)
  live := h2.live.trans h1.live
  events := h2.events.trans h1.events
  nextPid := h2.nextPid.trans h1.nextPid

end Similar

lemma similar_write (e : Engine) (channel : Channel) (data : Bytes) :
    Similar e (e.write channel data) :=
  { refl e with }

lemma similar_notice (e : Engine) (info : JobInfo) : Similar e (e.notice info) :=
  { refl e with }

lemma similar_report (e : Engine) (f : Fault) : Similar e (e.report f) := similar_write _ _ _

/-! ### Jobs -/

/-- Each job has a number of its own. -/
def Keyed (e : Engine) : Prop := (e.jobs.map Prod.fst).Nodup

lemma Keyed.similar (hk : e.Keyed) (hs : Similar e e') : e'.Keyed := by
  rw [Keyed, hs.jobs.ids]
  exact hk

/-- A job among the others, and what it comes to when it is changed or erased. -/
lemma Keyed.split (hk : e.Keyed) (h : e.job? id = some j) :
    ∃ l1 l2, e.jobs = l1 ++ (id, j) :: l2 ∧ id ∉ (l1 ++ l2).map Prod.fst ∧
      (∀ k, (e.setJob id k).jobs = l1 ++ (id, k) :: l2) ∧ (e.eraseJob id).jobs = l1 ++ l2 := by
  obtain ⟨l1, l2, hl, hid, hset, herase⟩ := exists_split hk ((lookup_eq_some_iff_mem hk).mp h)
  exact ⟨l1, l2, hl, hid, fun k => hset fun _ => k, herase⟩

lemma Keyed.mem_iff (hk : e.Keyed) : (id, j) ∈ e.jobs ↔ e.job? id = some j :=
  (lookup_eq_some_iff_mem hk).symm

lemma similar_setJob (hk : e.Keyed) (h : e.job? id = some j) (hs : j.Similar j') :
    Similar e (e.setJob id j') := by
  obtain ⟨l1, l2, hl, -, hset, -⟩ := hk.split h
  have hjobs : SimilarJobs e.jobs (e.setJob id j').jobs := by
    rw [hset, hl]
    exact rel_append (similarJobs_refl l1) (.cons ⟨rfl, hs⟩ (similarJobs_refl l2))
  exact { refl e with jobs := hjobs }

lemma similar_system (e : Engine) {system : System}
    (hs : system.nextPid = e.system.nextPid) : Similar e { e with system } :=
  { refl e with nextPid := hs }

lemma similar_captures (e : Engine) (key : ℕ) (f : Buffers → Buffers) :
    Similar e { e with captures := e.captures.modify key f } :=
  { refl e with
    captures := ⟨fun h => Sound.modify h key f, keys_modify _ key f⟩ }

/-! ### What passes between jobs -/

/-- A way to compare engines that does not heed what jobs are told. -/
structure Tolerant (ρ : Engine → Engine → Prop) : Prop where
  refl (e : Engine) : ρ e e
  trans {e e' e'' : Engine} : ρ e e' → ρ e' e'' → ρ e e''
  system (e : Engine) {s : System} : System.Still e.system s → ρ e { e with system := s }
  body {e : Engine} {id : JobId} {j : Job} {b : Job.Body} :
    e.job? id = some j → j.body.Similar b → ρ e (e.setJob id { j with body := b })

/-- One that does not heed output, either. -/
structure Audible (ρ : Engine → Engine → Prop) : Prop extends Tolerant ρ where
  write (e : Engine) (channel : Channel) (data : Bytes) : ρ e (e.write channel data)
  captures (e : Engine) (key : ℕ) (f : Buffers → Buffers) :
    ρ e { e with captures := e.captures.modify key f }

/-- One that does not heed which jobs get ready. -/
structure Rousing (ρ : Engine → Engine → Prop) : Prop extends Tolerant ρ where
  rouse {e : Engine} {id : JobId} {j : Job} {c c' : Chain} :
    e.job? id = some j → j.body = .chain c → c'.launches = c.launches →
      ρ e (e.setJob id { j with body := .chain c' })
  ready (e : Engine) (id : JobId) : ρ e (e.defer (.runChain id))

section Tolerance

variable {ρ : Engine → Engine → Prop}

lemma Tolerant.feed (t : Tolerant ρ) (e : Engine) (next : JobId) (data : Bytes) :
    ρ e (e.feed next data) := by
  rcases hj : e.job? next with _ | j
  · simp only [Engine.feed, hj]
    exact t.refl e
  · rcases hb : j.body with c | n <;> simp only [Engine.feed, hj, hb]
    · refine t.body hj ?_
      rw [hb]
      refine .chain ?_ ?_ ?_ <;> simp only [Chain.write] <;> split <;>
        first | rfl | exact Subset.refl _
    · exact t.system e (Native.still_write n e.system data)

lemma Tolerant.breakPipe (t : Tolerant ρ) (e : Engine) (id : JobId) : ρ e (e.breakPipe id) := by
  rcases hj : e.job? id with _ | j
  · simp only [Engine.breakPipe, native?, hj]
    exact t.refl e
  · rcases hb : j.body with c | n
    · simp only [Engine.breakPipe, native?_eq_none hj hb]
      exact t.refl e
    · simp only [Engine.breakPipe, native?_eq_some hj hb]
      refine t.trans (t.system e (Native.still_brokenPipe n e.system)) (t.body (j := j) hj ?_)
      rw [hb]
      exact .native rfl rfl rfl

lemma Tolerant.closeFeed (t : Tolerant ρ) (h : e.job? id = some j) {n : Native}
    (hb : j.body = .native n) : ρ e (e.endInput id) := by
  simp only [endInput, h, hb]
  refine t.trans (t.system e (Native.still_closeFeed n e.system)) (t.body (j := j) h ?_)
  rw [hb]
  exact .native rfl rfl rfl

lemma Rousing.endInput (t : Rousing ρ) (e : Engine) (next : JobId) : ρ e (e.endInput next) := by
  rcases hj : e.job? next with _ | j
  · simp only [Engine.endInput, hj]
    exact t.refl e
  rcases hb : j.body with c | n
  · have hclose : c.close.2.launches = c.launches := by
      rw [Chain.close, Chain.ready]
      split <;> rfl
    simp only [Engine.endInput, hj, hb]
    split
    · exact t.trans (t.rouse hj hb hclose) (t.ready _ next)
    · exact t.rouse hj hb hclose
  · exact t.closeFeed hj hb

lemma Rousing.passOn (t : Rousing ρ) (e : Engine) (j : Job) :
    ρ (if j.live then { e with live := e.live - 1 } else e) (e.passOn j) := by
  have hbreak : ∀ e : Engine, ρ e (j.feeder.elim e e.breakPipe) := by
    intro e
    rcases j.feeder with _ | f
    · exact t.refl e
    · exact t.breakPipe e f
  simp only [Engine.passOn]
  generalize (if j.live then { e with live := e.live - 1 } else e) = e1
  refine t.trans ?_ (hbreak _)
  split
  · exact t.endInput _ _
  · exact t.refl _

lemma Rousing.passOn_of_live (t : Rousing ρ) {e : Engine}
    (hlive : ρ e { e with live := e.live - 1 }) (j : Job) : ρ e (e.passOn j) := by
  have hpass := t.passOn e j
  split at hpass
  · exact t.trans hlive hpass
  · exact hpass

lemma Audible.pour (t : Audible ρ) (e : Engine) (sink : Sink) (s : Stream) (data : Bytes) :
    ρ e (e.pour sink s data) := by
  cases sink <;> cases s <;>
    first | exact t.write e _ _ | exact t.feed e _ _ | exact t.captures e _ _

lemma Audible.send (t : Audible ρ) (e : Engine) (id : JobId) (s : Stream) (data : Bytes) :
    ρ e (e.send id s data) := by
  rcases hj : e.job? id with _ | j
  · simp only [Engine.send, hj]
    exact t.refl e
  · rw [send_eq_pour hj]
    exact t.pour e _ s data

lemma Audible.sendAny (t : Audible ρ) (e : Engine) (id : JobId) (s : Stream) (data : Bytes) :
    ρ e (e.sendAny id s data) := by
  unfold Engine.sendAny
  split
  · exact t.refl e
  · exact t.send e id s data

lemma Audible.complain (t : Audible ρ) (e : Engine) (id : JobId) (d : Option String) :
    ρ e (e.complain id d) := by
  cases d with
  | none => exact t.refl e
  | some d => exact t.send e id .stderr _

/-- A finalizer changes the world and the variables, and then writes. -/
lemma finalize_of (refl : ∀ e, ρ e e) (trans : ∀ {e e' e''}, ρ e e' → ρ e' e'' → ρ e e'')
    (hwrite : ∀ (e : Engine) channel (data : Bytes), ρ e (e.write channel data))
    {p : Chain.Pending} {store : StoreId} (hran : ρ e { e with
      system := { e.system with world := (p.run e.system.world).2 }
      stores := e.stores.escapeAll store (p.run e.system.world).1.escapes }) :
    ρ e (e.finalize p store) := by
  have hany : ∀ (e : Engine) channel (data : Bytes),
      ρ e (if data.isEmpty then e else e.write channel data) := by
    intro e channel data
    split
    · exact refl e
    · exact hwrite e channel data
  exact trans (trans hran (hany _ .log _)) (hany _ .error _)

end Tolerance

lemma audible_similar : Audible fun e e' => e.Keyed → Similar e e' where
  refl e _ := .refl e
  trans h1 h2 hk := (h1 hk).trans (h2 (hk.similar (h1 hk)))
  system e _ hs _ := similar_system e hs.nextPid
  body h hb hk := similar_setJob hk h ⟨rfl, rfl, rfl, fun _ => Iff.rfl, hb⟩
  write e channel data _ := similar_write e channel data
  captures e key f _ := similar_captures e key f

lemma rousing_console : Rousing fun e e' => e'.console = e.console where
  refl _ := rfl
  trans h1 h2 := h2.trans h1
  system _ _ _ := rfl
  body _ _ := rfl
  rouse _ _ _ := rfl
  ready _ _ := rfl

lemma console_passOn (e : Engine) (j : Job) : (e.passOn j).console = e.console :=
  rousing_console.passOn_of_live rfl j

/-! ### Values and the job table -/

lemma similar_stores (e : Engine) {stores : Stores} (hs : stores.shape = e.stores.shape) :
    Similar e { e with stores } :=
  { refl e with stores := hs }

lemma similar_escapeAll (e : Engine) (store : StoreId) (bs : List (String × Value)) :
    Similar e { e with stores := e.stores.escapeAll store bs } :=
  similar_stores e (Stores.shape_escapeAll e.stores store bs)

lemma similar_table (e : Engine) {table : JobTable}
    (ht : ∀ t ∈ table.entries, ∃ t' ∈ e.table.entries, t'.1 = t.1) : Similar e { e with table } :=
  { refl e with table := ht }

lemma entries_update (t : JobTable) (n : ℕ) (state : JobState) (status : Option Int) :
    ∀ u ∈ (t.update n state status).2.entries, ∃ u' ∈ t.entries, u'.1 = u.1 := by
  cases hs : state.isFinal with
  | true =>
    rw [JobTable.entries_update_final hs]
    exact fun u hu => ⟨u, mem_of_mem_filter hu, rfl⟩
  | false =>
    rw [JobTable.entries_update_open hs]
    exact forall_mem_assign (fun u hu => ⟨u, hu, rfl⟩) fun x hx => ⟨_, hx, rfl⟩

lemma mem_ids (h : e.job? id = some j) : id ∈ e.jobs.map Prod.fst := by
  obtain ⟨l1, l2, hl, -⟩ := lookup_eq_some_iff.mp h
  simp [hl]

lemma similar_takeTerminal (h : e.job? id = some j) (n : Option ℕ) :
    Similar e (e.takeTerminal id n) := by
  have hown : ∀ i, some id = some i → e.owner = some i ∨ i ∈ e.jobs.map Prod.fst := by
    intro i hi
    cases hi
    exact .inr (mem_ids h)
  have htable : ∀ t ∈ (e.takeTerminal id n).table.entries, ∃ t' ∈ e.table.entries, t'.1 = t.1 := by
    intro t ht
    refine ⟨t, ?_, rfl⟩
    simp only [takeTerminal] at ht
    split at ht <;> exact ht
  exact { refl e with table := htable, owner := hown }

lemma jobNumbered_eq_ok {p : JobId × Job} (h : e.jobNumbered n = .ok p) :
    e.table.jobOf? n = some p.1 ∧ e.job? p.1 = some p.2 := by
  unfold jobNumbered at h
  split at h
  · cases h
  · rename_i hn
    split at h
    · cases h
    · rename_i hj
      cases h
      exact ⟨hn, hj⟩

lemma signal_eq_ok {b : Job.Body} {sig : Signal} :
    (match b with
      | .native p => (pure { e with system := p.signal e.system sig } : Except Fault Engine)
      | .chain _ => pure e) = .ok e' →
      ∃ system, System.Still e.system system ∧ e' = { e with system } := by
  intro h
  cases b <;> cases h
  · exact ⟨_, .refl _, rfl⟩
  · exact ⟨_, Native.still_signal _ _ _, rfl⟩

/-- Continuing a job changes its mode and where its output goes, and gives it the terminal. -/
lemma foreground_eq_ok (h : e.foreground n = .ok e') :
    ∃ i j system, e.table.jobOf? n = some i ∧ e.job? i = some j ∧ System.Still e.system system ∧
      e' = { (e.setJob i j.raised).takeTerminal i (some n) with system } := by
  unfold foreground at h
  rcases hj : e.jobNumbered n with f | ⟨i, j⟩ <;> rw [hj] at h
  · cases h
  · obtain ⟨hn, hjob⟩ := jobNumbered_eq_ok hj
    obtain ⟨system, hs, rfl⟩ := signal_eq_ok h
    exact ⟨i, j, system, hn, hjob, hs, rfl⟩

lemma background_eq_ok (h : e.background n = .ok e') :
    ∃ i j system, e.job? i = some j ∧ System.Still e.system system ∧
      e' = { e.setJob i { j with mode := .background } with system } := by
  unfold background at h
  rcases hj : e.jobNumbered n with f | ⟨i, j⟩ <;> rw [hj] at h
  · cases h
  · obtain ⟨system, hs, rfl⟩ := signal_eq_ok h
    exact ⟨i, j, system, (jobNumbered_eq_ok hj).2, hs, rfl⟩

lemma similar_foreground (hk : e.Keyed) (h : e.foreground n = .ok e') : Similar e e' := by
  obtain ⟨i, j, system, -, hjob, hs, rfl⟩ := foreground_eq_ok h
  have hraised : ∀ (s : Sink) next, s.raised = .forward next ↔ s = .forward next := by
    intro s next
    cases s <;> simp [Sink.raised]
  have hset : Similar e (e.setJob i j.raised) :=
    similar_setJob hk hjob ⟨rfl, rfl, rfl, hraised j.stdout, .refl _⟩
  have htake := similar_takeTerminal (job?_setJob_self e i hjob j.raised) (some n)
  exact (hset.trans htake).trans (similar_system _ hs.nextPid)

lemma similar_background (hk : e.Keyed) (h : e.background n = .ok e') : Similar e e' := by
  obtain ⟨i, j, system, hjob, hs, rfl⟩ := background_eq_ok h
  have hset : Similar e (e.setJob i { j with mode := .background }) :=
    similar_setJob hk hjob ⟨rfl, rfl, rfl, fun _ => Iff.rfl, .refl _⟩
  exact hset.trans (similar_system _ hs.nextPid)

lemma resume_eq_ok {args : List String} {go : ℕ → Except Fault Engine}
    (h : e.resume args go = .ok e') : ∃ n, go n = .ok e' := by
  unfold resume at h
  rcases hr : e.table.resolve (args.head?.getD "%+") with f | n <;> rw [hr] at h
  · cases h
  · exact ⟨n, h⟩

/-- The commands that work on the job table write something, or continue a job. -/
lemma jobControl?_eq_some {c : Command} {route : Route} {status : Int}
    (h : e.jobControl? c route = some (status, e')) :
    (∃ channel data, e' = e.write channel data) ∨ (∃ n, e.foreground n = .ok e') ∨
      ∃ n, e.background n = .ok e' := by
  unfold jobControl? at h
  obtain ⟨r, hr, he⟩ := map_eq_some_iff.mp h
  rcases r with f | e1 <;> cases he
  · exact .inl ⟨_, _, rfl⟩
  split at hr
  · have hlist := some.inj hr
    unfold listJobs at hlist
    split at hlist <;> cases hlist
    exact .inl ⟨_, _, rfl⟩
  · exact .inr (.inl (resume_eq_ok (some.inj hr)))
  · exact .inr (.inr (resume_eq_ok (some.inj hr)))
  · cases hr

lemma similar_jobControl? (hk : e.Keyed) {c : Command} {route : Route} {status : Int}
    (h : e.jobControl? c route = some (status, e')) : Similar e e' := by
  rcases jobControl?_eq_some h with ⟨channel, data, rfl⟩ | ⟨n, hn⟩ | ⟨n, hn⟩
  · exact similar_write e channel data
  · exact similar_foreground hk hn
  · exact similar_background hk hn

lemma similar_finalize (e : Engine) (p : Chain.Pending) (store : StoreId) :
    Similar e (e.finalize p store) := by
  have hworld := similar_system e (show ({ e.system with world := (p.run e.system.world).2 } :
    System).nextPid = e.system.nextPid from rfl)
  exact finalize_of .refl .trans similar_write (hworld.trans (similar_escapeAll _ store _))

lemma similar_record (e : Engine) (r : Runner) (status : Int) : Similar e (e.record r status).2 :=
  similar_stores e (Stores.shape_set _ _ _ _)

end Engine

end JobShell
