import JobShell.Proofs.Engine.Registry
import JobShell.Proofs.Engine.Solvency
import JobShell.Proofs.Hub.Outcome
import JobShell.Proofs.Hub.Waiting

/-!
Who completes which hub.

A hub that is open and not sealed has one who will complete or seal it: a task or a piece of work in
hand, a job, a duty, or the subscriber of another hub. Whoever has a hub in hand may give it away in
a few ways, and nobody else touches it. So no one ever completes a hub in the place of another, not
even when slots are used again.
-/

namespace JobShell

open Hub Accounts List Hubs Multiset Duty Slab Mark

/-- The hub that a duty completes or seals. -/
def Duty.driven? : Duty → Option HubId
  | .notify hub _ | .sealOff hub => some hub
  | _ => none

/-- The hubs that duties complete or seal. -/
def Duty.drives (ds : List Duty) : Multiset HubId := (ds.filterMap driven? : List HubId)

/-- The hub whose subscriber is called by a duty. -/
def Duty.calling? : Duty → Option HubId
  | .deliver hub _ (_ :: _) => some hub
  | _ => none

/-- The store that a callback carries. -/
def Callback.store? : Callback → Option StoreId
  | .runner r => some r.ctx.store
  | .logical _ _ _ ctx | .branch _ _ _ ctx => some ctx.store
  | .loop l => some l.ctx.store
  | .subshell _ _ | .negate _ => none

/-- The status that a callback passes on at once, without going on itself. -/
def Callback.passes (status : Int) : Callback → Option Int
  | .negate _ => some (if status = 0 then 1 else 0)
  | .subshell _ _ => some status
  | _ => none

/-- The stores there are, each with the one it was forked from. -/
abbrev Shape := Slab (Option StoreId)

/-- The stores that are left when a callback has been called. -/
def Callback.freed (σ : Shape) : Callback → Shape
  | .subshell _ store => if store = Stores.root then σ else σ.erase store
  | _ => σ

/-- Those who are to be called when a hub completes. -/
def Hub.callbacks (h : Hub Callback) : Multiset Callback :=
  (h.subscribers.map Prod.snd : List Callback)

namespace Hubs

/-- Those who are to be called when hubs complete. -/
def callbacks (hubs : Hubs Callback) : Multiset Callback := hubs.entries.bind fun p => p.2.callbacks

/-- The hubs that subscribers go on with. -/
def bound (hubs : Hubs Callback) : Multiset HubId := hubs.callbacks.map Callback.hub

/-- There is such a hub, and it may be given a status or be sealed. -/
def Free (hubs : Hubs Callback) (slot : HubId) : Prop :=
  ∃ h, hubs.get? slot = some h ∧ h.status = none ∧ h.isSealed = false

variable {hubs : Hubs Callback} {slot x : HubId} {h h' : Hub Callback}
  {R : Multiset (HubId × Hub Callback)} {cb : Callback}

lemma callbacks_of_entries (he : hubs.entries = {(slot, h)} + R) :
    hubs.callbacks = h.callbacks + R.bind fun p => p.2.callbacks := by
  rw [callbacks, he, add_bind, singleton_bind]

/-- When a hub changes, so do those who are to be called. -/
lemma callbacks_update (hg : hubs.get? slot = some h) (h' : Hub Callback) :
    h.callbacks + (hubs.update slot fun _ => h').callbacks = h'.callbacks + hubs.callbacks := by
  obtain ⟨R, he⟩ := exists_rest hg
  rw [callbacks_of_entries he, callbacks_of_entries (entries_update he fun _ => h')]
  exact add_left_comm _ _ _

lemma callbacks_update_eq (hg : hubs.get? slot = some h) (hb : h'.subscribers = h.subscribers) :
    (hubs.update slot fun _ => h').callbacks = hubs.callbacks := by
  have := callbacks_update hg h'
  rwa [Hub.callbacks, Hub.callbacks, hb, add_right_inj] at this

lemma callbacks_retained (hubs : Hubs Callback) (slot : HubId) (f : ℕ → ℕ) :
    (hubs.update slot fun h => { h with retained := f h.retained }).callbacks = hubs.callbacks := by
  rcases hg : hubs.get? slot with _ | h
  · exact congrArg callbacks (entries_modify_of_none hg _)
  · rw [update_eq hg]
    exact callbacks_update_eq hg rfl

lemma callbacks_subscribed (hg : hubs.get? slot = some h) (hs : h.subscribers = []) :
    (hubs.update slot fun _ => h.subscribed cb).callbacks = {cb} + hubs.callbacks := by
  simpa [Hub.callbacks, Hub.subscribed, hs] using callbacks_update hg (h.subscribed cb)

lemma callbacks_called {key : ℕ} (hg : hubs.get? slot = some h) (hs : h.subscribers = [(key, cb)]) :
    {cb} + (hubs.update slot fun _ => h.without key).callbacks = hubs.callbacks := by
  simpa [Hub.callbacks, Hub.without, hs] using callbacks_update hg (h.without key)

lemma callbacks_erase (hg : hubs.get? slot = some h) (hs : h.subscribers = []) :
    callbacks (hubs.erase slot) = hubs.callbacks := by
  obtain ⟨R, he⟩ := exists_rest hg
  have hzero : h.callbacks = 0 := by simp [Hub.callbacks, hs]
  rw [callbacks_of_entries he, hzero, zero_add, callbacks, entries_erase he]

lemma mem_callbacks : cb ∈ hubs.callbacks ↔
    ∃ slot h, hubs.get? slot = some h ∧ ∃ key, (key, cb) ∈ h.subscribers := by
  simp [callbacks, Hub.callbacks, mem_bind]

lemma mem_bound : x ∈ hubs.bound ↔
    ∃ slot h, hubs.get? slot = some h ∧ ∃ s ∈ h.subscribers, s.2.hub = x := by
  simp only [bound, Multiset.mem_map, mem_callbacks, Prod.exists]
  grind

lemma callbacks_create (hs : hubs.Sound) {parent : Option HubId}
    (hp : ∀ p, parent = some p → hubs.Free p) :
    (hubs.create parent).2.callbacks = hubs.callbacks := by
  have hnew : ∀ (k : Hub Callback) (R : Multiset (HubId × Hub Callback)), k.subscribers = [] →
      (({(hubs.next, k)} + R).bind fun p => p.2.callbacks) = R.bind fun p => p.2.callbacks := by
    intro k R hk
    simp [Hub.callbacks, hk]
  rcases parent with _ | p
  · rw [callbacks, (create_none hs).2, hnew _ _ rfl, callbacks]
  · obtain ⟨h, hg, hn, -⟩ := hp p rfl
    obtain ⟨R, he⟩ := exists_rest hg
    rw [callbacks, (create_some hs he hn).2, hnew _ _ rfl, callbacks_of_entries he, add_bind,
      singleton_bind]
    rfl

end Hubs

/-- A hub in hand, with the store to go on in, and the hub that is waited for before that. -/
structure Hold where
  hub : HubId
  store : Option StoreId
  awaits : Option HubId

/-- Jobs, each with the hub that it completes and the store that it is in. -/
abbrev Posts := List (JobId × HubId × StoreId)

/-- Jobs that have settled, with their statuses. -/
abbrev Log := List (JobId × Int)

/-- What an engine has to do with its hubs, at a moment. -/
structure Desk where
  scene : Scene Callback
  /-- The hubs that tasks and work in hand go on with. -/
  held : Multiset Hold
  jobs : Posts
  nextJob : JobId
  /-- The stores there are, each with the one that it was forked from. -/
  stores : Shape

namespace Desk

open Hub.Note Hub.Scene

/-- What may be dealt: whether hubs are dropped, whether someone gives up waiting, whether stores
are forked and thrown away, and in which stores there are hubs that no one waits for. -/
structure Terms where
  drops : Bool
  quits : Bool
  reshapes : Bool
  loose : StoreId → Prop

/-- Anything may be dealt, but hubs may be kept. -/
abbrev Terms.lax (drops : Bool) : Terms := ⟨drops, true, true, fun _ => True⟩

/-- What is started below a hub is in the store of whoever has that hub in hand. What has no parent
is waited for by someone in its store, as a rule. -/
def Admits (loose : StoreId → Prop) (H : Multiset Hold) (next : HubId) (store : StoreId) :
    Option HubId → Prop
  | some p => ⟨p, some store, none⟩ ∈ H
  | none => loose store ∨ ∃ x ∈ H, x.store = some store ∧ x.awaits = some next

lemma Admits.mono {loose : StoreId → Prop} {H H' : Multiset Hold} {next : HubId} {store : StoreId}
    {parent : Option HubId} (h : Admits loose H next store parent) (hH : ∀ x ∈ H, x ∈ H') :
    Admits loose H' next store parent := by
  cases parent with
  | some p => exact hH _ h
  | none => exact h.imp_right fun ⟨x, hx, hw⟩ => ⟨x, hH x hx, hw⟩

/-- All that is done to hubs. Whoever has a hub in hand may create others below it, in the same
store or in one that is forked for it; gives it to a job, to a subscriber of a child, or to a duty;
or gets it back when the child has completed. A hub without a parent is waited for, as a rule, by
someone who has another one in hand. Notes are taken of what happens to hubs and of the jobs that
settle. -/
inductive Deal (t : Terms) (past : Notes) (d : Desk) :
    Notes → Log → Desk → Prop where
  | created (parent : Option HubId) (store : StoreId)
      (hp : Admits t.loose d.held d.scene.hubs.next store parent) :
      Deal t past d [.created d.scene.handles.length (parent.bind d.scene.openHub?)] []
        { d with
          scene := d.scene.withHub parent
          held := {⟨d.scene.hubs.next, some store, none⟩} + d.held }
  | enclosed {hub : HubId} {store : StoreId} {H : Multiset Hold}
      (hh : d.held = {⟨hub, some store, none⟩} + H) (hr : t.reshapes = true) :
      Deal t past d [.created d.scene.handles.length (d.scene.openHub? hub),
          .subscribed d.scene.handles.length 0] []
        { d with
          scene := { d.scene with
            hubs := (d.scene.hubs.create (some hub)).2.update d.scene.hubs.next
              (·.subscribed (.subshell hub d.stores.next))
            handles := d.scene.handles ++ [d.scene.hubs.next] }
          held := {⟨d.scene.hubs.next, some d.stores.next, none⟩} + H
          stores := d.stores.insert (some store) }
  | hired {hub : HubId} {store : StoreId} {H : Multiset Hold}
      (hh : d.held = {⟨hub, some store, none⟩} + H) :
      Deal t past d [] []
        { d with
          held := H
          jobs := d.jobs ++ [(d.nextJob, hub, store)]
          nextJob := d.nextJob + 1 }
  | subscribed {slot : HubId} {h : Hub Callback} {cb : Callback} {store : Option StoreId}
      {H : Multiset Hold} (hg : d.scene.hubs.get? slot = some h) (hn : h.status = none)
      (hs : h.subscribers = []) (hp : h.parent = some cb.hub) (hf : cb.forks = 0)
      (hc : ∀ s, cb.store? = some s → store = some s) (hh : d.held = {⟨cb.hub, store, none⟩} + H) :
      Deal t past d [.subscribed (d.scene.tenant slot) h.nextKey] []
        { d with
          scene := { d.scene with hubs := d.scene.hubs.update slot (·.subscribed cb) }
          held := H }
  | turned {hub : HubId} {store store' : Option StoreId} {a a' : Option HubId} {H : Multiset Hold}
      (hh : d.held = {⟨hub, store, a⟩} + H) (hs : ∀ s, store' = some s → store = some s)
      (hq : ∀ X, a = some X → t.quits = true ∨
        ∀ h, d.scene.hubs.get? X = some h → h.status.isSome = true) :
      Deal t past d [] [] { d with held := {⟨hub, store', a'⟩} + H }
  | retained (slot : HubId) :
      Deal t past d [] []
        { d with scene := { d.scene with hubs := d.scene.hubs.retain slot } }
  | released (slot : HubId) :
      Deal t past d [] []
        { d with scene := d.scene.withUpdate slot Hub.released (.settle slot :: d.scene.duties) }
  | notified {hub : HubId} {store : Option StoreId} {H : Multiset Hold}
      (hh : d.held = {⟨hub, store, none⟩} + H) (status : Int) :
      Deal t past d [] []
        { d with
          scene := { d.scene with duties := .notify hub status :: d.scene.duties }
          held := H }
  | sealing {hub : HubId} {store : Option StoreId} {H : Multiset Hold}
      (hh : d.held = {⟨hub, store, none⟩} + H) :
      Deal t past d [] []
        { d with
          scene := { d.scene with duties := .sealOff hub :: d.scene.duties }
          held := H }
  | settled {id : JobId} {hub : HubId} {store : StoreId} (hj : (id, hub, store) ∈ d.jobs)
      (status : Int) :
      Deal t past d [] [(id, status)]
        { d with
          scene := { d.scene with duties := .notify hub status :: d.scene.duties }
          jobs := d.jobs.filter (·.1 != id) }
  | idle {u : Duty} {ds : List Duty} (hd : d.scene.duties = u :: ds) (hi : d.scene.Idle u) :
      Deal t past d [] [] { d with scene := { d.scene with duties := ds } }
  | called {slot : HubId} {h : Hub Callback} {status : Int} {key : ℕ} {cb : Callback}
      {ds : List Duty} (hd : d.scene.duties = .deliver slot status [key] :: ds)
      (hg : d.scene.hubs.get? slot = some h) (hs : h.subscribers = [(key, cb)])
      (hcb : cb.passes status = none) :
      Deal t past d [.called (d.scene.tenant slot) key status] []
        { d with
          scene := d.scene.withUpdate slot (·.without key) (.deliver slot status [] :: ds)
          held := {⟨cb.hub, cb.store?, none⟩} + d.held }
  | passed {slot : HubId} {h : Hub Callback} {status status' : Int} {key : ℕ} {cb : Callback}
      {ds : List Duty} (hd : d.scene.duties = .deliver slot status [key] :: ds)
      (hg : d.scene.hubs.get? slot = some h) (hs : h.subscribers = [(key, cb)])
      (hcb : cb.passes status = some status') (hr : t.reshapes = true ∨ cb.forks = 0) :
      Deal t past d [.called (d.scene.tenant slot) key status] []
        { d with
          scene := d.scene.withUpdate slot (·.without key)
            (.notify cb.hub status' :: .deliver slot status [] :: ds)
          stores := cb.freed d.stores }
  | heeded {slot : HubId} {h : Hub Callback} {u : Duty} {ds : List Duty}
      (ha : d.scene.Asked slot h u ds) (hw : ¬ (h.heed u).IsDue) :
      Deal t past d (u.heeded past (d.scene.tenant slot)) []
        { d with scene := d.scene.withUpdate slot (fun _ => h.heed u) ds }
  | completed {slot : HubId} {h : Hub Callback} {u : Duty} {ds : List Duty}
      (ha : d.scene.Asked slot h u ds) (hdue : (h.heed u).IsDue) :
      Deal t past d
        (u.heeded past (d.scene.tenant slot) ++
          [.completed (d.scene.tenant slot) (h.verdict u) h.keys]) []
        { d with
          scene :=
            d.scene.withUpdate slot (fun _ => h.fulfil u) (h.duties slot (h.verdict u) ++ ds) }
  | dropped {slot : HubId} {h : Hub Callback} {ds : List Duty} (hdrop : t.drops = true)
      (hd : d.scene.duties = .settle slot :: ds) (hg : d.scene.hubs.get? slot = some h)
      (hs : h.isSpent = true) :
      Deal t past d [] []
        { d with scene := { d.scene with hubs := d.scene.hubs.erase slot, duties := ds } }

/-- The hubs in hand. -/
def hands (d : Desk) : Multiset HubId := d.held.map Hold.hub

/-- The hubs that jobs complete. -/
def jobHubs (js : Posts) : Multiset HubId := (js.map (·.2.1) : List HubId)

/-- The hubs someone is to complete or seal. -/
def drivers (d : Desk) : Multiset HubId :=
  d.hands + jobHubs d.jobs + Duty.drives d.scene.duties + d.scene.hubs.bound

/-- The books of a desk balance, so each hub that someone is to complete can be completed, and
nobody else is to complete it. Who waits for hubs is not told. -/
structure Owned (d : Desk) : Prop where
  books : ∃ A : Multiset Mark, Books d.scene.hubs.entries
    ((d.hands + jobHubs d.jobs).map .drive + A) (d.scene.duties.flatMap Duty.marks)
  ids : (d.jobs.map Prod.fst).Nodup
  numbered : ∀ j ∈ d.jobs, j.1 < d.nextJob
  flushes : d.scene.flushes = []

variable {t : Terms} {past os : Notes} {ss : Log} {d d' : Desk}
  {slot x : HubId} {h h' : Hub Callback} {u : Duty} {ds : List Duty} {hub : HubId}
  {H : Multiset Hold} {y : Hold} {store : Option StoreId}

lemma mem_drivers : x ∈ d.drivers ↔ x ∈ d.hands ∨ (∃ id s, (id, x, s) ∈ d.jobs) ∨
    (∃ u ∈ d.scene.duties, u.driven? = some x) ∨ x ∈ d.scene.hubs.bound := by
  simp [drivers, jobHubs, drives, or_assoc]

lemma mem_hands (hy : y ∈ d.held) : y.hub ∈ d.hands := mem_map_of_mem _ hy

lemma mem_held (hh : d.held = {y} + H) : y ∈ d.held :=
  hh ▸ mem_add.mpr (.inl (Multiset.mem_singleton_self y))

lemma drives_some (hu : u.driven? = some x) : drives (u :: ds) = {x} + drives ds := by
  rw [drives, filterMap_cons_some hu, ← cons_coe, ← singleton_add]
  rfl

lemma drives_le (ds : List Duty) : (drives ds).map .drive ≤ due (ds.flatMap marks) := by
  induction ds with
  | nil => exact le_rfl
  | cons u ds ih =>
    rw [flatMap_cons, due_append]
    rcases hu : u.driven? with _ | x
    · rw [show drives (u :: ds) = drives ds by rw [drives, filterMap_cons_none hu]; rfl]
      exact ih.trans (le_add_left _ _)
    · have hone : due u.marks = {.drive x} := by cases u <;> cases hu <;> rfl
      rw [drives_some hu, Multiset.map_add, Multiset.map_singleton, hone]
      gcongr

lemma bound_le (hubs : Hubs Callback) : hubs.bound.map .drive ≤ gives hubs.entries := by
  have hsame : hubs.bound.map drive = hubs.entries.bind fun p =>
      ((p.2.subscribers.map fun s => drive s.2.hub : List Mark) : Multiset Mark) := by
    simp [bound, Hubs.callbacks, Hub.callbacks, map_bind, Function.comp_def]
  simp only [hsame, Accounts.gives, Hub.gives, bind_add]
  exact le_add_right _ _

lemma drivers_le (d : Desk) (A : Multiset Mark) : d.drivers.map .drive ≤
    (d.hands + jobHubs d.jobs).map .drive + A + due (d.scene.duties.flatMap marks) +
      gives d.scene.hubs.entries := by
  rw [drivers, map_add, map_add]
  gcongr
  · exact le_add_right _ _
  · exact drives_le _
  · exact bound_le _

lemma due_le (hu : u ∈ ds) : due u.marks ≤ due (ds.flatMap marks) := by
  obtain ⟨ds1, ds2, rfl⟩ := append_of_mem hu
  simp only [flatMap_append, flatMap_cons, due_append]
  exact (le_add_right _ _).trans (le_add_left _ _)

section

variable (o : d.Owned)
include o

lemma Owned.free (x : HubId) (hx : x ∈ d.drivers) : d.scene.hubs.Free x := by
  obtain ⟨A, b⟩ := o.books
  obtain ⟨h, hh, hfree⟩ := b.driven_of (mem_of_le (d.drivers_le A) (mem_map_of_mem _ hx))
  exact ⟨h, mem_entries.mp hh, hfree⟩

lemma Owned.nodup : d.drivers.Nodup := by
  obtain ⟨A, b⟩ := o.books
  refine nodup_iff_count_le_one.mpr fun x => ?_
  by_cases hx : x ∈ d.drivers
  swap
  · exact (count_eq_zero.mpr hx).trans_le zero_le_one
  obtain ⟨h, hg, hn, hs⟩ := o.free x hx
  calc d.drivers.count x = (d.drivers.map drive).count (.drive x) :=
        (count_map_eq_count' _ _ (fun _ _ => drive.inj) x).symm
    _ ≤ (Accounts.wants d.scene.hubs.entries).count (.drive x) :=
        count_le_of_le _ ((d.drivers_le A).trans_eq b.balance)
    _ = (h.wants x).count (.drive x) := by
        rw [← b.wants_filter (mem_entries.mpr hg), Multiset.count_filter, if_pos (by rfl)]
    _ ≤ 1 := by simp [Hub.wants, hn, hs, Multiset.count_replicate]

/-- A subscriber that is to be called is the only one of its hub, which has completed. -/
lemma Owned.calls {status : Int} {key : ℕ} {keys : List ℕ}
    (hm : .deliver slot status (key :: keys) ∈ d.scene.duties) :
    ∃ h cb, d.scene.hubs.get? slot = some h ∧ h.status = some status ∧
      h.subscribers = [(key, cb)] ∧ keys = [] := by
  obtain ⟨A, b⟩ := o.books
  obtain ⟨h, hh, hst, cb, hcb⟩ := b.delivered
    (mem_flatMap.mpr ⟨_, hm, mem_map_of_mem mem_cons_self⟩)
  refine ⟨h, cb, mem_entries.mp hh, hst, hcb, ?_⟩
  have hle : due (marks (.deliver slot status (key :: keys))) ≤ h.wants slot := by
    rw [← b.wants_filter hh, ← b.balance]
    refine le_filter.mpr ⟨(due_le hm).trans ?_, fun m hm => ?_⟩
    · exact (le_add_left _ _).trans (le_add_right _ _)
    · obtain ⟨k, -, rfl⟩ := mem_map.mp (mem_due.mp hm).1
      rfl
  have hcount := countP_le_of_le (· ≠ await slot) hle
  have hall : due (marks (.deliver slot status (key :: keys))) =
      ((key :: keys).map (deliver slot status) : List Mark) :=
    congrArg _ (List.filter_eq_self.mpr (by simp [Duty.marks, isDue]))
  have hzero : (Multiset.replicate h.retained (await slot)).countP (· ≠ .await slot) = 0 :=
    Multiset.countP_eq_zero.mpr fun m hm => not_not.mpr (Multiset.eq_of_mem_replicate hm)
  rw [Hub.wants, hall, countP_add, hzero] at hcount
  simpa [hst, hcb, Function.comp_def, -coe_singleton] using hcount

end

lemma jobHubs_settled {js : Posts} {id : JobId} {s : StoreId}
    (hids : (js.map Prod.fst).Nodup) (hj : (id, hub, s) ∈ js) :
    jobHubs js = {hub} + jobHubs (js.filter (·.1 != id)) := by
  obtain ⟨js1, js2, hjs, -, -, herase⟩ := exists_split hids hj
  rw [herase, hjs]
  simp only [jobHubs, map_append, List.map_cons, ← coe_add, ← cons_coe, ← singleton_add]
  ac_rfl

section

variable (o : d.Owned)
include o

lemma Owned.free_held (hy : y ∈ d.held) : d.scene.hubs.Free y.hub :=
  o.free _ (mem_drivers.mpr (.inl (mem_hands hy)))

/-- A hub that was created below another one has no subscribers yet. -/
lemma Owned.get?_next (sound : d.scene.hubs.Sound) (hy : y ∈ d.held) :
    ∃ h, (d.scene.hubs.create (some y.hub)).2.get? d.scene.hubs.next = some h ∧ h.status = none ∧
      h.subscribers = [] ∧ h.nextKey = 0 ∧ h.parent = some y.hub := by
  obtain ⟨h, hg, hn, -⟩ := o.free_held hy
  exact ⟨_, (get?_create_child sound hg hn _).trans (if_pos rfl), rfl, rfl, rfl, rfl⟩

lemma Deal.run (hr : d.scene.Run false past) (hd : Deal t past d os ss d') :
    d'.scene.Run false (past ++ os) := by
  have hthere : ∀ {y : Hold}, y ∈ d.held → (d.scene.hubs.get? y.hub).isSome = true := by
    intro y hy
    obtain ⟨h, hg, -⟩ := o.free_held hy
    simp [hg]
  have hsub : ∀ {past : Notes} {sc : Scene Callback} {slot : HubId} {h : Hub Callback}
      (cb : Callback), sc.Run false past → sc.hubs.get? slot = some h → h.status = none →
      Run false (past ++ [.subscribed (sc.tenant slot) h.nextKey])
        { sc with hubs := sc.hubs.update slot (·.subscribed cb) } := by
    intro past sc slot h cb hr hg hn
    have hc : Change false past sc _ _ := .subscribed hg cb
    simp only [hn, Option.isSome_none, Bool.false_eq_true, if_false] at hc
    exact hr.move hc
  cases hd with
  | created parent store hp =>
    exact hr.move (.created parent (.inr fun p he => hthere (he ▸ hp : Admits _ _ _ _ (some p))))
  | @enclosed hub store H hh _ =>
    have hy := mem_held hh
    have hmade := hr.move (.created (some hub) (.inr fun p he => by cases he; exact hthere hy))
    obtain ⟨h, hg, hn, -, hkey, -⟩ := o.get?_next hr.sane.sound hy
    have hlast := hsub (.subshell hub d.stores.next) hmade hg hn
    rw [tenant_new rfl, hkey, append_assoc] at hlast
    exact hlast
  | hired | turned => rwa [append_nil]
  | subscribed hg hn => exact hsub _ hr hg hn
  | retained slot => exact hr.move (.retained slot)
  | released slot => exact hr.move (.released slot)
  | notified _ status | settled _ status => exact hr.move (.notified _ status)
  | sealing hh => exact hr.move (.sealing _)
  | idle hd hi => exact hr.move (.idle hd hi)
  | called hd hg hs hcb => exact hr.move (.called hd hg (by simp [Hub.keys, hs]))
  | passed hd hg hs hcb =>
    rw [← append_nil (past ++ _)]
    exact (hr.move (.called hd hg (by simp [Hub.keys, hs]))).move (.notified _ _)
  | heeded ha hw => exact hr.move (.heeded ha hw)
  | completed ha hdue => exact hr.move (.completed ha hdue)
  | dropped _ hd hg hs => exact hr.move (.dropped hd hg hs)

/-! ### No hub is in two hands -/

/-- Whoever drives a hub by the duty on top is the only one who does. -/
lemma Owned.driven_top (hd : d.scene.duties = u :: ds) (hu : u.driven? = some slot) :
    slot ∉ d.hands + jobHubs d.jobs + drives ds + d.scene.hubs.bound := by
  have hcons : d.drivers =
      {slot} + (d.hands + jobHubs d.jobs + drives ds + d.scene.hubs.bound) := by
    rw [drivers, hd, drives_some hu]
    ac_rfl
  have hnodup := o.nodup
  rw [hcons, singleton_add, Multiset.nodup_cons] at hnodup
  exact hnodup.1

lemma Owned.created (sound : d.scene.hubs.Sound) {parent : Option HubId}
    (hp : ∀ p, parent = some p → d.scene.hubs.Free p) (handles : List HubId)
    (store : Option StoreId) (stores : Shape) :
    Owned { d with
      scene := { d.scene with hubs := (d.scene.hubs.create parent).2, handles }
      held := {⟨d.scene.hubs.next, store, none⟩} + d.held
      stores } := by
  obtain ⟨A, b⟩ := o.books
  have hnext := next_notin sound
  have hmade : Books (d.scene.hubs.create parent).2.entries
      ((d.hands + jobHubs d.jobs).map .drive + A)
      (.drive d.scene.hubs.next :: d.scene.duties.flatMap marks) := by
    rcases parent with _ | p
    · rw [(create_none sound).2]
      exact b.added none hnext
    · obtain ⟨h, hg, hn, -⟩ := hp p rfl
      obtain ⟨R, he⟩ := exists_rest hg
      rw [(create_some sound he hn).2]
      rw [he] at b hnext
      exact (b.adopted hn).added (some p) (by simpa using hnext)
  refine { o with books := ⟨A, hmade.move ?_⟩ }
  simp only [hands, Multiset.map_add, Multiset.map_singleton, due_cons (m := .drive _) rfl]
  ac_rfl

lemma Owned.subscribed {cb : Callback}
    (hg : d.scene.hubs.get? slot = some h) (hn : h.status = none) (hs : h.subscribers = [])
    (hh : d.held = {⟨cb.hub, store, none⟩} + H) :
    Owned { d with
      scene := { d.scene with hubs := d.scene.hubs.update slot (·.subscribed cb) }
      held := H } := by
  obtain ⟨A, b⟩ := o.books
  obtain ⟨R, he⟩ := exists_rest hg
  refine { o with books := ⟨A, ?_⟩ }
  rw [entries_update he]
  rw [he] at b
  refine .subscribed (b.move ?_) hn hs rfl
  simp only [hands, hh, Multiset.map_add, Multiset.map_singleton, due_cons (m := .drive _) rfl]
  ac_rfl

lemma Owned.hired (hh : d.held = {⟨hub, store, none⟩} + H) (s : StoreId) :
    Owned { d with
      held := H
      jobs := d.jobs ++ [(d.nextJob, hub, s)]
      nextJob := d.nextJob + 1 } := by
  obtain ⟨A, b⟩ := o.books
  refine ⟨⟨A, b.move ?_⟩, nodup_append_new o.ids o.numbered, lt_of_mem_append_new o.numbered,
    o.flushes⟩
  simp only [hands, hh, jobHubs, map_append, ← coe_add, Multiset.map_add, Multiset.map_singleton,
    List.map_cons, map_nil, coe_singleton]
  ac_rfl

lemma Owned.notified (hh : d.held = {⟨hub, store, none⟩} + H) (hu : u.marks = [.drive hub]) :
    Owned { d with scene := { d.scene with duties := u :: d.scene.duties }, held := H } := by
  obtain ⟨A, b⟩ := o.books
  refine { o with books := ⟨A, b.move ?_⟩ }
  simp only [hands, hh, Multiset.map_add, Multiset.map_singleton, flatMap_cons, hu,
    singleton_append, due_cons (m := .drive hub) rfl]
  ac_rfl

lemma Owned.settled {id : JobId} {s : StoreId} (hj : (id, hub, s) ∈ d.jobs) (status : Int) :
    Owned { d with
      scene := { d.scene with duties := .notify hub status :: d.scene.duties }
      jobs := d.jobs.filter (·.1 != id) } := by
  obtain ⟨A, b⟩ := o.books
  refine ⟨⟨A, b.move ?_⟩, o.ids.sublist (filter_sublist.map _),
    fun j hj => o.numbered j (mem_of_mem_filter hj), o.flushes⟩
  simp only [hands, jobHubs_settled o.ids hj, Multiset.map_add, Multiset.map_singleton,
    flatMap_cons, Duty.marks, singleton_append, due_cons (m := .drive hub) rfl]
  ac_rfl

lemma Owned.turned {H' : Multiset Hold} (hh : H'.map Hold.hub = d.hands) :
    Owned { d with held := H' } := by
  obtain ⟨A, b⟩ := o.books
  exact { o with books := ⟨A, b.move (by rw [hands, hh])⟩ }

lemma Owned.retained (slot : HubId) :
    Owned { d with scene := { d.scene with hubs := d.scene.hubs.retain slot } } := by
  obtain ⟨A, b⟩ := o.books
  rcases hg : d.scene.hubs.get? slot with _ | h
  · rw [show d.scene.hubs.retain slot = d.scene.hubs from entries_modify_of_none hg _]
    exact o
  · obtain ⟨R, he⟩ := exists_rest hg
    have he' : (d.scene.hubs.retain slot).entries = _ := entries_update he _
    refine { o with books := ⟨{.await slot} + A, ?_⟩ }
    rw [he']
    rw [he] at b
    refine b.retained ?_
    rw [Multiset.replicate_succ, ← singleton_add]
    ac_rfl

lemma Owned.released (slot : HubId) :
    Owned { d with
      scene := d.scene.withUpdate slot Hub.released (.settle slot :: d.scene.duties) } := by
  obtain ⟨A, b⟩ := o.books
  rcases hg : d.scene.hubs.get? slot with _ | h
  · rw [withUpdate, show d.scene.hubs.update slot _ = _ from entries_modify_of_none hg _]
    exact { o with books := ⟨A, b.move rfl⟩ }
  · obtain ⟨R, he⟩ := exists_rest hg
    rcases hr : h.retained with _ | n
    · refine { o with books := ⟨A, ?_⟩ }
      rw [entries_update he]
      rw [he] at b
      exact b.retained (by rw [hr]; rfl)
    · -- someone waits for it
      obtain ⟨A, rfl⟩ : ∃ A', A = {.await slot} + A' := by
        have hm := (b.awaited (mem_entries.mpr hg) (hr ▸ Nat.succ_pos n)).resolve_right fun hm => by
          obtain ⟨u, -, hm⟩ := mem_flatMap.mp hm
          cases u <;> simp [Duty.marks] at hm
        have hA : .await slot ∈ A := by simpa using hm
        obtain ⟨A', hA'⟩ := exists_cons_of_mem hA
        exact ⟨A', hA'.trans (singleton_add _ _).symm⟩
      refine { o with books := ⟨A, ?_⟩ }
      rw [entries_update he]
      rw [he] at b
      refine b.retained ?_
      rw [hr, Nat.succ_sub_one, Multiset.replicate_succ, ← singleton_add]
      change _ + due (d.scene.duties.flatMap marks) + _ = _
      ac_rfl

lemma Owned.idle (hd : d.scene.duties = u :: ds) (hi : d.scene.Idle u) :
    Owned { d with scene := { d.scene with duties := ds } } := by
  obtain ⟨A, b⟩ := o.books
  rw [hd, flatMap_cons] at b
  have htarget : ∀ {slot}, u.target? = some slot →
      (∀ h, d.scene.hubs.get? slot = some h → h.status.isSome = true) → due u.marks = 0 := by
    intro slot ht hc
    obtain ⟨h, hh, hn⟩ := b.target ht fun m hm => mem_append_left _ hm
    simpa [hn] using hc h (mem_entries.mp hh)
  have hnone : due u.marks = 0 := by
    cases u with
    | settle => rfl
    | notify | sealOff | report => exact htarget rfl hi
    | deliver k status keys =>
      cases keys with
      | nil => rfl
      | cons key keys =>
        obtain ⟨h, -, hg, -⟩ := o.calls (hd ▸ List.mem_cons_self)
        rcases hi with hi | hi
        · cases hi
        · cases hi.symm.trans hg
  exact { o with books := ⟨A, b.move (by rw [due_append, hnone, zero_add]; rfl)⟩ }

/-- A subscriber that is called has the hub in hand that it goes on with. -/
lemma Owned.called {status : Int} {key : ℕ} {cb : Callback}
    (hd : d.scene.duties = .deliver slot status [key] :: ds)
    (hg : d.scene.hubs.get? slot = some h) (hs : h.subscribers = [(key, cb)])
    (store : Option StoreId) (stores : Shape) :
    Owned { d with
      scene := d.scene.withUpdate slot (·.without key) (.deliver slot status [] :: ds)
      held := {⟨cb.hub, store, none⟩} + d.held
      stores } := by
  obtain ⟨A, b⟩ := o.books
  obtain ⟨R, he⟩ := exists_rest hg
  obtain ⟨h', cb', hg', hst, -⟩ := o.calls (hd ▸ List.mem_cons_self)
  cases hg.symm.trans hg'
  rw [hd, he] at b
  have hcalled := Books.called (M := ds.flatMap marks) b hst hs
  refine { o with books := ⟨A, ?_⟩ }
  rw [entries_update he, Hub.without_sole hs]
  refine hcalled.move ?_
  simp only [hands, Multiset.map_add, Multiset.map_singleton, due_cons (m := .drive _) rfl]
  change _ + due (ds.flatMap marks) = _
  ac_rfl

lemma Owned.heeded (ha : d.scene.Asked slot h u ds) (hw : ¬ (h.heed u).IsDue) :
    Owned { d with scene := d.scene.withUpdate slot (fun _ => h.heed u) ds } := by
  obtain ⟨A, b⟩ := o.books
  obtain ⟨R, he⟩ := exists_rest ha.hub
  rw [ha.duties, he] at b
  refine { o with books := ⟨A, ?_⟩ }
  rw [entries_update he]
  exact .heeded b ha.target ha.running hw

lemma Owned.completed (ha : d.scene.Asked slot h u ds) (hdue : (h.heed u).IsDue) :
    Owned { d with
      scene := d.scene.withUpdate slot (fun _ => h.fulfil u)
        (h.duties slot (h.verdict u) ++ ds) } := by
  obtain ⟨A, b⟩ := o.books
  obtain ⟨R, he⟩ := exists_rest ha.hub
  rw [ha.duties, he] at b
  refine { o with books := ⟨A, ?_⟩ }
  rw [entries_update he, flatMap_append, Hub.marks_duties]
  exact .completed b ha.target ha.running hdue

lemma Owned.dropped (hd : d.scene.duties = .settle slot :: ds)
    (hg : d.scene.hubs.get? slot = some h) (hs : h.isSpent = true) :
    Owned { d with scene := { d.scene with hubs := d.scene.hubs.erase slot, duties := ds } } := by
  obtain ⟨⟨hst, hsub⟩, hr⟩ : (h.status.isSome = true ∧ h.subscribers = []) ∧ h.retained = 0 := by
    simpa [Hub.isSpent] using hs
  obtain ⟨A, b⟩ := o.books
  obtain ⟨R, he⟩ := exists_rest hg
  rw [hd, he] at b
  refine { o with books := ⟨A, ?_⟩ }
  rw [entries_erase he]
  refine b.erased hst hsub ?_
  obtain ⟨status, hst⟩ := Option.isSome_iff_exists.mp hst
  simp [Hub.wants, hst, hsub, hr, due, Duty.marks, isDue]

lemma Owned.deal (sound : d.scene.hubs.Sound) (hd : Deal t past d os ss d') : d'.Owned := by
  cases hd with
  | created parent store hp =>
    exact o.created sound (fun p he => o.free_held (he ▸ hp : Admits _ _ _ _ (some p))) _ _ _
  | @enclosed hub store H hh _ =>
    have hy := mem_held hh
    obtain ⟨h, hg, hn, hs, -⟩ := o.get?_next sound hy
    have hmade :=
      o.created sound (fun p (he : some hub = some p) => by cases he; exact o.free_held hy)
        (d.scene.handles ++ [d.scene.hubs.next]) (some d.stores.next) (d.stores.insert (some store))
    exact hmade.subscribed hg hn hs ((congrArg ({_} + ·) hh).trans (add_left_comm _ _ _))
  | hired hh => exact o.hired hh _
  | subscribed hg hn hs hp hf hc hh => exact o.subscribed hg hn hs hh
  | turned hh hs hq => exact o.turned (by simp [hands, hh])
  | retained slot => exact o.retained slot
  | released slot => exact o.released slot
  | notified hh status => exact o.notified hh rfl
  | sealing hh => exact o.notified hh rfl
  | settled hj status => exact o.settled hj status
  | idle hd hi => exact o.idle hd hi
  | called hd hg hs hcb => exact o.called hd hg hs _ _
  | passed hd hg hs hcb => exact (o.called hd hg hs none _).notified rfl rfl
  | heeded ha hw => exact o.heeded ha hw
  | completed ha hdue => exact o.completed ha hdue
  | dropped _ hd hg hs => exact o.dropped hd hg hs

end

/-! ### What becomes of a hub -/

/-- What one deal may do to a hub that is there. -/
inductive Fares (t : Terms) (d d' : Desk) (slot : HubId) (h : Hub Callback) : Prop where
  | stays (n : ℕ) (hg : d'.scene.hubs.get? slot = some { h with retained := n })
  | bears (hh : slot ∈ d.hands) (hg : d'.scene.hubs.get? slot = some h.withChild)
  | subscribed {cb : Callback} (hn : h.status = none) (hs : h.subscribers = [])
      (hp : h.parent = some cb.hub) (hh : cb.hub ∈ d.hands)
      (hg : d'.scene.hubs.get? slot = some (h.subscribed cb))
  | calls {status : Int} {key : ℕ} {cb : Callback} (hst : h.status = some status)
      (hs : h.subscribers = [(key, cb)])
      (hp : ∀ s, cb.passes status = some s → .notify cb.hub s ∈ d'.scene.duties)
      (hg : d'.scene.hubs.get? slot = some { h with subscribers := [] })
  | heeds {u : Duty} {h' : Hub Callback} (hu : u ∈ d.scene.duties) (ht : u.target? = some slot)
      (hn : h.status = none) (hs : h'.subscribers = h.subscribers)
      (hg : d'.scene.hubs.get? slot = some h')
  | dropped (hd : t.drops = true) (hs : h.isSpent = true)

lemma Deal.fares (hd : Deal t past d os ss d') (o : d.Owned) (sound : d.scene.hubs.Sound)
    (hg : d.scene.hubs.get? slot = some h) : Fares t d d' slot h := by
  have hne := sound.ne_next hg
  have hcreate : ∀ {parent}, (∀ q, parent = some q → q ∈ d.hands) →
      d'.scene.hubs.get? slot = (d.scene.hubs.create parent).2.get? slot → Fares t d d' slot h := by
    intro parent hq hg'
    cases parent with
    | none =>
      rw [get?_create_orphan sound (by simp), if_neg hne, hg] at hg'
      exact .stays h.retained hg'
    | some q =>
      obtain ⟨k, hk, hn, -⟩ := o.free q (mem_drivers.mpr (.inl (hq q rfl)))
      rw [get?_create_child sound hk hn, if_neg hne] at hg'
      split at hg'
      · subst q
        cases hg.symm.trans hk
        exact .bears (hq slot rfl) hg'
      · exact .stays h.retained (hg'.trans hg)
  -- a hub changes, and it is this one or another
  have hupdate : ∀ {k : HubId} {f : Hub Callback → Hub Callback},
      d'.scene.hubs = d.scene.hubs.update k f →
      (k = slot → d'.scene.hubs.get? slot = some (f h) → Fares t d d' slot h) →
      Fares t d d' slot h := by
    intro k f hd' hf
    by_cases he : k = slot
    · subst he
      exact hf rfl (hd' ▸ get?_update_self hg f)
    · refine .stays h.retained ?_
      rw [hd', get?_update_of_ne _ _ (Ne.symm he), hg]
  cases hd with
  | created parent store hp => exact hcreate (by rintro q rfl; exact mem_hands hp) rfl
  | enclosed hh =>
    exact hcreate (by rintro q ⟨⟩; exact mem_hands (mem_held hh)) (get?_update_of_ne _ _ hne)
  | subscribed hk hn hs hp hf hc hh =>
    refine hupdate rfl fun he hg' => ?_
    cases (he ▸ hk).symm.trans hg
    exact .subscribed hn hs hp (mem_hands (mem_held hh)) hg'
  | retained | released => exact hupdate rfl fun _ => .stays _
  | called hd hk hs hcb | passed hd hk hs hcb =>
    refine hupdate rfl fun he hg' => ?_
    obtain ⟨k', cb', hk', hst, -⟩ := o.calls (hd ▸ List.mem_cons_self)
    cases (he ▸ hk).symm.trans hg
    cases hk.symm.trans hk'
    refine .calls hst hs (fun s hp => ?_) (hg'.trans (by rw [Hub.without_sole hs]))
    cases hcb.symm.trans hp
    all_goals exact List.mem_cons_self
  | @heeded k hub u ds ha | @completed k hub u ds ha =>
    refine hupdate rfl fun he hg' => ?_
    cases (he ▸ ha.hub).symm.trans hg
    exact .heeds (ha.duties ▸ List.mem_cons_self) (he ▸ ha.target) ha.running
      (by cases u <;> rfl) hg'
  | @dropped k hub ds hdrop hd hk hsp =>
    by_cases he : k = slot
    · cases (he ▸ hk).symm.trans hg
      exact .dropped hdrop hsp
    · exact .stays h.retained ((get?_erase _ _ _).trans ((if_neg (Ne.symm he)).trans hg))
  | _ => exact .stays h.retained hg

/-! ### Duties that are done -/

lemma Deal.target (t : Terms) (past : Notes) (hd : d.scene.duties = u :: ds)
    (ht : u.target? = some slot) :
    (∃ os, Deal t past d os [] { d with scene := { d.scene with
      hubs := (d.scene.hubs.perform u).1
      duties := (d.scene.hubs.perform u).2.2 ++ ds } }) ∧ (d.scene.hubs.perform u).2.1 = none := by
  rcases d.scene.hubs.closed_or_open slot with hc | ⟨h, hg, hn⟩
  · rw [perform_closed ht hc]
    refine ⟨⟨[], .idle hd ?_⟩, rfl⟩
    cases u <;> cases ht <;> exact hc
  · by_cases hdue : (h.heed u).IsDue
    · rw [perform_due ht hg hn hdue]
      exact ⟨⟨_, .completed ⟨hd, ht, hg, hn⟩ hdue⟩, rfl⟩
    · rw [perform_waiting ht hg hn hdue]
      exact ⟨⟨_, .heeded ⟨hd, ht, hg, hn⟩ hdue⟩, rfl⟩

/-- To see whether a hub is spent is a deal, if it may be dropped. -/
lemma Deal.settle (ht : t.drops = true) (past : Notes)
    (hd : d.scene.duties = .settle slot :: ds) :
    Deal t past d [] [] { d with scene := { d.scene with
      hubs := d.scene.hubs.settle slot
      duties := ds } } := by
  rcases hsp : (d.scene.hubs.get? slot).any Hub.isSpent with _ | _
  · have hsame : d.scene.hubs.settle slot = d.scene.hubs := by simp [Hubs.settle, hsp]
    rw [hsame]
    exact .idle hd hsp
  · have herase : d.scene.hubs.settle slot = d.scene.hubs.erase slot := by simp [Hubs.settle, hsp]
    obtain ⟨h, hg, hs⟩ := (Option.any_eq_true _ _).mp hsp
    rw [herase]
    exact .dropped ht hd hg hs

/-! ### Deals one after another -/

inductive Deals (t : Terms) (past : Notes) (d : Desk) :
    Notes → Log → Desk → Prop where
  | refl : Deals t past d [] [] d
  | tail {os os' : Notes} {ss ss' : Log} {d' d'' : Desk}
      (hds : Deals t past d os ss d') (hd : Deal t (past ++ os) d' os' ss' d'') :
      Deals t past d (os ++ os') (ss ++ ss') d''

lemma Deal.deals (hd : Deal t past d os ss d') : Deals t past d os ss d' := by
  rw [← append_nil past] at hd
  exact .tail .refl hd

lemma Deals.trans {os' : Notes} {ss' : Log} {d'' : Desk}
    (h1 : Deals t past d os ss d') (h2 : Deals t (past ++ os) d' os' ss' d'') :
    Deals t past d (os ++ os') (ss ++ ss') d'' := by
  induction h2 with
  | refl => rwa [append_nil, append_nil]
  | tail _ hd ih =>
    rw [← append_assoc, ← append_assoc]
    rw [append_assoc] at hd
    exact ih.tail hd

abbrev Rule := Notes → Log → Desk → Prop

/-- What holds of every desk that has come about in a way, with its past and the jobs that have
settled: it is kept by all deals, or by all that drop no hub. -/
structure Law (t : Terms) (R : Rule) : Prop where
  run : ∀ {past log d}, R past log d → d.scene.Run false past
  owned : ∀ {past log d}, R past log d → d.Owned
  deal : ∀ {past log d os ss d'}, R past log d → Deal t past d os ss d' →
    R (past ++ os) (log ++ ss) d'

variable {R : Rule} {log : Log}

lemma Law.deals (l : Law t R) (hr : R past log d) (hd : Deals t past d os ss d') :
    R (past ++ os) (log ++ ss) d' := by
  induction hd with
  | refl => rwa [append_nil, append_nil]
  | tail _ hd ih =>
    rw [← append_assoc, ← append_assoc]
    exact l.deal ih hd

/-- What is kept when a hub is retained no longer and is dropped if it is spent; nothing is noted of
that. -/
structure Lull (R : Rule) : Prop where
  released : ∀ {past log d} (slot : HubId), R past log d → R past log
    { d with scene := d.scene.withUpdate slot Hub.released (.settle slot :: d.scene.duties) }
  settle : ∀ {past log d slot ds}, R past log d → d.scene.duties = .settle slot :: ds →
    R past log { d with scene := { d.scene with hubs := d.scene.hubs.settle slot, duties := ds } }

lemma Law.lull (l : Law t R) (ht : t.drops = true) : Lull R where
  released slot hr := by simpa using l.deal hr (.released slot)
  settle hr hd := by simpa using l.deal hr (Deal.settle ht _ hd)

/-- What is kept when someone with a hub in hand waits for another one first, or waits no longer,
and maybe forgets the store. -/
def Turns (quits : Bool) (R : Rule) : Prop :=
  ∀ ⦃past log d hub store store' a a' H⦄, R past log d → d.held = {⟨hub, store, a⟩} + H →
    (∀ s, store' = some s → store = some s) →
    (∀ X, a = some X → quits = true ∨
      ∀ h, d.scene.hubs.get? X = some h → h.status.isSome = true) →
    R past log { d with held := {⟨hub, store', a'⟩} + H }

lemma Law.turns (l : Law t R) : Turns t.quits R :=
  fun _ _ _ _ _ _ _ _ _ hr hh hs hq => by simpa using l.deal hr (.turned hh hs hq)

/-! ### Deals that leave the stores as they are -/

/-- The same, but for the stores. -/
abbrev Terms.still (t : Terms) : Terms := { t with reshapes := false }

lemma Deal.stores (hd : Deal t past d os ss d') (ht : t.reshapes = false) :
    d'.stores = d.stores := by
  cases hd with
  | enclosed hh hr => cases ht.symm.trans hr
  | @passed slot h status status' key cb ds hd hg hs hcb hr =>
    cases cb with
    | subshell hub store => rcases hr with hr | hr <;> simp [ht, Callback.forks] at hr
    | _ => rfl
  | _ => rfl

lemma Deal.of_still (hd : Deal t.still past d os ss d') : Deal t past d os ss d' := by
  cases hd with
  | enclosed hh hr => cases hr
  | passed hd hg hs hcb hr => exact .passed hd hg hs hcb (.inr (hr.resolve_left nofun))
  | _ => constructor <;> assumption

/-- A rule, with the stores that there are. -/
def Rule.on (R : Rule) (σ : Shape) : Rule :=
  fun past log d => R past log d ∧ d.stores = σ

lemma Law.still (l : Law t R) (σ : Shape) : Law t.still (R.on σ) where
  run hr := l.run hr.1
  owned hr := l.owned hr.1
  deal hr hd := ⟨l.deal hr.1 hd.of_still, (hd.stores rfl).trans hr.2⟩

end Desk

end JobShell
