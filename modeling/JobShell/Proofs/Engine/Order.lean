import JobShell.Proofs.Engine.Similar
import JobShell.Proofs.Engine.Solvency
import JobShell.Proofs.Hub.Pending

/-!
An engine in order.

Nothing that an engine holds is forgotten: each hub is driven by someone, each job has a task to
come or is fed by an earlier one, each store belongs to a subshell that has not ended, and each
buffer to someone who waits for it. The state in between may have some of this in hand, and each
small change to an engine is described by what it takes into the hand and what it lays down.
-/

namespace JobShell

open Accounts Rank List Multiset Option

namespace Task

/-- The hub that a task completes or goes on with. -/
def hub? : Task → Option HubId
  | .advance r => some r.hub
  | .complete hub _ => some hub
  | .loop hub _ _ _ _ => some hub
  | .choice hub _ _ _ => some hub
  | .finalize _ _ | .flush _ | .runChain _ | .fail _ => none

/-- The job that a task ends. -/
def job? : Task → Option JobId
  | .runChain job | .fail job => some job
  | _ => none

def marks (t : Task) : List Mark := t.hub?.toList.map .drive

end Task

namespace Engine

/-- The hubs that tasks and jobs will complete or go on with. -/
def drivers (e : Engine) : Multiset HubId :=
  (e.tasks.filterMap Task.hub? : List HubId) + (e.jobs.map (·.2.hub) : List HubId)

def Feeds (e : Engine) (f id : JobId) : Prop :=
  f < id ∧ ∃ k, (f, k) ∈ e.jobs ∧ k.stdout = .forward id

/-- What ends a job: a task to come, or the end of an earlier one that feeds it. -/
def Due (e : Engine) (id : JobId) (j : Job) : Prop :=
  match j.body with
  | .chain c => c.started = true ∧ (.runChain id ∈ e.tasks ∨ c.queued = false ∧ ∃ f, e.Feeds f id)
  | .native _ => .fail id ∈ e.tasks

/-- An engine in order, with some jobs not started, some stores, some buffers and some debts in
hand. The ages of the hubs may be asked for more. -/
structure InOrder (Q : (HubId → ℕ) → Prop) (X : List JobId) (S : Multiset StoreId)
    (K : Multiset ℕ) (M : List Mark) (e : Engine) : Prop where
  hubs : e.hubs.Sound
  books : ∃ birth clock, Balanced birth clock e.hubs.entries e.drivers M ∧ Q birth
  captures : e.captures.Sound ∧ e.captures.keys = K
  stores : e.stores.slab.Sound ∧
    e.stores.slab.keys = {Stores.root} + (S + forks e.hubs.entries)
  keyed : e.Keyed
  numbered : ∀ p ∈ e.jobs, p.1 < e.nextJob
  due : ∀ p ∈ e.jobs, p.1 ∉ X → e.Due p.1 p.2
  listed : ∀ t ∈ e.table.entries, ∃ p ∈ e.jobs, p.2.tableId = some t.1
  owner : ∀ id, e.owner = some id → id ∈ e.jobs.map Prod.fst
  live : e.live = 0
  events : ∀ event ∈ e.events, event = .interrupt
  flushes : ∀ hub, .flush hub ∉ e.tasks

variable {e e' : Engine} {Q Q' : (HubId → ℕ) → Prop} {X X' : List JobId} {S S' : Multiset StoreId}
  {K : Multiset ℕ} {M M' : List Mark} {c d : HubId} {h h' : Hub Callback}
  {js js' : List (JobId × Job)} {id : JobId} {q : Option HubId} {t : Task}

/-! ### Similar engines -/

lemma exists_of_forall₂ {α β : Type} {R : α → β → Prop} {xs : List α} {ys : List β}
    (h : Forall₂ R xs ys) {x : α} (hx : x ∈ xs) : ∃ y ∈ ys, R x y := by
  induction h with
  | nil => simp at hx
  | cons hq _ ih =>
    rcases mem_cons.mp hx with rfl | hx
    · exact ⟨_, mem_cons_self, hq⟩
    · obtain ⟨y, hy, hr⟩ := ih hx
      exact ⟨y, mem_cons_of_mem _ hy, hr⟩

lemma SimilarJobs.of_mem (hs : SimilarJobs js js') {p : JobId × Job} (hp : p ∈ js) :
    ∃ p' ∈ js', p'.1 = p.1 ∧ p.2.Similar p'.2 :=
  exists_of_forall₂ hs hp

lemma SimilarJobs.of_mem_right (hs : SimilarJobs js js') {p' : JobId × Job} (hp : p' ∈ js') :
    ∃ p ∈ js, p'.1 = p.1 ∧ p.2.Similar p'.2 :=
  exists_of_forall₂ (Forall₂.flip hs) hp

lemma SimilarJobs.hubs (hs : SimilarJobs js js') : js'.map (·.2.hub) = js.map (·.2.hub) := by
  induction hs with
  | nil => rfl
  | cons hp _ ih => simp [hp.2.hub, ih]

lemma Similar.drivers (hs : Similar e e') : e'.drivers = e.drivers := by
  rw [Engine.drivers, Engine.drivers, hs.tasks, hs.jobs.hubs]

lemma Similar.weight (hs : Similar e e') : e'.weight = e.weight := by
  rw [Engine.weight, Engine.weight, hs.hubs, hs.tasks, hs.jobs.length_eq]

lemma Similar.feeds (hs : Similar e e') {f : JobId} (hf : e.Feeds f id) : e'.Feeds f id := by
  obtain ⟨hlt, k, hk, hout⟩ := hf
  obtain ⟨⟨i, k'⟩, hk', rfl, hsim⟩ := hs.jobs.of_mem hk
  exact ⟨hlt, k', hk', (hsim.forward _).mpr hout⟩

lemma Similar.due (hs : Similar e e') {j j' : Job} (hj : j.Similar j')
    (hd : e.Due id j) : e'.Due id j' := by
  have hb := hj.body
  unfold Due at hd ⊢
  cases hjb : j.body <;> cases hjb' : j'.body <;> rw [hjb, hjb'] at hb <;> rw [hjb] at hd <;>
    dsimp only at hd ⊢
  · cases hb with
    | chain hstarted hqueued =>
      rw [hstarted, hqueued, hs.tasks]
      refine ⟨hd.1, hd.2.imp_right fun ⟨hq, f, hf⟩ => ⟨hq, f, hs.feeds hf⟩⟩
  · cases hb
  · cases hb
  · rw [hs.tasks]
    exact hd

lemma InOrder.similar (o : InOrder Q X S K M e) (hs : Similar e e') : InOrder Q X S K M e' where
  hubs := hs.hubs ▸ o.hubs
  books := by
    rw [hs.hubs, hs.drivers]
    exact o.books
  captures := ⟨hs.captures.1 o.captures.1, hs.captures.2.trans o.captures.2⟩
  stores := by
    rw [← Stores.sound_shape, ← Stores.keys_shape, hs.stores, hs.hubs, Stores.sound_shape,
      Stores.keys_shape]
    exact o.stores
  keyed := o.keyed.similar hs
  numbered := by
    intro p' hp'
    obtain ⟨p, hp, hid, -⟩ := hs.jobs.of_mem_right hp'
    rw [hid, hs.nextJob]
    exact o.numbered p hp
  due := by
    intro p' hp' hX
    obtain ⟨p, hp, hid, hsim⟩ := hs.jobs.of_mem_right hp'
    rw [hid] at hX ⊢
    exact hs.due hsim (o.due p hp hX)
  listed := by
    intro t ht
    obtain ⟨t', ht', he⟩ := hs.table t ht
    obtain ⟨p, hp, hid⟩ := o.listed t' ht'
    obtain ⟨p', hp', -, hsim⟩ := hs.jobs.of_mem hp
    exact ⟨p', hp', by rw [hsim.tableId, hid, he]⟩
  owner := by
    intro id hid
    rw [hs.jobs.ids]
    rcases hs.owner id hid with h | h
    · exact o.owner id h
    · exact h
  live := hs.live.trans o.live
  events := hs.events ▸ o.events
  flushes := by
    rw [hs.tasks]
    exact o.flushes

/-! ### Hubs -/

lemma InOrder.solvent (o : InOrder Q X S K M e) : Solvent Q e.drivers M e.hubs :=
  ⟨o.hubs, o.books⟩

/-- Hubs may change as long as the books balance and no store is forgotten. -/
lemma InOrder.rehub (o : InOrder Q X S K M e) {hubs : Hubs Callback}
    (b : Solvent Q' e.drivers M' hubs) (hf : S' + forks hubs.entries = S + forks e.hubs.entries) :
    InOrder Q' X S' K M' { e with hubs } :=
  { o with
    hubs := b.sound, books := b.books, stores := ⟨o.stores.1, by rw [hf]; exact o.stores.2⟩ }

/-- A hub without subscribers that is open. -/
def Bare (e : Engine) (c : HubId) (parent : Option HubId) : Prop :=
  ∃ h, (c, h) ∈ e.hubs.entries ∧ h.status = none ∧ h.subscribers = [] ∧ h.parent = parent

lemma weight_hubs (e : Engine) {hubs : Hubs Callback} {A : Multiset Rank}
    (hw : hubWeight hubs.entries = hubWeight e.hubs.entries + A) :
    ({ e with hubs } : Engine).weight = e.weight + A := by
  change hubWeight hubs.entries + _ + _ = hubWeight e.hubs.entries + _ + _ + A
  rw [hw]
  ac_rfl

lemma bare_iff {q : Option HubId} : e.Bare c q ↔
    ∃ h, e.hubs.get? c = some h ∧ h.status = none ∧ h.subscribers = [] ∧ h.parent = q := by
  simp [Bare]

lemma Bare.congr {b : HubId} {q : Option HubId} (hb : e.Bare b q) (hh : e'.hubs = e.hubs) :
    e'.Bare b q := by
  rw [Bare, hh]
  exact hb

/-- A hub that is created is bare, and those that were bare still are. -/
lemma bare_createHub (sound : e.hubs.Sound) (parent : Option HubId)
    (hp : ∀ p, parent = some p → ∃ h, e.hubs.get? p = some h ∧ h.status = none) :
    (e.createHub parent).2.Bare e.hubs.next parent ∧
      ∀ b q, e.Bare b q → b ≠ e.hubs.next ∧ (e.createHub parent).2.Bare b q := by
  simp only [bare_iff]
  rcases parent with _ | p
  · have hget : ∀ k, (e.hubs.create none).2.get? k = if k = e.hubs.next then some {} else _ :=
      Hubs.get?_create_orphan sound (by simp)
    refine ⟨⟨{}, ?_, rfl, rfl, rfl⟩, ?_⟩
    · exact (hget _).trans (if_pos rfl)
    · rintro b q ⟨h, hg, hb⟩
      have hne := Slab.Sound.ne_next sound hg
      exact ⟨hne, h, ((hget b).trans (if_neg hne)).trans hg, hb⟩
  · obtain ⟨k, hk, hn⟩ := hp p rfl
    have hget := Hubs.get?_create_child sound hk hn
    refine ⟨⟨_, (hget _).trans (if_pos rfl), rfl, rfl, rfl⟩, ?_⟩
    rintro b q ⟨h, hg, hst, hs, hq⟩
    have hne := Slab.Sound.ne_next sound hg
    refine ⟨hne, ?_⟩
    by_cases hbp : b = p
    · subst hbp
      obtain rfl : k = h := some.inj (hk.symm.trans hg)
      refine ⟨k.withChild, ?_, hst, hs, hq⟩
      exact ((hget b).trans (if_neg hne)).trans (if_pos rfl)
    · exact ⟨h, (((hget b).trans (if_neg hne)).trans (if_neg hbp)).trans hg, hst, hs, hq⟩

lemma InOrder.createHub (o : InOrder Q X S K M e) (parent : Option HubId)
    (hp : ∀ p, parent = some p → .drive p ∈ M) (Q' : (HubId → ℕ) → Prop)
    (hQ : ∀ birth birth', Q birth → (∀ p ∈ e.hubs.entries, birth' p.1 = birth p.1) →
      (∀ m ∈ M, birth' m.hub < birth' (e.createHub parent).1) → Q' birth') :
    InOrder Q' X S K (.drive (e.createHub parent).1 :: M) (e.createHub parent).2 ∧
      (e.createHub parent).2.weight = e.weight + {low 3} ∧
      (e.createHub parent).2.Bare (e.createHub parent).1 parent ∧
      ∀ b q, e.Bare b q → b ≠ (e.createHub parent).1 ∧ (e.createHub parent).2.Bare b q := by
  obtain ⟨b, hforks, hweight⟩ := o.solvent.create parent hp Q' hQ
  refine ⟨o.rehub b (congrArg (S + ·) hforks), weight_hubs e hweight,
    bare_createHub o.hubs parent fun p he => ?_⟩
  obtain ⟨birth, clock, hbal, -⟩ := o.books
  obtain ⟨h, hh, hn, -⟩ := hbal.driven (hp p he)
  exact ⟨h, Slab.mem_entries.mp hh, hn⟩

lemma InOrder.subscribe (cb : Callback) (o : InOrder Q X (cb.forks + S) K (.drive d :: M) e)
    (hb : e.Bare c (some d)) (hd : cb.hub = d) :
    ∃ e', e.subscribe c cb = .ok e' ∧ InOrder Q X S K M e' ∧ e'.weight = e.weight + cb.weight ∧
      ∀ b q, b ≠ c → e.Bare b q → e'.Bare b q := by
  obtain ⟨h, hh, hn, hl, hp⟩ := hb
  obtain ⟨R, hR⟩ := frame hh
  obtain ⟨hubs, hsub, b, he, hforks, hweight⟩ := o.solvent.subscribe hR hn hl hp cb hd
  refine ⟨{ e with hubs }, ?_, o.rehub b ?_, weight_hubs e hweight, ?_⟩
  · simp [Engine.subscribe, hsub, Hubs.status?_of_entries hR, hn]
  · rw [hforks]
    ac_rfl
  · rintro b q hne ⟨k, hk, hbare⟩
    rw [hR] at hk
    rcases mem_add.mp hk with hk | hk
    · cases Multiset.mem_singleton.mp hk
      exact absurd rfl hne
    · exact ⟨k, he ▸ mem_add.mpr (Or.inr hk), hbare⟩

lemma InOrder.retain (o : InOrder Q X S K M e) (hb : e.Bare c q)
    (hQ : ∀ birth, Q birth → ∀ m ∈ M, birth m.hub < birth c) :
    InOrder Q X S K (.await c :: M) { e with hubs := e.hubs.retain c } ∧
      ({ e with hubs := e.hubs.retain c } : Engine).weight = e.weight := by
  obtain ⟨h, hh, -⟩ := hb
  obtain ⟨b, hforks, hweight⟩ := o.solvent.retain hh hQ
  refine ⟨o.rehub b (by rw [hforks]), ?_⟩
  exact (weight_hubs e (A := 0) (by rw [hweight, add_zero])).trans (add_zero _)

lemma InOrder.release {L : List Mark} (o : InOrder Q X S K (L ++ .await c :: M) e)
    (hL : ∀ m ∈ L, ∃ Y, m = .await Y) :
    ∃ h, e.hubs.get? c = some h ∧ (h.status.isSome = true →
      InOrder Q X S K (L ++ M) { e with hubs := e.hubs.release c } ∧
        ({ e with hubs := e.hubs.release c } : Engine).weight = e.weight) := by
  obtain ⟨h, hh, hrelease⟩ := o.solvent.release hL
  refine ⟨h, hh, fun hst => ?_⟩
  obtain ⟨b, hforks, hweight⟩ := hrelease hst
  refine ⟨o.rehub b (by rw [hforks]), ?_⟩
  exact (weight_hubs e (A := 0) (by rw [hweight, add_zero])).trans (add_zero _)

lemma InOrder.performed {d : Duty} {hubs : Hubs Callback} {ds : List Duty}
    (o : InOrder Q X S K M' e) (h : Performed Q e.drivers M e.hubs d hubs ds) :
    InOrder Q X S K (ds.flatMap Duty.marks ++ M) { e with hubs } ∧
      Lighter (({ e with hubs } : Engine).weight + (ds : Multiset Duty).bind Duty.weight)
        (e.weight + d.weight) := by
  refine ⟨o.rehub h.solvent (by rw [h.forks]), ?_⟩
  have hrest : ∀ hubs : Hubs Callback, ∀ V : Multiset Rank,
      ({ e with hubs } : Engine).weight + V = hubWeight hubs.entries + V +
        ((e.tasks : Multiset Task).bind Task.weight +
          Multiset.replicate e.jobs.length (low 6)) := by
    intro hubs V
    change hubWeight hubs.entries + _ + _ + V = _
    ac_rfl
  rw [hrest hubs, show e.weight + d.weight = _ from hrest e.hubs d.weight]
  exact h.lighter.add_right _

lemma InOrder.deliver {i : HubId} {k : ℕ} {s : Int}
    (o : InOrder Q X S K (.deliver i s k :: M) e) (keys : List ℕ) :
    ∃ cb hubs, e.hubs.perform (.deliver i s (k :: keys)) =
        (hubs, some (cb, s), [.deliver i s keys]) ∧
      InOrder Q X (cb.forks + S) K (.drive cb.hub :: M) { e with hubs } ∧
      e.weight = ({ e with hubs } : Engine).weight + cb.weight := by
  obtain ⟨cb, hubs, hhubs, b, hforks, hweight⟩ := o.solvent.deliver keys
  refine ⟨cb, hubs, hhubs, o.rehub b ?_, weight_hubs { e with hubs } hweight⟩
  rw [hforks]
  ac_rfl

/-! ### Tasks -/

lemma Due.mono {j : Job} (hd : e.Due id j) (ht : ∀ t ∈ e.tasks, t.job? = some id → t ∈ e'.tasks)
    (hf : ∀ f, e.Feeds f id → e'.Feeds f id) : e'.Due id j := by
  unfold Due at hd ⊢
  split at hd
  · exact ⟨hd.1, hd.2.imp (fun h => ht _ h rfl) fun ⟨hq, f, h⟩ => ⟨hq, f, hf f h⟩⟩
  · exact ht _ hd rfl

lemma drivers_defer (e : Engine) (t : Task) : (e.defer t).drivers = t.hub?.toList + e.drivers := by
  simp only [drivers, defer, filterMap_append, List.filterMap_cons, filterMap_nil]
  rcases t.hub? with _ | d
  · simp
  · simp only [toList_some, ← coe_add]
    ac_rfl

lemma weight_defer (e : Engine) (t : Task) : (e.defer t).weight = e.weight + t.weight := by
  simp only [weight, defer, ← coe_add, add_bind, coe_singleton, singleton_bind]
  ac_rfl

lemma balanced_marks {birth : HubId → ℕ} {clock : ℕ} {E : Multiset HubEntry} {D : Multiset HubId} :
    Balanced birth clock E D (t.marks ++ M) ↔ Balanced birth clock E (t.hub?.toList + D) M := by
  rcases ht : t.hub? with _ | d
  · simp [Task.marks, ht]
  · simp only [Task.marks, ht, toList_some, List.map_cons, map_nil, cons_append,
      nil_append, coe_singleton, singleton_add]
    exact Balanced.drive_iff

lemma InOrder.defer (o : InOrder Q X S K (t.marks ++ M) e)
    (ht : ∀ hub, t ≠ .flush hub) : InOrder Q X S K M (e.defer t) := by
  obtain ⟨birth, clock, hbal, hq⟩ := o.books
  refine { o with
    books := ⟨birth, clock, ?_, hq⟩
    due := fun p hp hX => (o.due p hp hX).mono (fun u hu _ => mem_append_left _ hu) fun _ h => h
    flushes := fun hub hm => ?_ }
  · rw [drivers_defer]
    exact balanced_marks.mp hbal
  · rcases mem_append.mp hm with hm | hm
    · exact o.flushes hub hm
    · exact ht hub (List.mem_singleton.mp hm).symm

/-- A task that is taken from the queue leaves its hub in hand, or a job that it ends. -/
lemma InOrder.pop {ts : List Task} (o : InOrder Q X S K M e) (ht : e.tasks = t :: ts) :
    InOrder Q (t.job?.toList ++ X) S K (t.marks ++ M) (e.withTasks ts) ∧
      e.weight = (e.withTasks ts).weight + t.weight ∧ ∀ hub, t ≠ .flush hub := by
  obtain ⟨birth, clock, hbal, hq⟩ := o.books
  refine ⟨{ o with
    books := ⟨birth, clock, balanced_marks.mpr ?_, hq⟩
    due := fun p hp hX => ?_
    flushes := fun hub hm => o.flushes hub (ht ▸ mem_cons_of_mem _ hm) }, ?_, ?_⟩
  · have hd : e.drivers = t.hub?.toList + (e.withTasks ts).drivers := by
      simp only [drivers, ht, List.filterMap_cons]
      rcases t.hub? with _ | d
      · simp
      · simp [← cons_coe]
    exact hd ▸ hbal
  · have hX' : p.1 ∉ t.job?.toList ∧ p.1 ∉ X := by simpa using hX
    refine (o.due p hp hX'.2).mono (fun u hu hj => ?_) fun _ h => h
    rcases mem_cons.mp (ht ▸ hu) with rfl | hu
    · simp [hj] at hX'
    · exact hu
  · simp only [weight, ht, ← cons_coe, cons_bind]
    ac_rfl
  · rintro hub rfl
    exact o.flushes hub (ht ▸ mem_cons_self)

end Engine

end JobShell
