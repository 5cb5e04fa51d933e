import JobShell.Hub.Session
import JobShell.Proofs.Hub.Entries

/-!
Hubs and their past.

A scene is what there is of hubs at a moment: the hubs, the slots they were given in the order of
creation, the duties in hand and the hubs that are to be flushed. Every change of a scene is one of
a few kinds, and each is written down as notes, in which hubs go by their numbers, so that a slot
that is used again makes no trouble. What can be asked of a past is read off the notes: the children
of a hub, who of them reported, what was asked of it, and its completion.

The main statement here is `Run.sane`: the notes agree with the hubs. An open hub is never gone, a
hub completes once, and a subscriber waits until it is called or removed.
-/

namespace JobShell

open List Hubs Option Sound Hub

namespace Hub

/-- What is noted of hubs. A hub is created, perhaps below one that waits for it. A subscriber is
entered, removed or called. A hub that has no status is asked to take one, or sealed. It completes,
with the subscribers waiting then, and it reports to its parent. -/
inductive Note where
  | created (hub : ℕ) (parent : Option ℕ)
  | subscribed (hub key : ℕ)
  | removed (hub key : ℕ)
  | called (hub key : ℕ) (status : Int)
  | asked (hub : ℕ) (status : Int)
  | sealed (hub : ℕ)
  | completed (hub : ℕ) (status : Int) (waiting : List ℕ)
  | reported (hub parent : ℕ)
  deriving DecidableEq

abbrev Notes := List Note

/-- The hubs a note names. -/
def Note.hubs : Note → List ℕ
  | created n parent => n :: parent.toList
  | reported n parent => [n, parent]
  | subscribed n _ | removed n _ | called n _ _ | asked n _ | sealed n | completed n _ _ => [n]

/-! ### What a past says -/

/-- What the notes of one kind say of a hub. -/
def select {α : Type} (kind : Note → Option (ℕ × α)) (past : Notes) (hub : ℕ) : List α :=
  past.filterMap fun o => (kind o).bind fun p => if p.1 = hub then some p.2 else none

/-- The hubs created below a hub, in the order of creation. -/
def children (past : Notes) (hub : ℕ) : List ℕ :=
  select (fun | .created n (some p) => some (p, n) | _ => none) past hub

/-- The hubs that reported to a hub. -/
def reporters (past : Notes) (hub : ℕ) : List ℕ :=
  select (fun | .reported n p => some (p, n) | _ => none) past hub

/-- The statuses a hub was asked to take while it had none. -/
def asks (past : Notes) (hub : ℕ) : List Int :=
  select (fun | .asked n status => some (n, status) | _ => none) past hub

/-- The completions of a hub, with the subscribers that waited. -/
def completions (past : Notes) (hub : ℕ) : List (Int × List ℕ) :=
  select (fun | .completed n status waiting => some (n, status, waiting) | _ => none) past hub

/-- A subscriber was called or removed. -/
def Gone (past : Notes) (hub key : ℕ) : Prop :=
  (∃ status, .called hub key status ∈ past) ∨ .removed hub key ∈ past

section Past

open Note

variable {past os : Notes} {hub key n : ℕ} {status : Int}

lemma select_append {α : Type} (kind : Note → Option (ℕ × α)) :
    select kind (past ++ os) hub = select kind past hub ++ select kind os hub :=
  filterMap_append

lemma mem_select {α : Type} {kind : Note → Option (ℕ × α)} {a : α} :
    a ∈ select kind past hub ↔ ∃ o ∈ past, kind o = some (hub, a) := by
  simp only [select, mem_filterMap, bind_eq_some_iff]
  constructor
  · rintro ⟨o, ho, ⟨p, b⟩, hk, hp⟩
    split at hp
    · rename_i he
      cases hp
      cases he
      exact ⟨o, ho, hk⟩
    · cases hp
  · rintro ⟨o, ho, hk⟩
    exact ⟨o, ho, _, hk, by simp⟩

@[simp] lemma children_append : children (past ++ os) hub = children past hub ++ children os hub :=
  select_append _

@[simp] lemma reporters_append :
    reporters (past ++ os) hub = reporters past hub ++ reporters os hub :=
  select_append _

@[simp] lemma asks_append : asks (past ++ os) hub = asks past hub ++ asks os hub :=
  select_append _

@[simp] lemma completions_append :
    completions (past ++ os) hub = completions past hub ++ completions os hub :=
  select_append _

lemma select_singleton {α : Type} {kind : Note → Option (ℕ × α)} {o : Note} {a : α}
    (hk : kind o = some (n, a)) : select kind [o] hub = if n = hub then [a] else [] := by
  by_cases hn : n = hub <;> simp [select, hk, hn]

lemma children_created {p : ℕ} : children [created n (some p)] hub = if p = hub then [n] else [] :=
  select_singleton rfl

lemma reporters_reported {p : ℕ} : reporters [reported n p] hub = if p = hub then [n] else [] :=
  select_singleton rfl

lemma asks_asked : asks [asked n status] hub = if n = hub then [status] else [] :=
  select_singleton rfl

lemma completions_completed {waiting : List ℕ} :
    completions [completed n status waiting] hub = if n = hub then [(status, waiting)] else [] :=
  select_singleton rfl

lemma mem_select_note {α : Type} {kind : Note → Option (ℕ × α)} {a : α} {o : Note}
    (ho : kind o = some (hub, a)) (hk : ∀ o', kind o' = some (hub, a) → o' = o) :
    a ∈ select kind past hub ↔ o ∈ past := by
  rw [mem_select]
  constructor
  · rintro ⟨o', ho', h⟩
    exact hk o' h ▸ ho'
  · exact fun h => ⟨o, h, ho⟩

lemma mem_children : n ∈ children past hub ↔ created n (some hub) ∈ past :=
  mem_select_note rfl fun _ hk => by split at hk <;> cases hk; rfl

lemma mem_reporters : n ∈ reporters past hub ↔ reported n hub ∈ past :=
  mem_select_note rfl fun _ hk => by split at hk <;> cases hk; rfl

lemma mem_asks : status ∈ asks past hub ↔ asked hub status ∈ past :=
  mem_select_note rfl fun _ hk => by split at hk <;> cases hk; rfl

lemma mem_completions {waiting : List ℕ} :
    (status, waiting) ∈ completions past hub ↔ completed hub status waiting ∈ past :=
  mem_select_note rfl fun _ hk => by split at hk <;> cases hk; rfl

lemma gone_append : Gone (past ++ os) hub key ↔ Gone past hub key ∨ Gone os hub key := by
  simp only [Gone, mem_append, exists_or]
  tauto

lemma Gone.append (h : Gone past hub key) (os : Notes) : Gone (past ++ os) hub key :=
  gone_append.mpr (.inl h)

end Past

variable {κ : Type}

/-- The keys of the subscribers that wait. -/
def keys (h : Hub κ) : List ℕ := h.subscribers.map (·.1)

lemma mem_keys_leave {h : Hub κ} {key key' : ℕ} :
    key' ∈ (h.without key).keys ↔ key' ∈ h.keys ∧ key' ≠ key := by
  simp only [keys, without, List.mem_map, mem_filter, bne_iff_ne]
  constructor
  · rintro ⟨p, ⟨hp, hne⟩, rfl⟩
    exact ⟨⟨p, hp, rfl⟩, hne⟩
  · rintro ⟨⟨p, hp, rfl⟩, hne⟩
    exact ⟨p, ⟨hp, hne⟩, rfl⟩

/-- What those who know nothing of its children see of a hub. -/
def aspect (h : Hub κ) : Option Int × List ℕ × ℕ := (h.status, h.keys, h.nextKey)

end Hub

namespace Duty

/-- What is noted when the open hub of this number heeds a duty. -/
def heeded (past : List Hub.Note) (n : ℕ) : Duty → List Hub.Note
  | .notify _ status => [.asked n status]
  | .sealOff _ => [.sealed n]
  | .report _ order _ _ => ((Hub.children past n)[order]?).toList.map (.reported · n)
  | .deliver .. | .settle _ => []

end Duty

namespace Hubs

open Hub

variable {κ : Type} {hs : Hubs κ} {slot : HubId} {h : Hub κ} {d : Duty}

lemma map_update {β : Type} {g : Hub κ → β} {f : Hub κ → Hub κ} (hf : ∀ h, g (f h) = g h)
    (slot k : HubId) : ((hs.update slot f).get? k).map g = (hs.get? k).map g := by
  rw [get?_update]
  split
  · rename_i hk
    rw [hk, Option.map_map]
    exact congrArg (Option.map · (hs.get? slot)) (funext hf)
  · rfl

/-- What shows nothing of the place of a hub in its family. -/
def Outward {β : Type} (g : Hub κ → β) : Prop :=
  ∀ h parent order nextOrder pending, g { h with parent, order, nextOrder, pending } = g h

lemma map_addChild {β : Type} {g : Hub κ → β} (hg : Outward g) (parent child k : HubId) :
    ((hs.addChild parent child).get? k).map g = (hs.get? k).map g := by
  unfold addChild
  split
  · rfl
  · split
    · rfl
    · refine (map_update ?_ child k).trans (map_update ?_ parent k)
      · exact fun h => hg h _ _ _ _
      · exact fun h => hg h _ _ _ _

/-- A hub that is created is empty, and the others show the same. -/
lemma map_create {β : Type} {g : Hub κ → β} (hg : Outward g) (hs1 : hs.Sound)
    (parent : Option HubId) (k : HubId) :
    ((hs.create parent).2.get? k).map g =
      if k = hs.next then some (g {}) else (hs.get? k).map g := by
  have hinsert : ((hs.insert {}).get? k).map g =
      if k = hs.next then some (g {}) else (hs.get? k).map g := by
    rw [Slab.Sound.get?_insert hs1]
    split <;> rfl
  cases parent with
  | none => exact hinsert
  | some p => exact (map_addChild hg p hs.next k).trans hinsert

end Hubs

namespace Hub

/-! ### The numbers of hubs -/

namespace Session

/-- The number of the hub that was created last in a slot. -/
def tenant (s : Session) (slot : HubId) : ℕ :=
  s.handles.length - 1 - s.handles.reverse.idxOf slot

variable {s : Session} {slot : HubId}

lemma getElem?_tenant (h : slot ∈ s.handles) : s.handles[s.tenant slot]? = some slot := by
  have hlt : s.handles.reverse.idxOf slot < s.handles.reverse.length :=
    idxOf_lt_length_of_mem (mem_reverse.mpr h)
  have hget := getElem_idxOf hlt
  rw [getElem_reverse] at hget
  rw [tenant, getElem?_eq_some_iff]
  exact ⟨_, hget⟩

lemma tenant_of_snoc {s' : Session} {new : HubId} (h : s'.handles = s.handles ++ [new]) :
    s'.tenant new = s.handles.length := by
  simp [tenant, h]

lemma tenant_of_snoc_ne {s' : Session} {new : HubId} (h : s'.handles = s.handles ++ [new])
    (hne : slot ≠ new) : s'.tenant slot = s.tenant slot := by
  simp only [tenant, h, length_append, length_singleton, reverse_append,
    reverse_cons, reverse_nil, nil_append, cons_append,
    idxOf_cons_ne _ hne.symm]
  omega

lemma tenant_ne {k : HubId} (hs : slot ∈ s.handles) (hk : k ∈ s.handles)
    (hne : k ≠ slot) : s.tenant k ≠ s.tenant slot := by
  intro he
  have h := getElem?_tenant hk
  rw [he, getElem?_tenant hs] at h
  exact hne (some.inj h).symm

end Session

/-- What there is of hubs at a moment. -/
structure Scene (κ : Type) where
  hubs : Hubs κ := {}
  /-- The slots of the hubs in the order of their creation. -/
  handles : List HubId := []
  duties : List Duty := []
  /-- The hubs that are to be flushed in some later turn. -/
  flushes : List HubId := []

namespace Scene

open Note

variable {κ : Type} {ds : List Duty}

/-- The number of the hub that was created last in a slot. -/
def tenant (sc : Scene κ) (slot : HubId) : ℕ := Session.tenant { handles := sc.handles } slot

/-- The number of the open hub in a slot. -/
def openHub? (sc : Scene κ) (slot : HubId) : Option ℕ :=
  (sc.hubs.get? slot).bind fun h => if h.status.isNone then some (sc.tenant slot) else none

/-- A scene with one more hub. -/
abbrev withHub (sc : Scene κ) (parent : Option HubId) : Scene κ :=
  { sc with hubs := (sc.hubs.create parent).2, handles := sc.handles ++ [sc.hubs.next] }

/-- A scene in which one hub changes, with the duties that there are then. -/
abbrev withUpdate (sc : Scene κ) (slot : HubId) (f : Hub κ → Hub κ) (duties : List Duty) :
    Scene κ :=
  { sc with hubs := sc.hubs.update slot f, duties }

/-- A duty that changes nothing and leaves nothing to do. -/
def Idle (sc : Scene κ) : Duty → Prop
  | .notify slot _ | .sealOff slot | .report slot .. =>
    ∀ h, sc.hubs.get? slot = some h → h.status.isSome = true
  | .deliver slot _ keys => keys = [] ∨ sc.hubs.get? slot = none
  | .settle slot => (sc.hubs.get? slot).any Hub.isSpent = false

/-- The next duty is one for an open hub. -/
structure Asked (sc : Scene κ) (slot : HubId) (h : Hub κ) (d : Duty) (ds : List Duty) : Prop where
  duties : sc.duties = d :: ds
  target : d.target? = some slot
  hub : sc.hubs.get? slot = some h
  running : h.status = none

/-- All that can happen to a scene with a past, with the notes of it. Unless the run is free,
children are attached by creating them below a hub that is there. Whoever removes a subscriber or
no longer retains a hub has to see whether the hub is spent. -/
inductive Change (free : Bool) (past : Notes) (sc : Scene κ) : Notes → Scene κ → Prop where
  | created (parent : Option HubId)
      (hp : free = true ∨ ∀ p, parent = some p → (sc.hubs.get? p).isSome = true) :
      Change free past sc [.created sc.handles.length (parent.bind sc.openHub?)] (sc.withHub parent)
  | attached (hf : free = true) (parent child : HubId) :
      Change free past sc [] { sc with hubs := sc.hubs.addChild parent child }
  | subscribed {slot : HubId} {h : Hub κ} (hg : sc.hubs.get? slot = some h) (callback : κ) :
      Change free past sc [.subscribed (sc.tenant slot) h.nextKey]
        { sc with
          hubs := sc.hubs.update slot (·.subscribed callback)
          flushes := if h.status.isSome then sc.flushes ++ [slot] else sc.flushes }
  | removed {slot : HubId} {h : Hub κ} {key : ℕ} (hg : sc.hubs.get? slot = some h)
      (hk : key ∈ h.keys) :
      Change free past sc [.removed (sc.tenant slot) key]
        (sc.withUpdate slot (·.without key) (.settle slot :: sc.duties))
  | retained (slot : HubId) : Change free past sc [] { sc with hubs := sc.hubs.retain slot }
  | released (slot : HubId) :
      Change free past sc []
        (sc.withUpdate slot Hub.released (.settle slot :: sc.duties))
  | notified (slot : HubId) (status : Int) :
      Change free past sc [] { sc with duties := .notify slot status :: sc.duties }
  | sealing (slot : HubId) :
      Change free past sc [] { sc with duties := .sealOff slot :: sc.duties }
  | flushed {slot : HubId} {flushes1 flushes2 : List HubId}
      (hf : sc.flushes = flushes1 ++ slot :: flushes2) :
      Change free past sc []
        { sc with
          duties := sc.hubs.flush slot ++ sc.duties
          flushes := flushes1 ++ flushes2 }
  | idle {d : Duty} {ds : List Duty} (hd : sc.duties = d :: ds) (hi : sc.Idle d) :
      Change free past sc [] { sc with duties := ds }
  | skipped {slot : HubId} {h : Hub κ} {status : Int} {key : ℕ} {keys : List ℕ} {ds : List Duty}
      (hd : sc.duties = .deliver slot status (key :: keys) :: ds)
      (hg : sc.hubs.get? slot = some h) (hk : key ∉ h.keys) :
      Change free past sc [] { sc with duties := .deliver slot status keys :: ds }
  | called {slot : HubId} {h : Hub κ} {status : Int} {key : ℕ} {keys : List ℕ} {ds : List Duty}
      (hd : sc.duties = .deliver slot status (key :: keys) :: ds)
      (hg : sc.hubs.get? slot = some h) (hk : key ∈ h.keys) :
      Change free past sc [.called (sc.tenant slot) key status]
        (sc.withUpdate slot (·.without key) (.deliver slot status keys :: ds))
  | heeded {slot : HubId} {h : Hub κ} {d : Duty} {ds : List Duty} (ha : sc.Asked slot h d ds)
      (hw : ¬ (h.heed d).IsDue) :
      Change free past sc (d.heeded past (sc.tenant slot))
        (sc.withUpdate slot (fun _ => h.heed d) ds)
  | completed {slot : HubId} {h : Hub κ} {d : Duty} {ds : List Duty} (ha : sc.Asked slot h d ds)
      (hdue : (h.heed d).IsDue) :
      Change free past sc
        (d.heeded past (sc.tenant slot) ++ [.completed (sc.tenant slot) (h.verdict d) h.keys])
        (sc.withUpdate slot (fun _ => h.fulfil d) (h.duties slot (h.verdict d) ++ ds))
  | dropped {slot : HubId} {h : Hub κ} {ds : List Duty} (hd : sc.duties = .settle slot :: ds)
      (hg : sc.hubs.get? slot = some h) (hs : h.isSpent = true) :
      Change free past sc [] { sc with hubs := sc.hubs.erase slot, duties := ds }

/-- Scenes that come about, with their past. -/
inductive Run (free : Bool) : Notes → Scene κ → Prop where
  | start {hubs : Hubs κ} (sound : hubs.Sound) (empty : ∀ slot, hubs.get? slot = none) :
      Run free [] { hubs }
  | move {past os : Notes} {sc sc' : Scene κ} (run : Run free past sc)
      (hc : Change free past sc os sc') : Run free (past ++ os) sc'

/-- What every change keeps. -/
def Stable (free : Bool) (P : Notes → Scene κ → Prop) : Prop :=
  ∀ past sc os sc', P past sc → Change free past sc os sc' → P (past ++ os) sc'

lemma stable_run (free : Bool) : Stable free (Run (κ := κ) free) := fun _ _ _ _ => .move

variable {past os : Notes} {sc sc' : Scene κ} {slot k : HubId} {n key : ℕ} {h h' : Hub κ}

lemma getElem?_tenant (hm : slot ∈ sc.handles) : sc.handles[sc.tenant slot]? = some slot :=
  @Session.getElem?_tenant { handles := sc.handles } slot hm

lemma tenant_lt (hm : slot ∈ sc.handles) : sc.tenant slot < sc.handles.length :=
  (List.getElem?_eq_some_iff.mp (getElem?_tenant hm)).1

lemma tenant_eq (hh : sc'.handles = sc.handles) (slot : HubId) :
    sc'.tenant slot = sc.tenant slot := by
  rw [tenant, tenant, hh]

lemma tenant_inj (hs : slot ∈ sc.handles) (hk : k ∈ sc.handles)
    (he : sc.tenant k = sc.tenant slot) : k = slot := by
  by_contra hne
  exact @Session.tenant_ne { handles := sc.handles } slot k hs hk hne he

lemma tenant_new (hh : sc'.handles = sc.handles ++ [slot]) : sc'.tenant slot = sc.handles.length :=
  @Session.tenant_of_snoc { handles := sc.handles } { handles := sc'.handles } slot hh

lemma tenant_old (hh : sc'.handles = sc.handles ++ [slot]) (hk : k ≠ slot) :
    sc'.tenant k = sc.tenant k :=
  @Session.tenant_of_snoc_ne { handles := sc.handles } k { handles := sc'.handles } slot hh hk

lemma exists_openHub (ho : sc.openHub? slot = some n) :
    ∃ h, sc.hubs.get? slot = some h ∧ h.status = none ∧ sc.tenant slot = n := by
  obtain ⟨h, hg, hn⟩ := bind_eq_some_iff.mp ho
  split at hn
  · rename_i hst
    exact ⟨h, hg, by simpa using hst, some.inj hn⟩
  · cases hn

/-! ### The notes agree with the hubs -/

/-- What is noted of a hub that is there. -/
structure Tells (past : Notes) (n : ℕ) (h : Hub κ) : Prop where
  running : h.status = none → completions past n = []
  done : ∀ status, h.status = some status → ∃ waiting, completions past n = [(status, waiting)]
  waits : ∀ key, key ∈ h.keys ↔ .subscribed n key ∈ past ∧ ¬ Gone past n key
  fresh : ∀ key, h.nextKey ≤ key → .subscribed n key ∉ past ∧ ¬ Gone past n key
  nodup : h.keys.Nodup

/-- What holds of every scene and its past. -/
structure Sane (past : Notes) (sc : Scene κ) : Prop where
  sound : sc.hubs.Sound
  handle : ∀ slot h, sc.hubs.get? slot = some h → slot ∈ sc.handles
  noted : ∀ o ∈ past, ∀ n ∈ o.hubs, n < sc.handles.length
  tells : ∀ slot h, sc.hubs.get? slot = some h → Tells past (sc.tenant slot) h
  stored : ∀ n < sc.handles.length, completions past n = [] →
    ∃ slot h, sc.hubs.get? slot = some h ∧ sc.tenant slot = n
  once : ∀ n, (completions past n).length ≤ 1
  gone : ∀ n key, .subscribed n key ∈ past →
    (∀ slot h, sc.hubs.get? slot = some h → sc.tenant slot ≠ n) → Gone past n key
  waited : ∀ n status waiting, .completed n status waiting ∈ past →
    ∀ key ∈ waiting, .subscribed n key ∈ past

/-- Nothing is noted of the completion of a hub or of its subscribers. -/
structure Quiet (os : Notes) (n : ℕ) : Prop where
  completions : completions os n = []
  subscribed : ∀ key, .subscribed n key ∉ os
  gone : ∀ key, ¬ Gone os n key

lemma Quiet.not_completed (hq : Quiet os n) {status : Int} {waiting : List ℕ} :
    .completed n status waiting ∉ os := by
  intro hm
  have hc := mem_completions.mpr hm
  rw [hq.completions] at hc
  cases hc

lemma Tells.append (ht : Tells past n h) (hq : Quiet os n) : Tells (past ++ os) n h := by
  have hsub : ∀ key, .subscribed n key ∈ past ++ os ↔ .subscribed n key ∈ past := fun key => by
    rw [mem_append, or_iff_left (hq.subscribed key)]
  have hgone : ∀ key, Gone (past ++ os) n key ↔ Gone past n key := fun key => by
    rw [gone_append, or_iff_left (hq.gone key)]
  have hcomp : completions (past ++ os) n = completions past n := by
    rw [completions_append, hq.completions, append_nil]
  refine ⟨hcomp ▸ ht.running, hcomp ▸ ht.done, fun key => ?_, fun key hk => ?_, ht.nodup⟩
  · rw [hsub, hgone]
    exact ht.waits key
  · rw [hsub, hgone]
    exact ht.fresh key hk

lemma Tells.congr (ht : Tells past n h) (hf : h'.aspect = h.aspect) : Tells past n h' := by
  obtain ⟨hst, hf⟩ := Prod.mk.inj hf
  obtain ⟨hk, hnext⟩ := Prod.mk.inj hf
  exact ⟨hst ▸ ht.running, hst ▸ ht.done, hk ▸ ht.waits, hnext ▸ ht.fresh, hk ▸ ht.nodup⟩

lemma Tells.kept (ht : Tells past n h) (hsub : .subscribed n key ∈ past) :
    Gone past n key ∨ key ∈ h.keys :=
  or_iff_not_imp_left.mpr fun hgone => (ht.waits key).mpr ⟨hsub, hgone⟩

lemma Tells.key_lt (ht : Tells past n h) (hk : key ∈ h.keys) : key < h.nextKey := by
  by_contra hle
  exact (ht.fresh key (not_lt.mp hle)).1 ((ht.waits key).mp hk).1

lemma outward_aspect : Outward (aspect (κ := κ)) := fun _ _ _ _ _ => rfl

lemma exists_of_map {β : Type} {g : Hub κ → β} {a b : Option (Hub κ)} (hf : a.map g = b.map g)
    (hb : b = some h) : ∃ h', a = some h' ∧ g h' = g h := by
  rw [hb, map_some] at hf
  exact map_eq_some_iff.mp hf

lemma Sane.congr (hs : Sane past sc) (sound : sc'.hubs.Sound)
    (aspects : ∀ k, (sc'.hubs.get? k).map aspect = (sc.hubs.get? k).map aspect)
    (handles : sc'.handles = sc.handles) : Sane past sc' := by
  have htenant := tenant_eq handles
  refine ⟨sound, ?_, ?_, ?_, ?_, hs.once, ?_, hs.waited⟩
  · intro k hub hk
    obtain ⟨old, hold, -⟩ := exists_of_map (aspects k).symm hk
    exact handles ▸ hs.handle k old hold
  · exact handles ▸ hs.noted
  · intro k hub hk
    obtain ⟨old, hold, haspect⟩ := exists_of_map (aspects k).symm hk
    rw [htenant]
    exact (hs.tells k old hold).congr haspect.symm
  · intro n hn hc
    obtain ⟨k, old, hold, hkn⟩ := hs.stored n (handles ▸ hn) hc
    obtain ⟨hub, hk, -⟩ := exists_of_map (aspects k) hold
    exact ⟨k, hub, hk, (htenant k).trans hkn⟩
  · intro n key hk hno
    refine hs.gone n key hk fun k old hold => ?_
    obtain ⟨hub, hk, -⟩ := exists_of_map (aspects k) hold
    exact htenant k ▸ hno k hub hk

lemma select_eq_nil {α : Type} {kind : Note → Option (ℕ × α)}
    (hkind : ∀ o a, kind o = some (n, a) → n ∈ o.hubs) (hn : ∀ o ∈ past, n ∉ o.hubs) :
    select kind past n = [] := by
  refine eq_nil_iff_forall_not_mem.mpr fun a ha => ?_
  obtain ⟨o, ho, hk⟩ := mem_select.mp ha
  exact hn o ho (hkind o a hk)

lemma Sane.created (hs : Sane past sc) (parent : Option HubId) (parent' : Option ℕ)
    (hp : ∀ p ∈ parent', p < sc.handles.length) :
    Sane (past ++ [.created sc.handles.length parent']) (sc.withHub parent) := by
  set sc' := sc.withHub parent with hsc
  have hlen : sc'.handles.length = sc.handles.length + 1 := by simp [hsc]
  have hnew : sc'.tenant sc.hubs.next = sc.handles.length := tenant_new rfl
  have hold : ∀ k, k ≠ sc.hubs.next → sc'.tenant k = sc.tenant k := fun k => tenant_old rfl
  have hfresh : ∀ o ∈ past, sc.handles.length ∉ o.hubs := fun o ho hm =>
    (hs.noted o ho _ hm).false
  have hquiet : ∀ n, Quiet [.created sc.handles.length parent'] n := fun n =>
    ⟨rfl, by simp, by simp [Gone]⟩
  have haspect := map_create outward_aspect hs.sound parent
  -- the hubs that were there are there, and show the same
  have hstays : ∀ k old, sc.hubs.get? k = some old →
      ∃ hub, sc'.hubs.get? k = some hub ∧ sc'.tenant k = sc.tenant k := by
    intro k old ho
    have hne := hs.sound.ne_next ho
    have hf := haspect k
    rw [if_neg hne] at hf
    obtain ⟨hub, hk, -⟩ := exists_of_map hf ho
    exact ⟨hub, hk, hold k hne⟩
  have hcreated : completions past sc.handles.length = [] :=
    select_eq_nil (by rintro o a hk; split at hk <;> cases hk; simp [Note.hubs]) hfresh
  refine ⟨create hs.sound parent, ?_, ?_, ?_, ?_, ?_, ?_, ?_⟩
  · intro k hub hk
    by_cases hkn : k = sc.hubs.next
    · simp [hsc, hkn]
    · have hf := haspect k
      rw [if_neg hkn] at hf
      obtain ⟨old, hold, -⟩ := exists_of_map hf.symm hk
      exact mem_append_left _ (hs.handle k old hold)
  · intro o ho n hn
    rw [hlen]
    rcases mem_append.mp ho with ho | ho
    · exact Nat.lt_succ_of_lt (hs.noted o ho n hn)
    · rw [mem_singleton.mp ho] at hn
      rcases mem_cons.mp hn with rfl | hn
      · exact Nat.lt_succ_self _
      · exact Nat.lt_succ_of_lt (hp n (mem_toList.mp hn))
  · intro k hub hk
    have hf := haspect k
    by_cases hkn : k = sc.hubs.next
    · rw [if_pos hkn] at hf
      rw [hkn, hnew]
      have hf' : hub.aspect = (none, [], 0) := by
        rw [show Slab.get? (sc.hubs.create parent).2 k = some hub from hk] at hf
        exact some.inj hf
      have hempty : Tells past sc.handles.length ({} : Hub κ) := by
        refine ⟨fun _ => hcreated, nofun, fun key => ?_, fun key _ => ⟨?_, ?_⟩, .nil⟩
        · exact iff_of_false (by simp [keys]) fun h => hfresh _ h.1 (by simp [Note.hubs])
        · exact fun h => hfresh _ h (by simp [Note.hubs])
        · rintro (⟨status, h⟩ | h) <;> exact hfresh _ h (by simp [Note.hubs])
      exact (hempty.congr hf').append (hquiet _)
    · rw [if_neg hkn] at hf
      obtain ⟨old, ho, hfo⟩ := exists_of_map hf.symm hk
      rw [hold k hkn]
      exact ((hs.tells k old ho).congr hfo.symm).append (hquiet _)
  · intro n hn hc
    rw [completions_append, append_eq_nil_iff] at hc
    rcases Nat.lt_succ_iff_lt_or_eq.mp (hlen ▸ hn) with hn | rfl
    · obtain ⟨k, old, ho, hkn⟩ := hs.stored n hn hc.1
      obtain ⟨hub, hk, hsame⟩ := hstays k old ho
      exact ⟨k, hub, hk, hsame.trans hkn⟩
    · have hf := haspect sc.hubs.next
      rw [if_pos rfl] at hf
      obtain ⟨hub, hk, -⟩ := map_eq_some_iff.mp hf
      exact ⟨_, hub, hk, hnew⟩
  · intro n
    rw [completions_append, (hquiet n).completions, append_nil]
    exact hs.once n
  · intro n key hk hno
    have hk' := (mem_append.mp hk).resolve_right ((hquiet n).subscribed key)
    refine (hs.gone n key hk' fun k old ho => ?_).append _
    obtain ⟨hub, hkub, hsame⟩ := hstays k old ho
    exact hsame ▸ hno k hub hkub
  · intro n status waiting hm key hk
    have hm' : .completed n status waiting ∈ past := by simpa using hm
    exact mem_append_left _ (hs.waited n status waiting hm' key hk)

lemma quiet_heeded (past : Notes) (m : ℕ) (d : Duty) (n : ℕ) : Quiet (d.heeded past m) n := by
  cases d with
  | report p order =>
    rcases hc : (children past m)[order]? with _ | child
    · constructor <;> simp [Duty.heeded, hc, Gone, completions, select]
    · constructor <;> simp [Duty.heeded, hc, Gone, completions, select]
  | _ => constructor <;> simp [Duty.heeded, Gone, completions, select]

lemma aspect_heed (h : Hub κ) (d : Duty) : (h.heed d).aspect = h.aspect := by
  cases d <;> rfl

section

variable (hs : Sane past sc) (hg : sc.hubs.get? slot = some h)
include hs hg

lemma Sane.touch {f : Hub κ → Hub κ}
    (hubs : sc'.hubs = sc.hubs.update slot f) (handles : sc'.handles = sc.handles)
    (noted : ∀ o ∈ os, ∀ n ∈ o.hubs, n < sc.handles.length)
    (quiet : ∀ n, n ≠ sc.tenant slot → Quiet os n)
    (tells : Tells (past ++ os) (sc.tenant slot) (f h))
    (waited : ∀ n status waiting, .completed n status waiting ∈ os → waiting = (f h).keys) :
    Sane (past ++ os) sc' := by
  have hg' : sc'.hubs.get? slot = some (f h) := hubs ▸ get?_update_self hg f
  have rest : ∀ k, k ≠ slot → sc'.hubs.get? k = sc.hubs.get? k := fun k hne =>
    hubs ▸ get?_update_of_ne _ _ hne
  have hmem := hs.handle slot h hg
  have htenant := tenant_eq handles
  have hone : (completions (past ++ os) (sc.tenant slot)).length ≤ 1 := by
    rcases hst : (f h).status with _ | status
    · simp [tells.running hst]
    · obtain ⟨waiting, hw⟩ := tells.done status hst
      simp [hw]
  refine ⟨hubs ▸ update hs.sound _ _, ?_, ?_, ?_, ?_, ?_, ?_, ?_⟩
  · intro k hub hk
    rw [handles]
    by_cases hne : k = slot
    · exact hne ▸ hmem
    · exact hs.handle k hub (rest k hne ▸ hk)
  · intro o ho n hn
    rw [handles]
    rcases mem_append.mp ho with ho | ho
    · exact hs.noted o ho n hn
    · exact noted o ho n hn
  · intro k hub hk
    rw [htenant]
    by_cases hne : k = slot
    · subst hne
      rw [hg'] at hk
      exact some.inj hk ▸ tells
    · rw [rest k hne] at hk
      have hneq : sc.tenant k ≠ sc.tenant slot := fun he =>
        hne (tenant_inj hmem (hs.handle k hub hk) he)
      exact (hs.tells k hub hk).append (quiet _ hneq)
  · intro n hn hc
    rw [handles] at hn
    rw [completions_append, append_eq_nil_iff] at hc
    obtain ⟨k, hub, hk, hkn⟩ := hs.stored n hn hc.1
    by_cases hne : k = slot
    · exact ⟨slot, _, hg', by rw [htenant, ← hne, hkn]⟩
    · exact ⟨k, hub, (rest k hne).trans hk, by rw [htenant, hkn]⟩
  · intro n
    by_cases hn : n = sc.tenant slot
    · exact hn ▸ hone
    · rw [completions_append, (quiet n hn).completions, append_nil]
      exact hs.once n
  · intro n key hk hno
    have hn : n ≠ sc.tenant slot := fun he => hno slot _ hg' (by rw [htenant, he])
    have hold := (mem_append.mp hk).resolve_right ((quiet n hn).subscribed key)
    refine (hs.gone n key hold fun k hub hk' => ?_).append os
    by_cases hne : k = slot
    · rw [hne]
      exact hn.symm
    · rw [← htenant]
      exact hno k hub ((rest k hne).trans hk')
  · intro n status waiting hm key hk
    rcases mem_append.mp hm with hm | hm
    · exact mem_append_left _ (hs.waited n status waiting hm key hk)
    · have hn : n = sc.tenant slot := by
        by_contra hne
        exact (quiet n hne).not_completed hm
      rw [waited n status waiting hm] at hk
      exact hn ▸ ((tells.waits key).mp hk).1

lemma Sane.subscribed (callback : κ) (hubs : sc'.hubs = sc.hubs.update slot (·.subscribed callback))
    (handles : sc'.handles = sc.handles) :
    Sane (past ++ [.subscribed (sc.tenant slot) h.nextKey]) sc' := by
  have ht := hs.tells slot h hg
  have hlt := tenant_lt (hs.handle slot h hg)
  have hkeys : (h.subscribed callback).keys = h.keys ++ [h.nextKey] := by
    simp [Hub.keys, Hub.subscribed]
  refine hs.touch hg hubs handles (by simpa [Note.hubs] using hlt)
    (fun n hn => ⟨rfl, by simp [hn], by simp [Gone]⟩) ?_ (by simp)
  have hgone : ∀ key, Gone (past ++ [.subscribed (sc.tenant slot) h.nextKey]) (sc.tenant slot) key ↔
      Gone past (sc.tenant slot) key := fun key => by simp [Gone]
  have hcomp : completions (past ++ [.subscribed (sc.tenant slot) h.nextKey]) (sc.tenant slot) =
      completions past (sc.tenant slot) := by
    rw [completions_append]
    exact append_nil _
  refine ⟨hcomp ▸ ht.running, hcomp ▸ ht.done, fun key => ?_, fun key hk => ?_, ?_⟩
  · rw [hkeys, hgone, mem_append, mem_append, ht.waits, mem_singleton, mem_singleton]
    constructor
    · rintro (⟨hsub, hno⟩ | rfl)
      · exact ⟨.inl hsub, hno⟩
      · exact ⟨.inr rfl, (ht.fresh _ le_rfl).2⟩
    · rintro ⟨hsub | he, hno⟩
      · exact .inl ⟨hsub, hno⟩
      · cases he
        exact .inr rfl
  · have hlt : h.nextKey < key := hk
    rw [hgone]
    exact ⟨by simp [(ht.fresh key hlt.le).1, hlt.ne'], (ht.fresh key hlt.le).2⟩
  · rw [hkeys, ← concat_eq_append]
    exact ht.nodup.concat fun hm => (ht.key_lt hm).false

lemma Sane.leave (hk : key ∈ h.keys) (hubs : sc'.hubs = sc.hubs.update slot (·.without key))
    (handles : sc'.handles = sc.handles) {o : Note} (ho : o.hubs = [sc.tenant slot])
    (hgone : ∀ n key', Gone [o] n key' ↔ n = sc.tenant slot ∧ key' = key)
    (hcomp : ∀ n, completions [o] n = []) (hsub : ∀ n key', .subscribed n key' ≠ o) :
    Sane (past ++ [o]) sc' := by
  have ht := hs.tells slot h hg
  have hlt := tenant_lt (hs.handle slot h hg)
  have hsub' : ∀ n key', .subscribed n key' ∉ [o] := fun n key' hm =>
    hsub n key' (mem_singleton.mp hm)
  have hsame : completions (past ++ [o]) (sc.tenant slot) = completions past (sc.tenant slot) := by
    rw [completions_append, hcomp, append_nil]
  refine hs.touch hg hubs handles (by simpa [ho] using hlt)
    (fun n hn => ⟨hcomp n, hsub' n, fun key' h => hn ((hgone n key').mp h).1⟩) ?_
    fun n status waiting hm => ?_
  · refine ⟨hsame ▸ ht.running, hsame ▸ ht.done, fun key' => ?_, fun key' hk' => ?_, ?_⟩
    · rw [mem_keys_leave, ht.waits, mem_append, or_iff_left (hsub' _ _), gone_append, hgone]
      tauto
    · rw [mem_append, or_iff_left (hsub' _ _), gone_append, hgone]
      have hne : key' ≠ key := ((ht.key_lt hk).trans_le hk').ne'
      exact ⟨(ht.fresh key' hk').1, by simp [(ht.fresh key' hk').2, hne]⟩
    · exact ht.nodup.sublist (filter_sublist.map _)
  · have hc := mem_completions.mpr hm
    rw [hcomp n] at hc
    cases hc

lemma Sane.noted_heeded (d : Duty) :
    ∀ o ∈ d.heeded past (sc.tenant slot), ∀ n ∈ o.hubs, n < sc.handles.length := by
  have hlt := tenant_lt (hs.handle slot h hg)
  cases d with
  | report p order =>
    rcases hc : (children past (sc.tenant slot))[order]? with _ | child
    · simp [Duty.heeded, hc]
    · have hchild := hs.noted _ (mem_children.mp (mem_of_getElem? hc)) child (by simp [Note.hubs])
      simpa [Duty.heeded, hc, Note.hubs] using ⟨hchild, hlt⟩
  | notify | sealOff => simpa [Duty.heeded, Note.hubs] using hlt
  | _ => simp [Duty.heeded]

lemma Sane.heeded (d : Duty) (ds : List Duty) : Sane (past ++ d.heeded past (sc.tenant slot))
    (sc.withUpdate slot (fun _ => h.heed d) ds) := by
  have hq := quiet_heeded past (sc.tenant slot) d
  exact hs.touch hg rfl rfl (hs.noted_heeded hg d) (fun n _ => hq n)
    (((hs.tells slot h hg).append (hq _)).congr (aspect_heed h d))
    fun n _ _ hm => absurd hm (hq n).not_completed

lemma Sane.completed (hn : h.status = none) (d : Duty) (ds : List Duty) :
    Sane (past ++ (d.heeded past (sc.tenant slot) ++
        [.completed (sc.tenant slot) (h.verdict d) h.keys]))
      (sc.withUpdate slot (fun _ => h.fulfil d) ds) := by
  obtain ⟨hst, hsub, hkey, -⟩ := h.fulfil_eq d
  have hq := quiet_heeded past (sc.tenant slot) d
  have hkeys : (h.fulfil d).keys = h.keys := by rw [keys, hsub, keys]
  have ht := (hs.tells slot h hg).append (hq _)
  have hlt := tenant_lt (hs.handle slot h hg)
  refine hs.touch hg rfl rfl ?_ ?_ ?_ ?_
  · intro o ho
    rcases mem_append.mp ho with ho | ho
    · exact hs.noted_heeded hg d o ho
    · rw [mem_singleton.mp ho]
      simpa [Note.hubs] using hlt
  · intro n hne
    refine ⟨?_, fun key => ?_, fun key => ?_⟩
    · rw [completions_append, (hq n).completions]
      simp [completions, select, hne.symm]
    · simpa using (hq n).subscribed key
    · simpa [gone_append, Gone] using (hq n).gone key
  · have hsame : ∀ key, Gone ((past ++ d.heeded past (sc.tenant slot)) ++
        [.completed (sc.tenant slot) (h.verdict d) h.keys]) (sc.tenant slot) key ↔
          Gone (past ++ d.heeded past (sc.tenant slot)) (sc.tenant slot) key := fun key => by
      rw [gone_append, or_iff_left (by simp [Gone])]
    rw [← append_assoc]
    refine ⟨fun hn' => by simp [hst] at hn', fun status hs' => ?_, fun key => ?_, fun key hk => ?_,
      hkeys ▸ ht.nodup⟩
    · rw [hst] at hs'
      refine ⟨h.keys, ?_⟩
      rw [completions_append, ht.running hn, ← some.inj hs']
      simp [completions, select]
    · rw [hkeys, ht.waits, hsame, mem_append (s := past ++ _), or_iff_left (by simp)]
    · rw [hsame, mem_append (s := past ++ _), or_iff_left (by simp)]
      exact ht.fresh key (hkey ▸ hk)
  · intro n status waiting hm
    rcases mem_append.mp hm with hm | hm
    · exact absurd hm (hq n).not_completed
    · simp only [mem_singleton, Note.completed.injEq] at hm
      rw [hm.2.2, hkeys]

lemma Sane.dropped (hsp : h.isSpent = true)
    (hubs : sc'.hubs = sc.hubs.erase slot) (handles : sc'.handles = sc.handles) :
    Sane past sc' := by
  simp only [isSpent, Bool.and_eq_true, List.isEmpty_iff, isSome_iff_exists] at hsp
  obtain ⟨⟨⟨status, hst⟩, hempty⟩, -⟩ := hsp
  have ht := hs.tells slot h hg
  have htenant := tenant_eq handles
  have hget : ∀ k, sc'.hubs.get? k = if k = slot then none else sc.hubs.get? k := fun k => by
    rw [hubs, Slab.get?_erase]
  have hold : ∀ k hub, sc'.hubs.get? k = some hub → sc.hubs.get? k = some hub := by
    intro k hub hk
    rw [hget] at hk
    split at hk
    · cases hk
    · exact hk
  refine ⟨hubs ▸ hs.sound.erase slot, ?_, handles ▸ hs.noted, ?_, ?_, hs.once, ?_, hs.waited⟩
  · exact fun k hub hk => handles ▸ hs.handle k hub (hold k hub hk)
  · exact fun k hub hk => htenant k ▸ hs.tells k hub (hold k hub hk)
  · intro n hn hc
    obtain ⟨k, hub, hk, hkn⟩ := hs.stored n (handles ▸ hn) hc
    have hne : k ≠ slot := by
      rintro rfl
      rw [hg] at hk
      obtain ⟨waiting, hw⟩ := ht.done status hst
      rw [hkn, hc] at hw
      cases hw
    exact ⟨k, hub, by rw [hget, if_neg hne, hk], (htenant k).trans hkn⟩
  · intro n key hk hno
    by_cases hn : n = sc.tenant slot
    · refine (ht.kept (hn ▸ hk)).elim (fun hgone => hn ▸ hgone) fun hm => ?_
      simp [keys, hempty] at hm
    · refine hs.gone n key hk fun k hub hk' => ?_
      by_cases hne : k = slot
      · exact hne ▸ fun he => hn he.symm
      · exact htenant k ▸ hno k hub (by rw [hget, if_neg hne, hk'])

end

lemma Sane.change {free : Bool} (hs : Sane past sc) (hc : Change free past sc os sc') :
    Sane (past ++ os) sc' := by
  have hcongr : ∀ {duties flushes}, Sane (past ++ []) { sc with duties, flushes } := fun {_ _} => by
    rw [append_nil]
    exact hs.congr hs.sound (fun _ => rfl) rfl
  cases hc with
  | created parent hp =>
    refine hs.created parent _ fun p hm => ?_
    obtain ⟨slot, -, hopen⟩ := bind_eq_some_iff.mp hm
    obtain ⟨h, hg, -, rfl⟩ := exists_openHub hopen
    exact tenant_lt (hs.handle slot h hg)
  | attached hf parent child =>
    rw [append_nil]
    exact hs.congr (addChild hs.sound _ _) (map_addChild outward_aspect parent child) rfl
  | subscribed hg callback => exact hs.subscribed hg callback rfl rfl
  | @removed slot h key hg hk =>
    refine hs.leave hg hk ?_ ?_ (o := .removed (sc.tenant slot) key) rfl ?_ (fun n => rfl) nofun
    · rfl
    · rfl
    · simp [Gone]
  | retained slot =>
    rw [append_nil]
    refine hs.congr (retain hs.sound slot) (map_update ?_ slot) rfl
    exact fun _ => rfl
  | released slot =>
    rw [append_nil]
    refine hs.congr (update hs.sound slot _) (map_update ?_ slot) rfl
    exact fun _ => rfl
  | notified | sealing | flushed | idle | skipped => exact hcongr
  | @called slot h status key keys ds hd hg hk =>
    refine hs.leave hg hk ?_ ?_ (o := .called (sc.tenant slot) key status) rfl ?_ (fun n => rfl)
      nofun
    · rfl
    · rfl
    · simp [Gone]
  | heeded ha => exact hs.heeded ha.hub _ _
  | completed ha => exact hs.completed ha.hub ha.running _ _
  | dropped hd hg hsp =>
    rw [append_nil]
    exact hs.dropped hg hsp rfl rfl

lemma Run.sane {free : Bool} (run : Run free past sc) : Sane past sc := by
  induction run with
  | start sound empty =>
    refine ⟨sound, ?_, ?_, ?_, ?_, ?_, ?_, ?_⟩ <;> simp [empty, completions, select]
  | move run hc ih => exact ih.change hc

lemma Sane.completions_eq (hs : Sane past sc) {c : Int × List ℕ} (hm : c ∈ completions past n) :
    completions past n = [c] := by
  obtain ⟨c', hc⟩ := length_eq_one_iff.mp (le_antisymm (hs.once n) (length_pos_of_mem hm))
  rw [hc, mem_singleton] at hm
  rw [hc, hm]

lemma Sane.completions_eq_nil (hs : Sane (past ++ os) sc) (hn : completions past n ≠ []) :
    completions os n = [] := by
  have hone := hs.once n
  have hpos := length_pos_of_ne_nil hn
  rw [completions_append, length_append] at hone
  rw [← length_eq_zero_iff]
  omega

lemma Sane.status_iff (hs : Sane past sc) (hg : sc.hubs.get? slot = some h) (status : Int) :
    h.status = some status ↔ ∃ waiting, .completed (sc.tenant slot) status waiting ∈ past := by
  have htells := hs.tells slot h hg
  constructor
  · intro hst
    obtain ⟨waiting, hw⟩ := htells.done status hst
    exact ⟨waiting, mem_completions.mp (by rw [hw]; exact mem_singleton_self _)⟩
  · rintro ⟨waiting, hm⟩
    have hmem := mem_completions.mpr hm
    rcases hst : h.status with _ | st
    · rw [htells.running hst] at hmem
      cases hmem
    · obtain ⟨w, hw⟩ := htells.done st hst
      rw [hw, mem_singleton, Prod.mk.injEq] at hmem
      rw [hmem.1]

/-! ### Duties are done by changes -/

/-- The subscribers that wait for the hub in a slot. -/
def waiting (sc : Scene κ) (slot : HubId) : List ℕ := ((sc.hubs.get? slot).map Hub.keys).getD []

/-- What is noted when a duty is done. -/
def dutyNotes (past : Notes) (sc : Scene κ) (d : Duty) : Notes :=
  match d with
  | .notify slot _ | .sealOff slot | .report slot .. =>
    (sc.openHub? slot).elim [] fun n => d.heeded past n ++
      (((sc.hubs.perform d).1.status? slot).map (.completed n · (sc.waiting slot))).toList
  | .deliver slot status (key :: _) =>
    if key ∈ sc.waiting slot then [.called (sc.tenant slot) key status] else []
  | .deliver _ _ [] | .settle _ => []

lemma openHub?_eq_none (hc : ∀ h, sc.hubs.get? slot = some h → h.status.isSome = true) :
    sc.openHub? slot = none := by
  rcases hg : sc.hubs.get? slot with _ | h
  · simp [openHub?, hg]
  · simp [openHub?, hg, isSome_iff_ne_none.mp (hc h hg)]

lemma openHub?_eq_some (hg : sc.hubs.get? slot = some h) (hn : h.status = none) :
    sc.openHub? slot = some (sc.tenant slot) := by
  simp [openHub?, hg, hn]

lemma Change.target (free : Bool) (past : Notes) {d : Duty}
    (hd : sc.duties = d :: ds) (ht : d.target? = some slot) :
    Change free past sc
      ((sc.openHub? slot).elim [] fun n => d.heeded past n ++
        (((sc.hubs.perform d).1.status? slot).map (.completed n · (sc.waiting slot))).toList)
      { sc with hubs := (sc.hubs.perform d).1, duties := (sc.hubs.perform d).2.2 ++ ds } ∧
      (sc.hubs.perform d).2.1 = none := by
  rcases sc.hubs.closed_or_open slot with hc | ⟨h, hg, hn⟩
  · rw [perform_closed ht hc, openHub?_eq_none hc]
    refine ⟨.idle hd ?_, rfl⟩
    cases d <;> cases ht <;> exact hc
  · have hwaiting : sc.waiting slot = h.keys := by simp [waiting, hg]
    rw [openHub?_eq_some hg hn, elim_some, hwaiting]
    by_cases hdue : (h.heed d).IsDue
    · have hafter : (sc.hubs.update slot fun _ => h.fulfil d).status? slot =
          some (h.verdict d) := by
        rw [status?, get?_update_self hg, bind_some, (h.fulfil_eq d).1]
      rw [perform_due ht hg hn hdue, hafter]
      exact ⟨.completed ⟨hd, ht, hg, hn⟩ hdue, rfl⟩
    · have hafter : (sc.hubs.update slot fun _ => h.heed d).status? slot = none := by
        rw [status?, get?_update_self hg, bind_some, ← hn]
        exact congrArg Prod.fst (aspect_heed h d)
      rw [perform_waiting ht hg hn hdue, hafter, map_none, toList_none, append_nil]
      exact ⟨.heeded ⟨hd, ht, hg, hn⟩ hdue, rfl⟩

lemma lookup_eq_none {h : Hub κ} : h.subscribers.lookup key = none ↔ key ∉ h.keys := by
  rw [lookup_eq_none_iff, keys, List.mem_map]
  constructor
  · rintro hno ⟨p, hp, rfl⟩
    simpa using hno p hp
  · intro hno p hp
    exact bne_iff_ne.mpr fun he => hno ⟨p, hp, he.symm⟩

lemma Change.settle (free : Bool) (past : Notes) (hd : sc.duties = .settle slot :: ds) :
    Change free past sc [] { sc with hubs := sc.hubs.settle slot, duties := ds } := by
  rcases hsp : (sc.hubs.get? slot).any isSpent with _ | _
  · have hsame : sc.hubs.settle slot = sc.hubs := by simp [Hubs.settle, hsp]
    rw [hsame]
    exact .idle hd hsp
  · have herase : sc.hubs.settle slot = sc.hubs.erase slot := by simp [Hubs.settle, hsp]
    obtain ⟨h, hg, hs⟩ := (any_eq_true _ _).mp hsp
    rw [herase]
    exact .dropped hd hg hs

lemma Change.perform (free : Bool) (past : Notes) {d : Duty} (hd : sc.duties = d :: ds) :
    Change free past sc (sc.dutyNotes past d)
      { sc with hubs := (sc.hubs.perform d).1, duties := (sc.hubs.perform d).2.2 ++ ds } := by
  cases d with
  | notify | sealOff | report => exact (Change.target free past hd rfl).1
  | settle slot => exact .settle free past hd
  | deliver slot status keys =>
    cases keys with
    | nil => exact .idle hd (.inl rfl)
    | cons key keys =>
      rcases hg : sc.hubs.get? slot with _ | h
      · simp only [dutyNotes, waiting, Hubs.perform, hg, map_none, getD_none, not_mem_nil, if_false]
        exact .idle hd (.inr hg)
      · by_cases hk : key ∈ h.keys
        · obtain ⟨callback, hl⟩ := ne_none_iff_exists'.mp (mt lookup_eq_none.mp (not_not.mpr hk))
          simp only [dutyNotes, waiting, Hubs.perform, hg, map_some, getD_some, if_pos hk, hl]
          exact .called hd hg hk
        · simp only [dutyNotes, waiting, Hubs.perform, hg, map_some, getD_some, if_neg hk,
            lookup_eq_none.mpr hk]
          exact .skipped hd hg hk

end Scene

end Hub

end JobShell
