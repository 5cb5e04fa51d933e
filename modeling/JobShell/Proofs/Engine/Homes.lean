import JobShell.Proofs.Engine.Desk
import JobShell.Proofs.Engine.Similar

/-!
Who is at home in which store.

Each hub has a home: the store that whoever has it in hand carries. A child is at home where its
parent is, unless it is the list of a subshell, whose home was forked for it. A hub without a parent
that an evaluation waits for is at home where that evaluation is, and one that no one waits for in a
store that is marked: in the root, or in a store that is not kept for it. So the way from an open
hub leads over open hubs to a subshell that has not ended, whose store is still there, or to a
marked store.
-/

namespace JobShell

open Hub List Hubs Multiset Option Function Slab

/-- A callback carries the home of its hub, or forked a store from it. -/
structure Callback.AtHome (home : HubId → StoreId) (σ : Shape) (cb : Callback) :
    Prop where
  carried : ∀ s, cb.store? = some s → home cb.hub = s
  forked : ∀ s ∈ cb.forks, σ.get? s = some (some (home cb.hub))

lemma Callback.freed_of_passes {cb : Callback} {status : Int} (h : cb.passes status = none)
    (σ : Shape) : cb.freed σ = σ := by
  cases cb <;> first | rfl | cases h

namespace Hubs

variable {hubs : Hubs Callback} {parent : Option HubId} {slot k : HubId} {h' : Hub Callback}

/-- What an open hub was like before one was created. -/
lemma create_back (sound : hubs.Sound) (hp : ∀ p, parent = some p → hubs.Free p)
    (hk : (hubs.create parent).2.get? k = some h') :
    (k = hubs.next ∧ h'.parent = parent ∧ h'.subscribers = []) ∨
      (k ≠ hubs.next ∧ ∃ h, hubs.get? k = some h ∧ h'.status = h.status ∧ h'.parent = h.parent ∧
        h'.subscribers = h.subscribers) := by
  by_cases hne : k = hubs.next
  · left
    cases parent with
    | none =>
      rw [get?_create_orphan sound (by simp), if_pos hne] at hk
      cases hk
      exact ⟨hne, rfl, rfl⟩
    | some p =>
      obtain ⟨h, hg, hn, -⟩ := hp p rfl
      rw [get?_create_child sound hg hn, if_pos hne] at hk
      cases hk
      exact ⟨hne, rfl, rfl⟩
  · have hthere : ∀ p, parent = some p → (hubs.get? p).isSome = true := by
      intro p he
      obtain ⟨h, hg, -⟩ := hp p he
      simp [hg]
    obtain ⟨h, hg, rfl | rfl⟩ := ((create_cases sound hthere hk).resolve_left fun h => hne h.1).2
    · exact .inr ⟨hne, h', hg, rfl, rfl, rfl⟩
    · exact .inr ⟨hne, h, hg, rfl, rfl, rfl⟩

/-- Each open hub was open before, with the same parent, and no subscriber of it has left. -/
def Kept (hubs hubs' : Hubs Callback) : Prop :=
  ∀ k h', hubs'.get? k = some h' → h'.status = none → ∃ h, hubs.get? k = some h ∧ h.status = none ∧
    h.parent = h'.parent ∧ ∀ x ∈ h.subscribers, x ∈ h'.subscribers

lemma Kept.refl (hubs : Hubs Callback) : Kept hubs hubs :=
  fun _ h' hg hn => ⟨h', hg, hn, rfl, fun _ hx => hx⟩

lemma kept_update {f : Hub Callback → Hub Callback} (hf : ∀ h, hubs.get? slot = some h →
      (f h).status = none → h.status = none ∧ h.parent = (f h).parent ∧
        ∀ x ∈ h.subscribers, x ∈ (f h).subscribers) :
    Kept hubs (hubs.update slot f) := by
  intro k h' hk hn
  rw [get?_update] at hk
  split at hk
  · subst k
    obtain ⟨h, hg, rfl⟩ := map_eq_some_iff.mp hk
    exact ⟨h, hg, hf h hg hn⟩
  · exact Kept.refl hubs k h' hk hn

end Hubs

namespace Desk

open Hub.Note Hub.Scene

variable {T T' : List StoreId} {home home' : HubId → StoreId} {past os : Notes}
  {log ss : Log} {d d' : Desk} {slot hub k : HubId} {h : Hub Callback}
  {s store : StoreId} {y : Hold} {H : Multiset Hold} {cb : Callback} {parent : Option HubId}

/-- Where an open hub is at home. Whoever waits for one without a parent has an older one
in hand. -/
def Placed (T : List StoreId) (home : HubId → StoreId) (d : Desk) (slot : HubId)
    (h : Hub Callback) : Prop :=
  match h.parent with
  | some q => home slot = home q ∨ ∃ key, (key, .subshell q (home slot)) ∈ h.subscribers
  | none => home slot ∈ T ∨ ∃ x ∈ d.held, x.awaits = some slot ∧ home x.hub = home slot ∧
      d.scene.tenant x.hub < d.scene.tenant slot

/-- The homes of hubs, with some stores that are marked. -/
structure Homes (T : List StoreId) (home : HubId → StoreId) (d : Desk) : Prop where
  hubs : ∀ slot h, d.scene.hubs.get? slot = some h → h.status = none → Placed T home d slot h
  callbacks : ∀ cb ∈ d.scene.hubs.callbacks, cb.AtHome home d.stores
  held : ∀ x ∈ d.held, ∀ s, x.store = some s → home x.hub = s
  jobs : ∀ id hub s, (id, hub, s) ∈ d.jobs → home hub = s

/-- Each hub has a home, and each store but the root is kept for a subshell that has not ended. -/
structure Sheltering (T : List StoreId) (past : Notes) (log : Log) (d : Desk) :
    Prop where
  run : d.scene.Run false past
  owned : d.Owned
  sound : d.stores.Sound
  stores : d.stores.keys = {Stores.root} + d.scene.hubs.callbacks.bind Callback.forks
  root : d.stores.get? Stores.root = some none
  homes : ∃ home, Homes T home d

/-! ### The way home -/

lemma mem_drivers_of_callback (hcb : cb ∈ d.scene.hubs.callbacks) : cb.hub ∈ d.drivers :=
  mem_add.mpr (.inr (mem_map_of_mem _ hcb))

/-- Each open hub stays where it was or has been given a home. -/
lemma Homes.carry (hm : Homes T home d)
    (hback : ∀ k h', d'.scene.hubs.get? k = some h' → h'.status = none →
      Placed T home d' k h' ∨ ∃ h, d.scene.hubs.get? k = some h ∧ h.status = none ∧
        h.parent = h'.parent ∧ ∀ x ∈ h.subscribers, x ∈ h'.subscribers)
    (hnumber : ∀ k h, d.scene.hubs.get? k = some h → d'.scene.tenant k = d.scene.tenant k)
    (o : d.Owned) (hwait : ∀ x ∈ d.held, ∀ k, x.awaits = some k → x ∈ d'.held ∨
      ∀ h, d.scene.hubs.get? k = some h → h.status.isSome = true)
    (hcb : ∀ cb ∈ d'.scene.hubs.callbacks, cb.AtHome home d'.stores)
    (hheld : ∀ x ∈ d'.held, x ∈ d.held ∨ ∀ s, x.store = some s → home x.hub = s)
    (hjobs : ∀ id hub s, (id, hub, s) ∈ d'.jobs → home hub = s) : Homes T home d' := by
  refine ⟨fun k h' hk hn => ?_, hcb, fun x hx => (hheld x hx).elim (hm.held x) id, hjobs⟩
  rcases hback k h' hk hn with hplaced | ⟨h, hg, hn', hp, hsub⟩
  · exact hplaced
  have hplaced := hm.hubs k h hg hn'
  unfold Placed at hplaced ⊢
  rw [hp] at hplaced
  split at hplaced
  · exact hplaced.imp_right fun ⟨key, hkey⟩ => ⟨key, hsub _ hkey⟩
  · refine hplaced.imp_right fun ⟨x, hx, hw, he, hlt⟩ => ⟨x, ?_, hw, he, ?_⟩
    · refine (hwait x hx k hw).resolve_right fun hdone => ?_
      simpa [hn'] using hdone h hg
    · obtain ⟨j, hj, -⟩ := o.free_held hx
      rwa [hnumber _ j hj, hnumber k h hg]

/-- Nobody who waits is gone when someone who does not has put away the hub in hand. -/
lemma mem_rest (hh : d.held = {y} + H) (hy : y.awaits = none) {x : Hold} (hx : x ∈ d.held)
    (hw : x.awaits = some k) : x ∈ H := by
  rw [hh] at hx
  refine (mem_add.mp hx).resolve_left fun he => ?_
  rw [Multiset.mem_singleton.mp he, hy] at hw
  cases hw

lemma mem_of_rest (hh : d.held = {y} + H) {x : Hold} (hx : x ∈ H) : x ∈ d.held :=
  hh ▸ mem_add.mpr (.inr hx)

lemma Homes.subscribed (hm : Homes T home d) (o : d.Owned) {s' : Option StoreId}
    (hg : d.scene.hubs.get? slot = some h) (hs : h.subscribers = []) (hf : cb.forks = 0)
    (hc : ∀ s, cb.store? = some s → s' = some s) (hh : d.held = {⟨cb.hub, s', none⟩} + H) :
    Homes T home { d with
      scene := { d.scene with hubs := d.scene.hubs.update slot (·.subscribed cb) }
      held := H } := by
  have hkept : Kept d.scene.hubs (d.scene.hubs.update slot (·.subscribed cb)) :=
    kept_update fun h _ hn => ⟨hn, rfl, fun x hx => mem_append_left _ hx⟩
  refine hm.carry (fun k h' hg hn => .inr (hkept k h' hg hn)) (fun k _ _ => rfl) o
    (fun x hx k hw => .inl (mem_rest hh rfl hx hw)) (fun c hm' => ?_)
    (fun x hx => .inl (mem_of_rest hh hx)) hm.jobs
  rw [update_eq hg, callbacks_subscribed hg hs] at hm'
  rcases mem_add.mp hm' with he | hm'
  · rw [Multiset.mem_singleton.mp he]
    exact ⟨fun s hs => hm.held _ (mem_held hh) s (hc s hs), by simp [hf]⟩
  · exact hm.callbacks c hm'

section

variable (sh : Sheltering T past log d)
include sh

/-- The home of an open hub is marked, or it is the store of a subshell that has not ended. The
induction is on the number of the hub. -/
lemma Sheltering.mem_keys (hm : Homes T home d)
    (hg : d.scene.hubs.get? slot = some h) (hn : h.status = none) :
    home slot ∈ T ∨ home slot ∈ d.stores.keys := by
  induction hb : d.scene.tenant slot using Nat.strong_induction_on generalizing slot h with
  | _ n ih =>
    subst hb
    have hplaced := hm.hubs slot h hg hn
    unfold Placed at hplaced
    split at hplaced
    · rename_i q hq
      rcases hplaced with he | ⟨key, hkey⟩
      · obtain ⟨k, hk, hkn, hkid⟩ := sh.run.exists_parent hg hn hq
        rw [he]
        exact ih _ (sh.run.lt_of_mem_children hkid) hk hkn rfl
      · have hcb := mem_callbacks.mpr ⟨slot, h, hg, key, hkey⟩
        rw [sh.stores]
        exact .inr (mem_add.mpr (.inr (mem_bind.mpr ⟨_, hcb, Multiset.mem_singleton_self _⟩)))
    · rcases hplaced with hT | ⟨x, hx, -, he, hlt⟩
      · exact .inl hT
      · obtain ⟨k, hk, hkn, -⟩ := sh.owned.free_held hx
        rw [← he]
        exact ih _ hlt hk hkn rfl

/-- Whoever has a hub to complete carries a store that is there, or one that is marked. -/
lemma Sheltering.driven_mem_keys (hm : Homes T home d)
    (hx : slot ∈ d.drivers) : home slot ∈ T ∨ home slot ∈ d.stores.keys := by
  obtain ⟨h, hg, hn, -⟩ := sh.owned.free slot hx
  exact sh.mem_keys hm hg hn

/-- A store that was forked has its parent as long as it is there, unless the parent is marked. -/
lemma Sheltering.parent_mem_keys {parent : StoreId}
    (hs : d.stores.get? s = some (some parent)) : parent ∈ T ∨ parent ∈ d.stores.keys := by
  obtain ⟨home, hm⟩ := sh.homes
  have hk : s ∈ d.stores.keys := Slab.mem_keys.mpr (by simp [hs])
  rw [sh.stores] at hk
  rcases mem_add.mp hk with hk | hk
  · rw [Multiset.mem_singleton.mp hk, sh.root] at hs
    cases hs
  · obtain ⟨cb, hcb, hk⟩ := mem_bind.mp hk
    have hforked := (hm.callbacks cb hcb).forked s hk
    rw [hs] at hforked
    cases hforked
    exact sh.driven_mem_keys hm (mem_drivers_of_callback hcb)

lemma Sheltering.mark (hT : ∀ s ∈ T, s ∈ T') : Sheltering T' past log d := by
  obtain ⟨home, hm⟩ := sh.homes
  refine { sh with homes := ⟨home, { hm with hubs := fun slot h hg hn => ?_ }⟩ }
  have hplaced := hm.hubs slot h hg hn
  unfold Placed at hplaced ⊢
  split at hplaced
  · exact hplaced
  · exact hplaced.imp_left (hT _)

/-! ### Deals -/

/-- The slot of the next hub is free, so it may be a home to anyone. -/
lemma Sheltering.newcomer (s : StoreId) :
    ∃ home, Homes T home d ∧ home d.scene.hubs.next = s := by
  obtain ⟨home, hm⟩ := sh.homes
  refine ⟨update home d.scene.hubs.next s, ?_, update_self _ _ _⟩
  have hsame : ∀ {k h}, d.scene.hubs.get? k = some h →
      update home d.scene.hubs.next s k = home k := fun hg =>
    update_of_ne (Sound.ne_next sh.run.sane.sound hg) _ _
  have hdriven : ∀ {k}, k ∈ d.drivers → update home d.scene.hubs.next s k = home k := by
    intro k hk
    obtain ⟨h, hg, -⟩ := sh.owned.free k hk
    exact hsame hg
  have hheld : ∀ x ∈ d.held, update home d.scene.hubs.next s x.hub = home x.hub :=
    fun x hx => hdriven (mem_drivers.mpr (.inl (mem_hands hx)))
  refine ⟨fun slot h hg hn => ?_, fun cb hcb => ?_, fun x hx st hst => ?_, fun id hub st hj => ?_⟩
  · have hplaced := hm.hubs slot h hg hn
    unfold Placed at hplaced ⊢
    rw [hsame hg]
    split at hplaced <;> rename_i hq
    · obtain ⟨k, hk, -⟩ := sh.run.exists_parent hg hn hq
      rwa [hsame hk]
    · refine hplaced.imp_right fun ⟨x, hx, hw, he, hlt⟩ => ⟨x, hx, hw, ?_, hlt⟩
      rwa [hheld x hx]
  · have hhome := hdriven (mem_drivers_of_callback hcb)
    have hat := hm.callbacks cb hcb
    exact ⟨fun st hst => hhome.trans (hat.carried st hst), fun st hst => hhome ▸ hat.forked st hst⟩
  · exact (hheld x hx).trans (hm.held x hx st hst)
  · exact (hdriven (mem_drivers.mpr (.inr (.inl ⟨id, st, hj⟩)))).trans (hm.jobs id hub st hj)

/-- The hubs there are keep their homes, and so do their subscribers. -/
lemma Sheltering.keep (run : d'.scene.Run false (past ++ os))
    (owned : d'.Owned) (hk : Kept d.scene.hubs d'.scene.hubs)
    (hhandles : d'.scene.handles = d.scene.handles)
    (hcb : d'.scene.hubs.callbacks = d.scene.hubs.callbacks) (hst : d'.stores = d.stores)
    (hwait : ∀ x ∈ d.held, ∀ k, x.awaits = some k → x ∈ d'.held ∨
      ∀ h, d.scene.hubs.get? k = some h → h.status.isSome = true)
    (hheld : ∀ home, Homes T home d → ∀ x ∈ d'.held,
      x ∈ d.held ∨ ∀ s, x.store = some s → home x.hub = s)
    (hjobs : ∀ home, Homes T home d → ∀ id hub s, (id, hub, s) ∈ d'.jobs → home hub = s) :
    Sheltering T (past ++ os) (log ++ ss) d' := by
  obtain ⟨home, hm⟩ := sh.homes
  refine ⟨run, owned, hst ▸ sh.sound, hst ▸ hcb ▸ sh.stores, hst ▸ sh.root, home, ?_⟩
  refine hm.carry (fun k h' hg hn => .inr (hk k h' hg hn)) (fun k _ _ => tenant_eq hhandles k)
    sh.owned hwait (fun cb hm' => ?_) (hheld home hm) (hjobs home hm)
  rw [hcb] at hm'
  exact hst ▸ hm.callbacks cb hm'

/-- The same, when nothing but hubs and duties have changed. -/
lemma Sheltering.stay {scene : Scene Callback}
    (run : scene.Run false (past ++ os)) (owned : Owned { d with scene })
    (hhandles : scene.handles = d.scene.handles) (hk : Kept d.scene.hubs scene.hubs)
    (hcb : scene.hubs.callbacks = d.scene.hubs.callbacks) :
    Sheltering T (past ++ os) (log ++ ss) { d with scene } :=
  sh.keep run owned hk hhandles hcb rfl (fun _ hx _ _ => .inl hx) (fun _ _ _ hx => .inl hx)
    fun _ hm => hm.jobs

/-- A subshell that has ended has the store no longer that was forked for it. -/
lemma Sheltering.freed {C : Multiset Callback} (hcb : d.scene.hubs.callbacks = {cb} + C) :
    (cb.freed d.stores).Sound ∧
      (cb.freed d.stores).keys = {Stores.root} + C.bind Callback.forks ∧
      (cb.freed d.stores).get? Stores.root = some none ∧
      ∀ c ∈ C, ∀ s ∈ c.forks, (cb.freed d.stores).get? s = d.stores.get? s := by
  have hkeys := sh.stores
  rw [hcb, add_bind, singleton_bind] at hkeys
  cases cb with
  | subshell hub store =>
    have hkeys' : d.stores.keys = {store} + ({Stores.root} + C.bind Callback.forks) := by
      rw [hkeys, Callback.forks]
      exact add_left_comm _ _ _
    have hnew : store ∉ {Stores.root} + C.bind Callback.forks := by
      have hnodup := hkeys' ▸ d.stores.nodup_keys
      exact (nodup_cons.mp hnodup).1
    have hroot : Stores.root ≠ store := by
      rintro rfl
      exact hnew (mem_add.mpr (.inl (Multiset.mem_singleton_self _)))
    rw [Callback.freed, if_neg hroot.symm]
    refine ⟨sh.sound.erase store, keys_erase hkeys', ?_, fun c hc s hs => ?_⟩
    · rw [get?_erase, if_neg hroot]
      exact sh.root
    · rw [get?_erase, if_neg]
      rintro rfl
      exact hnew (mem_add.mpr (.inr (mem_bind.mpr ⟨c, hc, hs⟩)))
  | _ =>
    exact ⟨sh.sound, by simpa [Callback.forks, Callback.freed] using hkeys, sh.root,
      fun _ _ _ _ => rfl⟩

/-- Whoever was called carries the home of the hub to go on with. -/
lemma Sheltering.called {status : Int} {key : ℕ} {ds duties : List Duty}
    (hd : d.scene.duties = .deliver slot status [key] :: ds)
    (hg : d.scene.hubs.get? slot = some h) (hs : h.subscribers = [(key, cb)])
    (hH : ∀ x ∈ H, x = ⟨cb.hub, cb.store?, none⟩) (hd' : d' = { d with
      scene := d.scene.withUpdate slot (·.without key) duties
      held := H + d.held
      stores := cb.freed d.stores })
    (run : d'.scene.Run false (past ++ os)) (owned : d'.Owned) :
    Sheltering T (past ++ os) (log ++ ss) d' := by
  obtain ⟨h', cb', hg', hst, -⟩ := sh.owned.calls (hd ▸ List.mem_cons_self)
  cases hg.symm.trans hg'
  obtain ⟨home, hm⟩ := sh.homes
  have hcb := callbacks_called hg hs
  rw [← update_eq (f := (·.without key)) hg]
    at hcb
  obtain ⟨hsound, hkeys, hroot, hforks⟩ := sh.freed hcb.symm
  have hkept : Kept d.scene.hubs (d.scene.hubs.update slot (·.without key)) := by
    refine kept_update fun k hk hn => ?_
    cases hg.symm.trans hk
    cases hst.symm.trans hn
  subst hd'
  refine ⟨run, owned, hsound, hkeys, hroot, home, hm.carry
    (fun k h' hg hn => .inr (hkept k h' hg hn)) (fun k _ _ => rfl) sh.owned
    (fun x hx k hw => .inl (mem_add.mpr (.inr hx))) (fun c hc => ?_) (fun x hx => ?_) hm.jobs⟩
  · have hat := hm.callbacks c (hcb ▸ mem_add.mpr (.inr hc))
    exact ⟨hat.carried, fun s hf => (hforks c hc s hf).trans (hat.forked s hf)⟩
  · rcases mem_add.mp hx with hx | hx
    · rw [hH x hx]
      have hmem := hcb ▸ mem_add.mpr (.inl (mem_singleton_self cb))
      exact .inr (hm.callbacks cb hmem).carried
    · exact .inl hx

end

/-- A hub that is created is at home where its parent is. One that has no parent is at home in a
marked store, or with someone who waits for it. -/
lemma Homes.created (hm : Homes T home d) (o : d.Owned) (sane : Sane past d.scene)
    (hp : Admits (· ∈ T) d.held d.scene.hubs.next store parent)
    (hself : home d.scene.hubs.next = store) :
    Homes T home { d with
      scene := d.scene.withHub parent
      held := {⟨d.scene.hubs.next, some store, none⟩} + d.held } := by
  have hfree : ∀ p, parent = some p → d.scene.hubs.Free p :=
    fun p he => o.free_held (he ▸ hp : Admits _ _ _ _ (some p))
  have hold : ∀ k h, d.scene.hubs.get? k = some h → k ≠ d.scene.hubs.next :=
    fun k h hg => Sound.ne_next sane.sound hg
  have hnumber : ∀ k h, d.scene.hubs.get? k = some h →
      (d.scene.withHub parent).tenant k = d.scene.tenant k :=
    fun k h hg => tenant_old rfl (hold k h hg)
  refine hm.carry (fun k h' hg hn => ?_) hnumber o
    (fun x hx k hw => .inl (mem_add.mpr (.inr hx))) (fun c hc => ?_) (fun x hx => ?_) hm.jobs
  · rcases create_back sane.sound hfree hg with ⟨rfl, hparent, hsub⟩ | ⟨-, h, hg, hst, hpar, hsub⟩
    · left
      unfold Placed
      rw [hparent]
      cases parent with
      | some p => exact .inl (hself.trans (hm.held _ hp store rfl).symm)
      | none =>
        rw [hself]
        refine hp.imp_right fun ⟨x, hx, hxs, hw⟩ =>
          ⟨x, mem_add.mpr (.inr hx), hw, hm.held x hx _ hxs, ?_⟩
        obtain ⟨k, hk, -⟩ := o.free_held hx
        rw [hnumber _ k hk]
        exact (tenant_lt (sane.handle _ k hk)).trans_eq (tenant_new rfl).symm
    · exact .inr ⟨h, hg, hst ▸ hn, hpar.symm, fun x hx => hsub ▸ hx⟩
  · rw [callbacks_create sane.sound hfree] at hc
    exact hm.callbacks c hc
  · rcases mem_add.mp hx with hx | hx
    · rw [Multiset.mem_singleton.mp hx]
      exact .inr fun s hs => hself.trans (some.inj hs)
    · exact .inl hx

/-- The list of a subshell is at home in the store that is forked for it. -/
lemma Homes.enclosed (hm : Homes T home d) (o : d.Owned) (sane : Sane past d.scene)
    (sound : d.stores.Sound)
    (hforks : ∀ cb ∈ d.scene.hubs.callbacks, ∀ s ∈ cb.forks, s ∈ d.stores.keys)
    (hh : d.held = {⟨hub, some store, none⟩} + H) (hself : home d.scene.hubs.next = d.stores.next) :
    Homes T home { d with
      scene := { d.scene with
        hubs := (d.scene.hubs.create (some hub)).2.update d.scene.hubs.next
          (·.subscribed (.subshell hub d.stores.next))
        handles := d.scene.handles ++ [d.scene.hubs.next] }
      held := {⟨d.scene.hubs.next, some d.stores.next, none⟩} + H
      stores := d.stores.insert (some store) } := by
  have hfree : ∀ p, some hub = some p → d.scene.hubs.Free p := by
    rintro p ⟨⟩
    exact o.free_held (mem_held hh)
  have hinsert : ∀ s, s ∈ d.stores.keys →
      (d.stores.insert (some store)).get? s = d.stores.get? s := by
    intro s hs
    rw [sound.get?_insert, if_neg]
    rintro rfl
    rw [Slab.mem_keys, sound.get?_next] at hs
    cases hs
  obtain ⟨h, hg, hn, hs, -, hpar⟩ := o.get?_next sane.sound (mem_held hh)
  refine hm.carry (fun k h' hk hn => ?_)
    (fun k h hg => tenant_old rfl (Sound.ne_next sane.sound hg)) o
    (fun x hx k hw => .inl (mem_add.mpr (.inr (mem_rest hh rfl hx hw)))) (fun c hc => ?_)
    (fun x hx => ?_) hm.jobs
  · rw [get?_update] at hk
    split at hk
    · subst k
      rw [hg] at hk
      cases hk
      left
      unfold Placed
      rw [show (h.subscribed _).parent = some hub from hpar, hself]
      exact .inr ⟨h.nextKey, mem_append_right _ (List.mem_singleton_self _)⟩
    · rename_i hne
      obtain ⟨h, hg, hst, hpar, hsub⟩ :=
        ((create_back sane.sound hfree hk).resolve_left fun h => hne h.1).2
      exact .inr ⟨h, hg, hst ▸ hn, hpar.symm, fun x hx => hsub ▸ hx⟩
  · rw [update_eq hg, callbacks_subscribed hg hs, callbacks_create sane.sound hfree] at hc
    rcases mem_add.mp hc with hc | hc
    · rw [Multiset.mem_singleton.mp hc]
      refine ⟨nofun, fun s hs => ?_⟩
      rw [Multiset.mem_singleton.mp hs, sound.get?_insert, if_pos rfl]
      exact congrArg (some ∘ some) (hm.held _ (mem_held hh) store rfl).symm
    · have hat := hm.callbacks c hc
      exact ⟨hat.carried, fun s hs => (hinsert s (hforks c hc s hs)).trans (hat.forked s hs)⟩
  · rcases mem_add.mp hx with hx | hx
    · rw [Multiset.mem_singleton.mp hx]
      exact .inr fun s hs => hself.trans (some.inj hs)
    · exact .inl (mem_of_rest hh hx)

/-- All deals leave everyone at home, unless someone gives up waiting. -/
lemma law_sheltering (T : List StoreId) (drops reshapes : Bool) :
    Law ⟨drops, false, reshapes, (· ∈ T)⟩ (Sheltering T) where
  run sh := sh.run
  owned sh := sh.owned
  deal {past log d os ss d'} sh hd := by
    have run := hd.run sh.owned sh.run
    have owned := sh.owned.deal sh.run.sane.sound hd
    cases hd with
    | created parent store hp =>
      obtain ⟨home, hm, hself⟩ := sh.newcomer store
      refine ⟨run, owned, sh.sound, ?_, sh.root, home, hm.created sh.owned sh.run.sane hp hself⟩
      have hcb := callbacks_create sh.run.sane.sound
        fun p (he : parent = some p) => sh.owned.free_held (he ▸ hp : Admits _ _ _ _ (some p))
      simp only [hcb]
      exact sh.stores
    | @enclosed hub store H hh _ =>
      obtain ⟨home, hm, hself⟩ := sh.newcomer d.stores.next
      have hforks : ∀ cb ∈ d.scene.hubs.callbacks, ∀ s ∈ cb.forks, s ∈ d.stores.keys := by
        intro cb hcb s hs
        rw [sh.stores]
        exact mem_add.mpr (.inr (mem_bind.mpr ⟨cb, hcb, hs⟩))
      refine ⟨run, owned, sh.sound.insert _, ?_, ?_, home,
        hm.enclosed sh.owned sh.run.sane sh.sound hforks hh hself⟩
      · obtain ⟨h, hg, -, hs, -⟩ := sh.owned.get?_next sh.run.sane.sound (mem_held hh)
        have hcb := callbacks_create sh.run.sane.sound fun p (he : some hub = some p) =>
          some.inj he ▸ sh.owned.free_held (mem_held hh)
        rw [keys_insert sh.sound, sh.stores, update_eq hg, callbacks_subscribed hg hs, hcb,
          add_bind, singleton_bind]
        exact add_left_comm _ _ _
      · rw [sh.sound.get?_insert, if_neg, sh.root]
        rintro he
        simpa [← he, sh.root] using sh.sound.get?_next
    | hired hh =>
      refine sh.keep run owned (.refl _) rfl rfl rfl
        (fun x hx k hw => .inl (mem_rest hh rfl hx hw))
        (fun _ _ x hx => .inl (mem_of_rest hh hx)) fun home hm id hub s hj => ?_
      rcases mem_append.mp hj with hj | hj
      · exact hm.jobs id hub s hj
      · cases List.mem_singleton.mp hj
        exact hm.held _ (mem_held hh) _ rfl
    | subscribed hg hn hs hp hf hc hh =>
      obtain ⟨home, hm⟩ := sh.homes
      refine ⟨run, owned, sh.sound, ?_, sh.root, home, hm.subscribed sh.owned hg hs hf hc hh⟩
      rw [update_eq hg, callbacks_subscribed hg hs, add_bind, singleton_bind, hf, zero_add]
      exact sh.stores
    | turned hh hs hq =>
      refine sh.keep run owned (.refl _) rfl rfl rfl (fun x hx k hw => ?_) (fun home hm x hx => ?_)
        fun home hm => hm.jobs
      · rcases mem_add.mp (hh ▸ hx) with hx | hx
        · rw [Multiset.mem_singleton.mp hx] at hw
          exact .inr ((hq k hw).resolve_left nofun)
        · exact .inl (mem_add.mpr (.inr hx))
      · rcases mem_add.mp hx with hx | hx
        · rw [Multiset.mem_singleton.mp hx]
          exact .inr fun s hst => hm.held _ (mem_held hh) s (hs s hst)
        · exact .inl (mem_of_rest hh hx)
    | retained slot =>
      exact sh.stay run owned rfl (kept_update fun h _ hn => ⟨hn, rfl, fun _ hx => hx⟩)
        (callbacks_retained _ slot (· + 1))
    | released slot =>
      exact sh.stay run owned rfl (kept_update fun h _ hn => ⟨hn, rfl, fun _ hx => hx⟩)
        (callbacks_retained _ slot (· - 1))
    | notified hh status | sealing hh =>
      exact sh.keep run owned (.refl _) rfl rfl rfl
        (fun x hx k hw => .inl (mem_rest hh rfl hx hw))
        (fun _ _ x hx => .inl (mem_of_rest hh hx)) fun home hm => hm.jobs
    | settled hj status =>
      exact sh.keep run owned (.refl _) rfl rfl rfl (fun x hx k hw => .inl hx)
        (fun _ _ x hx => .inl hx) fun home hm id hub s hj => hm.jobs id hub s (mem_of_mem_filter hj)
    | idle hd hi => exact sh.stay run owned rfl (.refl _) rfl
    | called hd hg hs hcb =>
      exact sh.called hd hg hs (fun x hx => mem_singleton.mp hx)
        (by rw [Callback.freed_of_passes hcb]) run owned
    | passed hd hg hs hcb =>
      exact sh.called (H := 0) hd hg hs (by simp) (by rw [zero_add]) run owned
    | @heeded slot h u ds ha =>
      have hsame : (h.heed u).parent = h.parent ∧ (h.heed u).subscribers = h.subscribers := by
        cases u <;> exact ⟨rfl, rfl⟩
      refine sh.stay run owned rfl (kept_update fun k hk _ => ?_)
        (callbacks_update_eq ha.hub hsame.2)
      cases ha.hub.symm.trans hk
      exact ⟨ha.running, hsame.1.symm, fun x hx => hsame.2 ▸ hx⟩
    | @completed slot h u ds ha =>
      obtain ⟨hst, hsub, -⟩ := h.fulfil_eq u
      refine sh.stay run owned rfl (kept_update fun k hk hn => ?_) (callbacks_update_eq ha.hub hsub)
      cases hst.symm.trans hn
    | @dropped slot h ds _ hd hg hs =>
      refine sh.stay run owned rfl (fun k h' hk hn => ?_) (callbacks_erase hg ?_)
      · rw [get?_erase] at hk
        split at hk
        · cases hk
        · exact Kept.refl _ k h' hk hn
      · simp only [Hub.isSpent, Bool.and_eq_true, List.isEmpty_iff] at hs
        exact hs.1.2

end Desk

end JobShell
