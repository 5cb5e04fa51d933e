import JobShell.Proofs.Engine.Accounts
import JobShell.Proofs.Engine.Weight

/-!
Hubs whose books balance.

Whatever is owed to such hubs can be done, and each way to do it is described by the debts that are
left, by the stores of the subshells that hubs know of, and by what the hubs weigh.
-/

namespace JobShell

open Accounts Rank List Hubs Multiset Option Hub

/-- The store that is thrown away when a callback is called. -/
def Callback.forks : Callback → Multiset StoreId
  | .subshell _ store => {store}
  | _ => 0

/-- The stores of the subshells that hubs know of. -/
def forks (E : Multiset HubEntry) : Multiset StoreId :=
  E.bind fun p => (p.2.subscribers : Multiset (ℕ × Callback)).bind fun s => s.2.forks

/-- The weight of hubs. -/
noncomputable def hubWeight (E : Multiset HubEntry) : Multiset Rank := E.bind fun p => p.2.weight

section Frame

variable {E E' R : Multiset HubEntry} {p : HubEntry} {i : HubId} {h h' : Hub Callback}

@[simp] lemma forks_frame :
    forks ({p} + R) =
      ((p.2.subscribers : Multiset (ℕ × Callback)).bind fun s => s.2.forks) + forks R := by
  simp [forks]

@[simp] lemma hubWeight_frame : hubWeight ({p} + R) = p.2.weight + hubWeight R := by
  simp [hubWeight]

lemma forks_update (hE : E = {(i, h)} + R) (hE' : E' = {(i, h')} + R)
    (hl : h'.subscribers = h.subscribers) : forks E' = forks E := by
  rw [hE', hE, forks_frame, forks_frame, hl]

lemma hubWeight_update (hE : E = {(i, h)} + R) (hE' : E' = {(i, h')} + R)
    (hs : h'.status = h.status) (hl : h'.subscribers = h.subscribers) :
    hubWeight E' = hubWeight E := by
  rw [hE', hE, hubWeight_frame, hubWeight_frame]
  simp only [weight, hs, hl]

end Frame

namespace Duty

noncomputable def weight : Duty → Multiset Rank
  | .deliver _ _ ks => Multiset.replicate (ks.length + 1) (low 1)
  | _ => {low 1}

lemma low_mem_weight (d : Duty) : low 1 ∈ d.weight := by
  cases d <;> simp [weight]

end Duty

namespace Hub

lemma weight_duties (i : HubId) (h : Hub Callback) (s : Int) :
    ∀ y ∈ ((h.duties i s : Multiset Duty).bind Duty.weight), y = low 1 := by
  intro y hy
  obtain ⟨d, -, hd⟩ := mem_bind.mp hy
  cases d with
  | deliver hub status keys => exact Multiset.eq_of_mem_replicate hd
  | _ => exact Multiset.mem_singleton.mp hd

end Hub

/-- The books of hubs balance. The ages of the hubs may be asked for more. -/
structure Solvent (Q : (HubId → ℕ) → Prop) (D : Multiset HubId) (M : List Mark)
    (hubs : Hubs Callback) : Prop where
  sound : hubs.Sound
  books : ∃ birth clock, Balanced birth clock hubs.entries D M ∧ Q birth

/-- A hub that is younger than all debts. -/
def Young (c : HubId) (M : List Mark) (birth : HubId → ℕ) : Prop := ∀ m ∈ M, birth m.hub < birth c

/-- A duty that is done, with the duties that follow from it. -/
structure Performed (Q : (HubId → ℕ) → Prop) (D : Multiset HubId) (M : List Mark)
    (hubs : Hubs Callback) (d : Duty) (hubs' : Hubs Callback) (ds : List Duty) : Prop where
  solvent : Solvent Q D (ds.flatMap Duty.marks ++ M) hubs'
  forks : forks hubs'.entries = forks hubs.entries
  lighter : Lighter (hubWeight hubs'.entries + (ds : Multiset Duty).bind Duty.weight)
    (hubWeight hubs.entries + d.weight)

lemma Hubs.next_notin {hubs : Hubs Callback} (sound : hubs.Sound) :
    hubs.next ∉ hubs.entries.map Prod.fst := by
  intro hm
  obtain ⟨⟨i, h⟩, hh, hi : i = hubs.next⟩ := Multiset.mem_map.mp hm
  subst hi
  simp [sound.get?_next] at hh

namespace Solvent

variable {Q Q' : (HubId → ℕ) → Prop} {D : Multiset HubId} {M : List Mark}
  {hubs hubs' : Hubs Callback} {c d i : HubId} {h h' : Hub Callback} {R : Multiset HubEntry}
  {duty : Duty} {s : Int} {m : Mark}
  {k : ℕ}

/-! ### Creation -/

/-- A hub that is created is driven by whoever did so. -/
lemma create (b : Solvent Q D M hubs) (parent : Option HubId)
    (hp : ∀ p, parent = some p → .drive p ∈ M) (Q' : (HubId → ℕ) → Prop)
    (hQ : ∀ birth birth', Q birth → (∀ p ∈ hubs.entries, birth' p.1 = birth p.1) →
      (∀ m ∈ M, birth' m.hub < birth' hubs.next) → Q' birth') :
    Solvent Q' D (.drive hubs.next :: M) (hubs.create parent).2 ∧
      forks (hubs.create parent).2.entries = forks hubs.entries ∧
      hubWeight (hubs.create parent).2.entries = hubWeight hubs.entries + {low 3} := by
  obtain ⟨birth, clock, hb, hq⟩ := b.books
  have hnext := next_notin b.sound
  have hsound := Sound.create b.sound parent
  have hnew : ∀ {R : Multiset HubEntry} {order : ℕ},
      (hubs.create parent).2.entries = {(hubs.next, { parent, order })} + R →
      forks R = forks hubs.entries → hubWeight R = hubWeight hubs.entries →
      forks (hubs.create parent).2.entries = forks hubs.entries ∧
        hubWeight (hubs.create parent).2.entries = hubWeight hubs.entries + {low 3} := by
    intro R order he hf hw
    rw [he, forks_frame, hubWeight_frame, hf, hw]
    simp [weight, add_comm]
  rcases parent with _ | p
  · obtain ⟨-, he⟩ := create_none b.sound
    obtain ⟨birth', hb', hsame, hy⟩ := hb.opened hnext
    exact ⟨⟨hsound, birth', clock + 1, he ▸ hb', hQ birth birth' hq hsame hy⟩, hnew he rfl rfl⟩
  · obtain ⟨h, hh, hn, -⟩ := hb.driven (hp p rfl)
    obtain ⟨R, hR⟩ := frame hh
    obtain ⟨-, he⟩ := create_some b.sound hR hn
    rw [hR] at hb hnext
    obtain ⟨birth', hb', hsame, hy⟩ := hb.adopted hn hnext h.nextOrder
    exact ⟨⟨hsound, birth', clock + 1, he ▸ hb', hQ birth birth' hq (hR ▸ hsame) hy⟩,
      hnew he (forks_update hR rfl rfl) (hubWeight_update hR rfl rfl rfl)⟩

lemma young_congr (b : Solvent (Young c M) D (.drive c :: M) hubs) {birth birth' : HubId → ℕ}
    (hy : Young c M birth) (hsame : ∀ p ∈ hubs.entries, birth' p.1 = birth p.1) :
    Young c M birth' := by
  obtain ⟨_, _, hbal, -⟩ := b.books
  intro m hm
  obtain ⟨h, hh⟩ := hbal.alive (mem_cons_of_mem _ hm)
  obtain ⟨h', hh'⟩ := hbal.alive mem_cons_self
  have hmark : birth' m.hub = birth m.hub := hsame _ hh
  have hself : birth' c = birth c := hsame _ hh'
  rw [hmark, hself]
  exact hy m hm

lemma subscribe (b : Solvent Q D (.drive d :: M) hubs) (hR : hubs.entries = {(c, h)} + R)
    (hn : h.status = none) (hl : h.subscribers = []) (hp : h.parent = some d) (cb : Callback)
    (hd : cb.hub = d) :
    ∃ hubs', hubs.subscribe c cb = some (h.nextKey, hubs') ∧ Solvent Q D M hubs' ∧
      hubs'.entries = {(c, h.subscribed cb)} + R ∧
      forks hubs'.entries = cb.forks + forks hubs.entries ∧
      hubWeight hubs'.entries = hubWeight hubs.entries + cb.weight := by
  obtain ⟨hubs', hsub, hsound, he⟩ := subscribe_entries hR cb
  obtain ⟨birth, clock, hbal, hq⟩ := b.books
  refine ⟨hubs', hsub, ⟨hsound b.sound, birth, clock, ?_, hq⟩, he, ?_, ?_⟩
  · rw [he]
    exact (hR ▸ hbal).subscribed hn hl hp hd
  · rw [he, hR, forks_frame, forks_frame]
    simp only [subscribed, hl, nil_append, coe_singleton, singleton_bind, coe_nil, zero_bind]
    ac_rfl
  · rw [he, hR, hubWeight_frame, hubWeight_frame]
    simp only [weight, subscribed, hl, nil_append, coe_singleton,
      singleton_bind, coe_nil, zero_bind]
    ac_rfl

/-! ### Waiting -/

lemma retain (b : Solvent Q D M hubs) (hh : (c, h) ∈ hubs.entries)
    (hQ : ∀ birth, Q birth → ∀ m ∈ M, birth m.hub < birth c) :
    Solvent Q D (.await c :: M) (hubs.retain c) ∧
      forks (hubs.retain c).entries = forks hubs.entries ∧
      hubWeight (hubs.retain c).entries = hubWeight hubs.entries := by
  obtain ⟨R, hR⟩ := frame hh
  have he : (hubs.retain c).entries = {(c, { h with retained := h.retained + 1 })} + R :=
    entries_update hR _
  obtain ⟨birth, clock, hbal, hq⟩ := b.books
  refine ⟨⟨Sound.retain b.sound c, birth, clock, ?_, hq⟩, forks_update hR he rfl,
    hubWeight_update hR he rfl rfl⟩
  rw [he]
  exact (hR ▸ hbal).retained (hQ birth hq)

lemma release {L : List Mark} (b : Solvent Q D (L ++ .await c :: M) hubs)
    (hL : ∀ m ∈ L, ∃ Y, m = .await Y) :
    ∃ h, hubs.get? c = some h ∧ (h.status.isSome = true →
      Solvent Q D (L ++ M) (hubs.release c) ∧
        forks (hubs.release c).entries = forks hubs.entries ∧
        hubWeight (hubs.release c).entries = hubWeight hubs.entries) := by
  obtain ⟨birth, clock, hbal, hq⟩ := b.books
  obtain ⟨h, hh : (c, h) ∈ hubs.entries⟩ := hbal.alive (m := .await c) (by simp)
  obtain ⟨R, hR⟩ := frame hh
  refine ⟨h, Slab.get?_of_entries hR, fun hst => ?_⟩
  obtain ⟨hl, hr⟩ := (hR ▸ hbal).last_waiter hL hst
  have he := release_last hR hst hl hr
  refine ⟨⟨Sound.release b.sound c, birth, clock, ?_, hq⟩, ?_, ?_⟩
  · rw [he]
    exact (hR ▸ hbal).released hL hst
  · rw [he, hR, forks_frame, hl]
    simp
  · obtain ⟨s, hs⟩ := isSome_iff_exists.mp hst
    rw [he, hR, hubWeight_frame]
    simp [weight, hs, hl]

/-! ### Duties -/

lemma adjust (b : Solvent Q D (duty.marks ++ M) hubs) (hR : hubs.entries = {(i, h)} + R)
    (hs : hubs'.Sound) (he : hubs'.entries = {(i, h')} + R)
    (hb : ∀ {birth clock}, Balanced birth clock ({(i, h)} + R) D (duty.marks ++ M) →
      Balanced birth clock ({(i, h')} + R) D M)
    (hst : h'.status = h.status) (hl : h'.subscribers = h.subscribers) :
    Performed Q D M hubs duty hubs' [] := by
  obtain ⟨birth, clock, hbal, hq⟩ := b.books
  refine ⟨⟨hs, birth, clock, ?_, hq⟩, forks_update hR he hl, ?_⟩
  · rw [he]
    exact hb (hR ▸ hbal)
  · rw [hubWeight_update hR he hst hl, coe_nil, zero_bind]
    exact lighter_add _ duty.low_mem_weight (by simp)

/-- A duty that may complete a hub finds it open, and completes it or is noted there. -/
lemma target (b : Solvent Q D (duty.marks ++ M) hubs) (ht : duty.target? = some i) :
    ∃ hubs' ds, hubs.perform duty = (hubs', none, ds) ∧ Performed Q D M hubs duty hubs' ds := by
  obtain ⟨birth, clock, hbal, hq⟩ := b.books
  obtain ⟨h, hh, hn⟩ := hbal.target ht fun m hm => mem_append_left _ hm
  obtain ⟨R, hR⟩ := frame hh
  have hsound := Sound.perform b.sound duty
  by_cases hdue : (h.heed duty).IsDue
  · obtain ⟨he, hds⟩ := entries_due hR ht hn hdue
    obtain ⟨hst, hl, -⟩ := h.fulfil_eq duty
    refine ⟨_, _, Prod.ext rfl hds, ⟨hsound, birth, clock, ?_, hq⟩, forks_update hR he hl, ?_⟩
    · rw [he, marks_duties]
      exact (hR ▸ hbal).fulfilled ht hn hdue
    · have hwe : hubWeight hubs.entries = hubWeight (hubs.perform duty).1.entries + {low 3} := by
        rw [he, hR, hubWeight_frame, hubWeight_frame]
        simp only [weight, hn, hst, hl, isNone_none, isNone_some, if_true,
          Bool.false_eq_true, if_false, zero_add]
        ac_rfl
      rw [hwe, add_assoc]
      refine lighter_add _ (mem_add.mpr (.inl (Multiset.mem_singleton_self _))) fun y hy => ?_
      rw [weight_duties i h _ y hy]
      simp
  · obtain ⟨he, hds⟩ := entries_waiting hR ht hn hdue
    have hsame : (h.heed duty).status = h.status ∧ (h.heed duty).subscribers = h.subscribers := by
      cases duty <;> exact ⟨rfl, rfl⟩
    exact ⟨_, _, Prod.ext rfl hds,
      b.adjust hR hsound he (fun b => b.heeded ht hn hdue) hsame.1 hsame.2⟩

/-- A hub with a child that is open is sealed, and stays as it is otherwise. -/
lemma sealPending (b : Solvent Q D (.drive c :: M) hubs) (hh : (i, h) ∈ hubs.entries)
    (hn : h.status = none) (hp : h.parent = some c) :
    (hubs.sealOff c).2 = [] ∧ Solvent Q D M (hubs.sealOff c).1 ∧
      (∃ k, hubs.get? c = some k ∧ (hubs.sealOff c).1.get? c = some { k with isSealed := true }) ∧
      forks (hubs.sealOff c).1.entries = forks hubs.entries ∧
      hubWeight (hubs.sealOff c).1.entries = hubWeight hubs.entries := by
  obtain ⟨birth, clock, hbal, hq⟩ := b.books
  obtain ⟨k, hk, hkn, -⟩ := hbal.driven mem_cons_self
  obtain ⟨R, hR⟩ := frame hk
  have hpend : 0 < k.pending := by
    obtain ⟨k', hk', hw⟩ := hbal.wanted_give hh (mem_gives.mpr (.inr ⟨hn, c, hp, rfl⟩))
    rw [hbal.unique hk' hk] at hw
    simpa [Hub.mem_wants, hkn, Mark.hub] using hw
  obtain ⟨he, hd⟩ : (hubs.sealOff c).1.entries = {(c, { k with isSealed := true })} + R ∧ _ :=
    entries_waiting (d := .sealOff c) hR rfl hkn fun hd => hpend.ne' hd.1
  refine ⟨congrArg Prod.snd hd, ⟨Sound.perform b.sound (.sealOff c), birth, clock, ?_, hq⟩,
    ⟨k, Slab.get?_of_entries hR, Slab.get?_of_entries he⟩, forks_update hR he rfl,
    hubWeight_update hR he rfl rfl⟩
  rw [he]
  exact (hR ▸ hbal).heeded (u := .sealOff c) rfl hkn fun hd => hpend.ne' hd.1

lemma settle (b : Solvent Q D (.settle i :: M) hubs) :
    Performed Q D M hubs (.settle i) (hubs.settle i) [] := by
  obtain ⟨birth, clock, hbal, hq⟩ := b.books
  obtain ⟨h, hh, hst, hl⟩ := hbal.spent
  obtain ⟨R, hR⟩ := frame hh
  by_cases hr : h.retained = 0
  · have he : (hubs.settle i).entries = R :=
      settle_spent hR (by simp [isSpent, hst, hl, hr])
    refine ⟨⟨Sound.settle b.sound i, birth, clock, ?_, hq⟩, ?_, ?_⟩
    · rw [he]
      exact (hR ▸ hbal).settle_dropped hst hl hr
    · rw [he, hR, forks_frame, hl]
      simp
    · have hwe : hubWeight (hubs.settle i).entries = hubWeight hubs.entries := by
        obtain ⟨s, hs⟩ := isSome_iff_exists.mp hst
        rw [he, hR, hubWeight_frame]
        simp [weight, hs, hl]
      rw [hwe, coe_nil, zero_bind]
      exact lighter_add _ (Duty.low_mem_weight _) (by simp)
  · have he : hubs.settle i = hubs := settle_unspent hR (by simp [isSpent, hr])
    rw [he]
    exact b.adjust hR b.sound hR (fun b => b.settle_kept hr) rfl rfl

/-- Each duty can be done. Only when there are subscribers to be called there is more to it. -/
lemma perform (b : Solvent Q D (duty.marks ++ M) hubs) :
    (∃ hubs' ds, hubs.perform duty = (hubs', none, ds) ∧ Performed Q D M hubs duty hubs' ds) ∨
      ∃ i s k keys, duty = .deliver i s (k :: keys) := by
  cases duty with
  | notify | sealOff | report => exact .inl (b.target rfl)
  | settle i => exact .inl ⟨_, _, rfl, b.settle⟩
  | deliver i s keys =>
    cases keys with
    | cons k keys => exact .inr ⟨i, s, k, keys, rfl⟩
    | nil =>
      refine .inl ⟨hubs, [], rfl, b, rfl, ?_⟩
      rw [coe_nil, zero_bind]
      exact lighter_add _ (Duty.low_mem_weight _) (by simp)

lemma deliver (b : Solvent Q D (.deliver i s k :: M) hubs) (keys : List ℕ) :
    ∃ cb hubs',
      hubs.perform (.deliver i s (k :: keys)) = (hubs', some (cb, s), [.deliver i s keys]) ∧
      Solvent Q D (.drive cb.hub :: M) hubs' ∧
      forks hubs.entries = cb.forks + forks hubs'.entries ∧
      hubWeight hubs.entries = hubWeight hubs'.entries + cb.weight := by
  obtain ⟨birth, clock, hbal, hq⟩ := b.books
  obtain ⟨h, hh, hst, cb, hc⟩ := hbal.delivered mem_cons_self
  obtain ⟨R, hR⟩ := frame hh
  obtain ⟨hubs', hhubs, hsound, he⟩ : ∃ hubs' : Hubs Callback,
      hubs.perform (.deliver i s (k :: keys)) = (hubs', some (cb, s), [.deliver i s keys]) ∧
        hubs'.Sound ∧ hubs'.entries = {(i, { h with subscribers := [] })} + R := by
    refine ⟨hubs.update i (·.without k), ?_, Sound.update b.sound i _, ?_⟩
    · simp [Hubs.perform, Slab.get?_of_entries hR, hc]
    · rw [entries_update hR, Hub.without_sole hc]
  refine ⟨cb, hubs', hhubs, ⟨hsound, birth, clock, ?_, hq⟩, ?_, ?_⟩
  · rw [he]
    exact (hR ▸ hbal).called hst hc
  · rw [he, hR, forks_frame, forks_frame, hc]
    simp only [coe_nil, zero_bind, coe_singleton, singleton_bind]
    ac_rfl
  · rw [he, hR, hubWeight_frame, hubWeight_frame]
    simp only [weight, hc, coe_nil, zero_bind, coe_singleton, singleton_bind]
    ac_rfl

end Solvent

end JobShell
