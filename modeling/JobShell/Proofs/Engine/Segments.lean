import JobShell.Proofs.Engine.Desk

/-!
The segments of a pipeline on the desk.

A pipeline has a hub with a child for each segment, and each child is given to the job of its
segment. The job settles at some time, its hub is notified of the status and completes, and that is
reported to the hub of the pipeline. When the status is to be turned around, a subscriber of the
last child has the hub of the pipeline until that child completes; otherwise the hub is sealed from
the start. Whatever else is dealt in between, a segment only ever goes from one of these stages to
the next.
-/

namespace JobShell

open Hub List Multiset Option Duty

/-- The hub that a duty is about. -/
def Duty.hub : Duty → HubId
  | .notify hub _ | .sealOff hub | .report hub .. | .deliver hub .. | .settle hub => hub

namespace Desk

open Hub.Note Hub.Scene

variable {t : Terms} {past os : Notes} {ss log : Log} {d d' : Desk}
  {slot x : HubId} {h : Hub Callback} {u : Duty} {ds : List Duty} {id : JobId} {status : Int}

/-! ### What a deal tells of a hub -/

variable {n m key : ℕ}

lemma asks_heeded (past : Notes) (m n : ℕ) (ht : u.target? = some slot) :
    asks (u.heeded past m) n = [] ∨
      ∃ status, u = .notify slot status ∧ m = n ∧ asks (u.heeded past m) n = [status] := by
  cases u with
  | notify hub status =>
    cases ht
    by_cases hm : m = n
    · exact .inr ⟨status, rfl, hm, by rw [heeded, asks_asked, if_pos hm]⟩
    · exact .inl (by rw [heeded, asks_asked, if_neg hm])
  | sealOff hub => exact .inl rfl
  | report hub order =>
    left
    rcases hc : (children past m)[order]? with _ | child <;> simp [heeded, hc, asks, select]
  | deliver | settle => cases ht

lemma sealed_heeded (ht : u.target? = some slot) (hm : .sealed n ∈ u.heeded past m) :
    u = .sealOff slot ∧ m = n := by
  cases u with
  | notify hub status => simp [heeded] at hm
  | sealOff hub =>
    cases ht
    simp only [heeded, List.mem_singleton, Note.sealed.injEq] at hm
    exact ⟨rfl, hm.symm⟩
  | report hub order status contributes => simp [heeded] at hm
  | deliver | settle => cases ht

lemma heeded_kind {o : Note} (hm : o ∈ u.heeded past m) :
    (∀ k p, o ≠ .created k p) ∧ ∀ k key, o ≠ .subscribed k key := by
  cases u with
  | notify | sealOff => simp_all [heeded]
  | report hub order status contributes =>
    simp only [heeded, List.mem_map] at hm
    obtain ⟨child, -, rfl⟩ := hm
    simp
  | deliver | settle => simp [heeded] at hm

section

variable (hd : Deal t past d os ss d')
include hd

lemma Deal.asks (n : ℕ) :
    asks os n = [] ∨ ∃ slot h status ds, d.scene.duties = .notify slot status :: ds ∧
      d.scene.hubs.get? slot = some h ∧ h.status = none ∧ d.scene.tenant slot = n ∧
      asks os n = [status] := by
  cases hd with
  | @heeded slot h u ds ha hw =>
    obtain ⟨hd, ht, hg, hn⟩ := ha
    rcases asks_heeded past (d.scene.tenant slot) n ht with hno | ⟨status, rfl, hm, ha⟩
    · exact .inl hno
    · exact .inr ⟨slot, h, status, ds, hd, hg, hn, hm, ha⟩
  | @completed slot h u ds ha =>
    obtain ⟨hd, ht, hg, hn⟩ := ha
    have hlast : asks [.completed (d.scene.tenant slot) (h.verdict u) h.keys] n = [] := rfl
    rw [asks_append, hlast, append_nil]
    rcases asks_heeded past (d.scene.tenant slot) n ht with hno | ⟨status, rfl, hm, ha⟩
    · exact .inl hno
    · exact .inr ⟨slot, h, status, ds, hd, hg, hn, hm, ha⟩
  | _ => exact .inl rfl

lemma Deal.sealed (hm : .sealed n ∈ os) :
    ∃ slot h ds, d.scene.duties = .sealOff slot :: ds ∧ d.scene.hubs.get? slot = some h ∧
      h.status = none ∧ d.scene.tenant slot = n := by
  cases hd with
  | @heeded slot h u ds ha | @completed slot h u ds ha =>
    have hm' : .sealed n ∈ u.heeded past (d.scene.tenant slot) := by simpa using hm
    obtain ⟨rfl, hn'⟩ := sealed_heeded ha.target hm'
    exact ⟨slot, h, ds, ha.duties, ha.hub, ha.running, hn'⟩
  | _ => simp at hm

lemma Deal.children (hm : .created m (some n) ∈ os) :
    ∃ slot h, slot ∈ d.hands ∧ d.scene.hubs.get? slot = some h ∧ h.status = none ∧
      d.scene.tenant slot = n := by
  cases hd with
  | created parent store hp =>
    simp only [List.mem_singleton, Note.created.injEq] at hm
    obtain ⟨slot, rfl, hopen⟩ := bind_eq_some_iff.mp hm.2.symm
    obtain ⟨h, hg, hn, ht⟩ := exists_openHub hopen
    exact ⟨slot, h, mem_hands hp, hg, hn, ht⟩
  | enclosed hh _ =>
    obtain ⟨-, hopen⟩ : _ ∧ _ := by simpa using hm
    obtain ⟨h, hg, hn, ht⟩ := exists_openHub hopen.symm
    exact ⟨_, h, mem_hands (mem_held hh), hg, hn, ht⟩
  | heeded => exact absurd rfl ((heeded_kind hm).1 _ _)
  | completed =>
    rcases mem_append.mp hm with hm | hm
    · exact absurd rfl ((heeded_kind hm).1 _ _)
    · simp at hm
  | _ => simp at hm

lemma Deal.subscribes (hm : .subscribed n key ∈ os) :
    n = d.scene.handles.length ∨ ∃ slot h p, p ∈ d.hands ∧ d.scene.hubs.get? slot = some h ∧
      h.status = none ∧ h.parent = some p ∧ d.scene.tenant slot = n := by
  cases hd with
  | enclosed => exact .inl (by simpa using hm : _ ∧ _).1
  | @subscribed slot h cb _ H hg hn hs hp hf hc hh =>
    simp only [List.mem_singleton, Note.subscribed.injEq] at hm
    exact .inr ⟨slot, h, cb.hub, mem_hands (mem_held hh), hg, hn, hp, hm.1.symm⟩
  | heeded => exact absurd rfl ((heeded_kind hm).2 _ _)
  | completed =>
    rcases mem_append.mp hm with hm | hm
    · exact absurd rfl ((heeded_kind hm).2 _ _)
    · simp at hm
  | _ => simp at hm

lemma Deal.handle (hn : d.scene.handles[n]? = some slot) : d'.scene.handles[n]? = some slot := by
  cases hd with
  | created | enclosed =>
    rw [getElem?_append_left (List.getElem?_eq_some_iff.mp hn).1]
    exact hn
  | _ => exact hn

/-! ### What a deal leaves as it is -/

lemma Deal.tenant (hs : Sane past d.scene)
    (hg : d.scene.hubs.get? slot = some h) : d'.scene.tenant slot = d.scene.tenant slot := by
  cases hd with
  | created | enclosed => exact tenant_old rfl (hs.sound.ne_next hg)
  | _ => rfl

/-- A job is there until it settles, and then its hub is to be notified. -/
lemma Deal.job (o : d.Owned) {s : StoreId} (hj : (id, slot, s) ∈ d.jobs) :
    (id, slot, s) ∈ d'.jobs ∨
      ∃ status, ss = [(id, status)] ∧ .notify slot status ∈ d'.scene.duties := by
  cases hd with
  | hired hh => exact .inl (mem_append_left _ hj)
  | @settled j hub _ hj' status =>
    by_cases he : j = id
    · subst he
      cases inj_on_of_nodup_map o.ids hj' hj rfl
      exact .inr ⟨status, rfl, mem_cons_self⟩
    · exact .inl (mem_filter.mpr ⟨hj, by simpa using Ne.symm he⟩)
  | _ => exact .inl hj

/-- A hub is notified of the status that a duty has for it, and of no other before. -/
lemma Deal.notify (o : d.Owned) (hs : Sane past d.scene)
    (hm : .notify slot status ∈ d.scene.duties) :
    Hub.asks os (d.scene.tenant slot) = [] ∧ .notify slot status ∈ d'.scene.duties ∨
      Hub.asks os (d.scene.tenant slot) = [status] := by
  obtain ⟨k, hk, hopen, -⟩ := o.free slot (mem_drivers.mpr (.inr (.inr (.inl ⟨_, hm, rfl⟩))))
  -- nobody else has a status for the hub
  have hother : ∀ {u : Duty} {ds : List Duty} {slot' : HubId} {h' : Hub Callback},
      d.scene.Asked slot' h' u ds → .notify slot status ∈ ds →
      Hub.asks (u.heeded past (d.scene.tenant slot')) (d.scene.tenant slot) = [] := by
    rintro u ds slot' h' ⟨hduties, ht, hg', -⟩ hm'
    refine (asks_heeded past _ _ ht).resolve_right ?_
    rintro ⟨status', rfl, htenant, -⟩
    obtain rfl := tenant_inj (hs.handle _ _ hg') (hs.handle _ _ hk) htenant.symm
    refine o.driven_top hduties rfl (mem_add.mpr (.inl (mem_add.mpr (.inr ?_))))
    exact mem_filterMap.mpr ⟨_, hm', rfl⟩
  have htop : ∀ {u : Duty} {ds : List Duty}, d.scene.duties = u :: ds →
      .notify slot status = u ∨ .notify slot status ∈ ds := by
    intro u ds hduties
    exact mem_cons.mp (hduties ▸ hm)
  cases hd with
  | @idle u ds hd hi =>
    rcases htop hd with rfl | hm'
    · simpa [hopen] using hi k hk
    · exact .inl ⟨rfl, hm'⟩
  | called hd =>
    rcases htop hd with he | hm'
    · cases he
    · exact .inl ⟨rfl, mem_cons_of_mem _ hm'⟩
  | passed hd =>
    rcases htop hd with he | hm'
    · cases he
    · exact .inl ⟨rfl, mem_cons_of_mem _ (mem_cons_of_mem _ hm')⟩
  | @heeded slot' h' u ds ha =>
    rcases htop ha.duties with rfl | hm'
    · cases ha.target
      exact .inr (by rw [Duty.heeded, asks_asked, if_pos rfl])
    · exact .inl ⟨hother ha hm', hm'⟩
  | @completed slot' h' u ds ha =>
    have hlast : ∀ n, Hub.asks [.completed (d.scene.tenant slot') (h'.verdict u) h'.keys] n = [] :=
      fun _ => rfl
    rw [asks_append, hlast, append_nil]
    rcases htop ha.duties with rfl | hm'
    · cases ha.target
      exact .inr (by rw [Duty.heeded, asks_asked, if_pos rfl])
    · exact .inl ⟨hother ha hm', mem_append_right _ hm'⟩
  | dropped _ hd =>
    rcases htop hd with he | hm'
    · cases he
    · exact .inl ⟨rfl, hm'⟩
  | notified | sealing | settled | released => exact .inl ⟨rfl, mem_cons_of_mem _ hm⟩
  | _ => exact .inl ⟨rfl, hm⟩

/-- A subscriber that turns a status around stays until the hub has completed, and then the hub it
has is to be notified. -/
lemma Deal.subscriber (o : d.Owned) (hs : Sane past d.scene)
    (hg : d.scene.hubs.get? slot = some h) (hm : h.subscribers = [(key, .negate x)]) :
    (∃ h', d'.scene.hubs.get? slot = some h' ∧ h'.subscribers = [(key, .negate x)]) ∨
      ∃ status, h.status = some status ∧
        .notify x (if status = 0 then 1 else 0) ∈ d'.scene.duties := by
  cases hd.fares o hs.sound hg with
  | stays n hg' | bears hh hg' => exact .inl ⟨_, hg', hm⟩
  | subscribed hn hs' => cases hs'.symm.trans hm
  | calls hst hs' hp =>
    cases hs'.symm.trans hm
    exact .inr ⟨_, hst, hp _ rfl⟩
  | heeds hu ht hn hs' hg' => exact .inl ⟨_, hg', hs'.trans hm⟩
  | dropped hd hsp => simp [isSpent, hm] at hsp

end

/-! ### Hubs that are spoken for -/

lemma bidden {sc : Scene Callback} (hr : sc.Run false past) (hc : completions past n ≠ []) :
    .sealed n ∈ past ∨ asks past n ≠ [] := by
  induction hr with
  | start => exact absurd rfl hc
  | @move past os sc sc' hr hchange ih =>
    by_cases hold : completions past n = []
    · have hnew : completions os n ≠ [] := by simpa [hold] using hc
      cases hchange with
      | @completed slot h u ds ha hdue =>
        have hsame : sc.tenant slot = n := by
          by_contra hne
          rw [completions_append, (quiet_heeded past _ u n).1, completions_completed,
            if_neg hne] at hnew
          exact hnew rfl
        have hminds := (hr.tally.minds slot h ha.hub ha.running).1.heed hr.ledger hr.sane ha
        rw [← hsame, ← append_assoc, asks_append, mem_append]
        exact (hminds.sealed.mp hdue.2).imp .inl fun ha hnil => ha (append_eq_nil_iff.mp hnil).1
      | heeded => exact absurd (quiet_heeded past _ _ n).1 hnew
      | _ => exact absurd rfl hnew
    · refine (ih hold).imp (mem_append_left _) fun ha => ?_
      simp [ha]

@[simp] lemma mem_jobHubs {js : Posts} :
    x ∈ jobHubs js ↔ ∃ id s, (id, x, s) ∈ js := by
  simp [jobHubs]

@[simp] lemma mem_drives : x ∈ drives ds ↔ ∃ u ∈ ds, u.driven? = some x := by
  simp [drives]

/-- Some job, some duty or some subscriber is to complete a hub, or no one is any more. -/
def Spoken (d : Desk) (n : ℕ) : Prop :=
  ∀ slot h, d.scene.hubs.get? slot = some h → h.status = none → d.scene.tenant slot = n →
    (∃ id s, (id, slot, s) ∈ d.jobs) ∨ (∃ status, .notify slot status ∈ d.scene.duties) ∨
      slot ∈ d.scene.hubs.bound ∨ slot ∉ d.drivers

lemma Spoken.not_held (sp : d.Spoken n) (o : d.Owned) (hg : d.scene.hubs.get? slot = some h)
    (hn : h.status = none) (ht : d.scene.tenant slot = n) : slot ∉ d.hands := by
  intro hm
  have hnodup := o.nodup
  rw [drivers, add_assoc, add_assoc, nodup_add] at hnodup
  refine Multiset.disjoint_left.mp hnodup.2.2 hm ?_
  rcases sp slot h hg hn ht with hj | ⟨status, hd⟩ | hb | hno
  · exact mem_add.mpr (.inl (mem_jobHubs.mpr hj))
  · refine mem_add.mpr (.inr (mem_add.mpr (.inl ?_)))
    exact mem_drives.mpr ⟨_, hd, rfl⟩
  · exact mem_add.mpr (.inr (mem_add.mpr (.inr hb)))
  · exact absurd (mem_drivers.mpr (.inl hm)) hno

lemma Spoken.not_sealing (sp : d.Spoken n) (o : d.Owned) (hg : d.scene.hubs.get? slot = some h)
    (hn : h.status = none) (ht : d.scene.tenant slot = n) :
    d.scene.duties ≠ .sealOff slot :: ds := by
  intro hd
  have htop := o.driven_top hd rfl
  simp only [mem_add, not_or] at htop
  obtain ⟨⟨⟨hheld, hjobs⟩, hdrives⟩, hbound⟩ := htop
  rcases sp slot h hg hn ht with hj | ⟨status, hm⟩ | hb | hno
  · exact hjobs (mem_jobHubs.mpr hj)
  · rw [hd, List.mem_cons] at hm
    rcases hm with he | hm
    · cases he
    · exact hdrives (mem_drives.mpr ⟨_, hm, rfl⟩)
  · exact hbound hb
  · exact hno (mem_drivers.mpr (.inr (.inr (.inl ⟨_, hd ▸ List.mem_cons_self, rfl⟩))))

lemma Deal.spoken (hd : Deal t past d os ss d') (o : d.Owned) (sp : d.Spoken n) :
    Hub.children os n = [] ∧ .sealed n ∉ os := by
  constructor
  · refine eq_nil_iff_forall_not_mem.mpr fun m hm => ?_
    obtain ⟨slot, h, hheld, hg, hn, ht⟩ := hd.children (mem_children.mp hm)
    exact sp.not_held o hg hn ht hheld
  · intro hm
    obtain ⟨slot, h, ds, hduties, hg, hn, ht⟩ := hd.sealed hm
    exact sp.not_sealing o hg hn ht hduties

/-- Whoever was asked for a status or sealed is no one's to complete. -/
lemma not_mem_drivers (o : d.Owned) (ht : Tally past d.scene) (hg : d.scene.hubs.get? slot = some h)
    (hn : h.status = none)
    (hs : .sealed (d.scene.tenant slot) ∈ past ∨ asks past (d.scene.tenant slot) ≠ []) :
    slot ∉ d.drivers := by
  intro hm
  obtain ⟨k, hk, -, hsealed⟩ := o.free slot hm
  cases hg.symm.trans hk
  cases hsealed.symm.trans ((ht.minds slot h hg hn).1.sealed.mpr hs)

/-! ### Stages -/

/-- A hub that was neither sealed nor asked for a status is there and open. -/
lemma located (hr : d.scene.Run false past) (hslot : d.scene.handles[n]? = some slot)
    (hu : .sealed n ∉ past) (ha : asks past n = []) :
    ∃ h, d.scene.hubs.get? slot = some h ∧ h.status = none ∧ d.scene.tenant slot = n := by
  have hc : completions past n = [] := by
    by_contra hne
    rcases bidden hr hne with hsealed | hasked
    · exact hu hsealed
    · exact hasked ha
  obtain ⟨k, h, hg, hn, ht, hk⟩ :=
    hr.sane.exists_open (List.getElem?_eq_some_iff.mp hslot).1 hc
  obtain rfl : k = slot := some.inj (hk.symm.trans hslot)
  exact ⟨h, hg, hn, ht⟩

/-- Nobody asks a hub for a status as long as someone else is to complete it. -/
lemma Deal.not_asked (hd : Deal t past d os ss d') (o : d.Owned) (hs : Sane past d.scene)
    (hg : d.scene.hubs.get? slot = some h)
    (hx : (∃ id s, (id, slot, s) ∈ d.jobs) ∨ slot ∈ d.scene.hubs.bound) :
    Hub.asks os (d.scene.tenant slot) = [] := by
  refine (hd.asks _).resolve_right ?_
  rintro ⟨k, hub, status, ds, hduties, hk, -, ht, -⟩
  obtain rfl := tenant_inj (hs.handle _ _ hg) (hs.handle _ _ hk) ht
  have htop := o.driven_top hduties rfl
  simp only [mem_add, not_or, mem_jobHubs] at htop
  exact hx.elim htop.1.1.2 htop.2

/-- How far a segment has come: its job is there, its job has settled and its hub is to be notified,
or its hub was notified of the status. -/
inductive Stage (past : Notes) (log : Log) (d : Desk) (id : JobId) (n : ℕ) :
    Prop where
  | working {slot : HubId} {s : StoreId} (hs : d.scene.handles[n]? = some slot)
      (hj : (id, slot, s) ∈ d.jobs) (ha : Hub.asks past n = [])
  | ending {slot : HubId} {status : Int} (hs : d.scene.handles[n]? = some slot)
      (hl : (id, status) ∈ log) (hm : .notify slot status ∈ d.scene.duties)
      (ha : Hub.asks past n = [])
  | ended {status : Int} (hl : (id, status) ∈ log) (ha : (Hub.asks past n).head? = some status)

lemma Stage.spoken (s : Stage past log d id n) (o : d.Owned) (hr : d.scene.Run false past) :
    d.Spoken n := by
  intro slot h hg hn ht
  have hslot : d.scene.handles[n]? = some slot := ht ▸ getElem?_tenant (hr.sane.handle slot h hg)
  cases s with
  | working hs hj ha =>
    obtain rfl := some.inj (hs.symm.trans hslot)
    exact .inl ⟨id, _, hj⟩
  | ending hs hl hm ha =>
    obtain rfl := some.inj (hs.symm.trans hslot)
    exact .inr (.inl ⟨_, hm⟩)
  | ended hl ha =>
    refine .inr (.inr (.inr (not_mem_drivers o hr.tally hg hn (.inr ?_))))
    rw [ht]
    rintro hnil
    simp [hnil] at ha

/-- A deal leaves a segment where it is or takes it to the next stage. -/
lemma Stage.deal (s : Stage past log d id n) (o : d.Owned) (hr : d.scene.Run false past)
    (hu : .sealed n ∉ past) (hd : Deal t past d os ss d') :
    Stage (past ++ os) (log ++ ss) d' id n := by
  cases s with
  | @working slot s hs hj ha =>
    obtain ⟨h, hg, hn, rfl⟩ := located hr hs hu ha
    have hno := hd.not_asked o hr.sane hg (.inl ⟨id, s, hj⟩)
    have hasks : asks (past ++ os) (d.scene.tenant slot) = [] := by rw [asks_append, ha, hno]; rfl
    rcases hd.job o hj with hj' | ⟨status, rfl, hm⟩
    · exact .working (hd.handle hs) hj' hasks
    · exact .ending (hd.handle hs) (by simp) hm hasks
  | ending hs hl hm ha =>
    obtain ⟨h, hg, hn, rfl⟩ := located hr hs hu ha
    rcases hd.notify o hr.sane hm with ⟨hno, hm'⟩ | hasked
    · exact .ending (hd.handle hs) (mem_append_left _ hl) hm' (by rw [asks_append, ha, hno]; rfl)
    · exact .ended (mem_append_left _ hl) (by rw [asks_append, ha, hasked]; rfl)
  | ended hl ha =>
    exact .ended (mem_append_left _ hl) (by rw [asks_append, head?_append, ha]; rfl)

/-- A segment whose hub has completed did so with the status of its job. -/
lemma Stage.settled {waiting : List ℕ} (s : Stage past log d id n) (hr : d.scene.Run false past)
    (hu : .sealed n ∉ past) (hc : completions past n = [(status, waiting)]) :
    (id, status) ∈ log := by
  have hasked : asks past n ≠ [] := (bidden hr (by simp [hc])).resolve_left hu
  cases s with
  | working hs hj ha => exact absurd ha hasked
  | ending hs hl hm ha => exact absurd ha hasked
  | ended hl ha =>
    have hout := hr.tally.settled n status waiting hc
    rw [outcome, ha] at hout
    exact hout ▸ hl

/-- How far the answer of a pipeline has come whose status is turned around: the last segment has
not completed, the hub is to be notified, or it was. -/
inductive Turning (past : Notes) (log : Log) (d : Desk) (p : ℕ) (id : JobId)
    (n : ℕ) : Prop where
  | waiting {slot x : HubId} {h : Hub Callback} {key : ℕ} (hp : d.scene.handles[p]? = some x)
      (ht : d.scene.tenant slot = n) (hg : d.scene.hubs.get? slot = some h)
      (hm : h.subscribers = [(key, .negate x)]) (ha : Hub.asks past p = [])
  | answering {x : HubId} {status : Int} (hp : d.scene.handles[p]? = some x)
      (hl : (id, status) ∈ log) (hm : .notify x (if status = 0 then 1 else 0) ∈ d.scene.duties)
      (ha : Hub.asks past p = [])
  | answered {status : Int} (hl : (id, status) ∈ log)
      (ha : (Hub.asks past p).head? = some (if status = 0 then 1 else 0))

lemma Turning.spoken {p : ℕ} (t : Turning past log d p id n) (o : d.Owned)
    (hr : d.scene.Run false past) : d.Spoken p := by
  intro slot h hg hn ht
  have hslot : d.scene.handles[p]? = some slot := ht ▸ getElem?_tenant (hr.sane.handle slot h hg)
  cases t with
  | waiting hp ht' hg' hm ha =>
    obtain rfl := some.inj (hp.symm.trans hslot)
    exact .inr (.inr (.inl (Hubs.mem_bound.mpr ⟨_, _, hg', _, hm ▸ List.mem_cons_self, rfl⟩)))
  | answering hp hl hm ha =>
    obtain rfl := some.inj (hp.symm.trans hslot)
    exact .inr (.inl ⟨_, hm⟩)
  | answered hl ha =>
    refine .inr (.inr (.inr (not_mem_drivers o hr.tally hg hn (.inr ?_))))
    rw [ht]
    rintro hnil
    simp [hnil] at ha

lemma Turning.deal {p : ℕ} (r : Turning past log d p id n) (s : Stage past log d id n) (o : d.Owned)
    (hr : d.scene.Run false past) (hup : .sealed p ∉ past) (hu : .sealed n ∉ past)
    (hd : Deal t past d os ss d') : Turning (past ++ os) (log ++ ss) d' p id n := by
  cases r with
  | @waiting slot x h key hp ht hg hm ha =>
    obtain ⟨k, hk, hn, rfl⟩ := located hr hp hup ha
    have hbound := Hubs.mem_bound.mpr ⟨_, _, hg, _, hm ▸ List.mem_cons_self, rfl⟩
    have hno := hd.not_asked o hr.sane hk (.inr hbound)
    have hasks : asks (past ++ os) (d.scene.tenant x) = [] := by rw [asks_append, ha, hno]; rfl
    rcases hd.subscriber o hr.sane hg hm with ⟨h', hg', hm'⟩ | ⟨status, hst, hm'⟩
    · exact .waiting (hd.handle hp) ((hd.tenant hr.sane hg).trans ht) hg' hm' hasks
    · obtain ⟨waiting, hc⟩ := (hr.sane.tells _ _ hg).done status hst
      have hlog := s.settled hr hu (ht ▸ hc)
      exact .answering (hd.handle hp) (mem_append_left _ hlog) hm' hasks
  | answering hp hl hm ha =>
    obtain ⟨k, hk, hn, rfl⟩ := located hr hp hup ha
    rcases hd.notify o hr.sane hm with ⟨hno, hm'⟩ | hasked
    · exact .answering (hd.handle hp) (mem_append_left _ hl) hm'
        (by rw [asks_append, ha, hno]; rfl)
    · exact .answered (mem_append_left _ hl) (by rw [asks_append, ha, hasked]; rfl)
  | answered hl ha =>
    exact .answered (mem_append_left _ hl) (by rw [asks_append, head?_append, ha]; rfl)

/-! ### Pipelines -/

/-- A pipeline: the number and the slot of its hub, the slots of the hubs of its segments, the
number of the first job, and whether its status is turned around. The hubs and the jobs of the
segments have the numbers after these. -/
structure Plan where
  hub : ℕ
  slot : HubId
  kids : List HubId
  job : JobId
  negated : Bool

/-- How many segments a pipeline has. -/
def Plan.count (q : Plan) : ℕ := q.kids.length

/-- The status of a pipeline, given that of its last segment. -/
def Plan.verdict (q : Plan) (status : Int) : Int :=
  if q.negated then if status = 0 then 1 else 0 else status

/-- What is noted and what is on the desk while a pipeline is at work. -/
structure Staged (q : Plan) (past : Notes) (log : Log) (d : Desk) : Prop where
  pos : 0 < q.count
  here : ∀ i slot, (q.slot :: q.kids)[i]? = some slot → d.scene.handles[q.hub + i]? = some slot
  kids : Hub.children past q.hub = range' (q.hub + 1) q.count
  barren : ∀ i < q.count, Hub.children past (q.hub + 1 + i) = []
  unsealed : ∀ i < q.count, .sealed (q.hub + 1 + i) ∉ past
  stages : ∀ i < q.count, Stage past log d (q.job + i) (q.hub + 1 + i)
  plain : q.negated = false → .sealed q.hub ∈ past ∧ Hub.asks past q.hub = [] ∧
    ∀ key, .subscribed (q.hub + q.count) key ∉ past
  turned : q.negated = true → .sealed q.hub ∉ past ∧
    Turning past log d q.hub (q.job + (q.count - 1)) (q.hub + q.count)

variable {q : Plan}

section

variable (s : Staged q past log d)
include s

lemma Staged.handle : d.scene.handles[q.hub]? = some q.slot :=
  s.here 0 q.slot rfl

lemma Staged.last : q.count - 1 < q.count ∧ q.hub + 1 + (q.count - 1) = q.hub + q.count := by
  have := s.pos
  omega

lemma Staged.mem_kids : n ∈ children past q.hub ↔ ∃ i < q.count, n = q.hub + 1 + i := by
  rw [s.kids, mem_range'_1]
  constructor
  · rintro ⟨hle, hlt⟩
    exact ⟨n - (q.hub + 1), by omega, by omega⟩
  · rintro ⟨i, hi, rfl⟩
    omega

lemma Staged.spoken (o : d.Owned) (hr : d.scene.Run false past) : d.Spoken q.hub := by
  rcases hneg : q.negated with _ | _
  · intro slot h hg hn ht
    refine .inr (.inr (.inr (not_mem_drivers o hr.tally hg hn (.inl ?_))))
    rw [ht]
    exact (s.plain hneg).1
  · exact (s.turned hneg).2.spoken o hr

/-- Nobody subscribes to a segment, for nobody has the hub of the pipeline in hand. -/
lemma Staged.not_subscribed (o : d.Owned) (hr : d.scene.Run false past)
    (hd : Deal t past d os ss d') {i : ℕ} (hi : i < q.count) (key : ℕ) :
    .subscribed (q.hub + 1 + i) key ∉ os := by
  intro hm
  have hkid : (q.slot :: q.kids)[i + 1]? = some q.kids[i] := by
    rw [getElem?_cons_succ, getElem?_eq_getElem hi]
  have hlt := (List.getElem?_eq_some_iff.mp (s.here (i + 1) _ hkid)).1
  obtain ⟨slot, h, p, hheld, hg, hn, hp, ht⟩ := (hd.subscribes hm).resolve_left (by omega)
  obtain ⟨k, hk, hkn, hmem⟩ := hr.exists_parent hg hn hp
  have hkt := hr.ledger.parent _ _ _ (ht ▸ hmem) (s.mem_kids.mpr ⟨i, hi, rfl⟩)
  exact (s.spoken o hr).not_held o hk hkn hkt hheld

lemma Staged.deal (o : d.Owned) (hr : d.scene.Run false past)
    (hd : Deal t past d os ss d') : Staged q (past ++ os) (log ++ ss) d' := by
  have hhub := hd.spoken o (s.spoken o hr)
  have hseg : ∀ i < q.count, _ := fun i hi => hd.spoken o ((s.stages i hi).spoken o hr)
  refine ⟨s.pos, fun i slot hi => hd.handle (s.here i slot hi), ?_, fun i hi => ?_, fun i hi => ?_,
    fun i hi => ?_, fun hneg => ?_, fun hneg => ?_⟩
  · rw [children_append, hhub.1, append_nil, s.kids]
  · rw [children_append, s.barren i hi, (hseg i hi).1]
    rfl
  · rw [mem_append, not_or]
    exact ⟨s.unsealed i hi, (hseg i hi).2⟩
  · exact (s.stages i hi).deal o hr (s.unsealed i hi) hd
  · obtain ⟨hsealed, ha, hsub⟩ := s.plain hneg
    refine ⟨mem_append_left _ hsealed, ?_, fun key => ?_⟩
    · rw [asks_append, ha, nil_append]
      refine (hd.asks q.hub).resolve_right ?_
      rintro ⟨slot, h, status, ds, hduties, hg, hn, ht, -⟩
      refine not_mem_drivers o hr.tally hg hn (.inl (ht ▸ hsealed)) ?_
      exact mem_drivers.mpr (.inr (.inr (.inl ⟨_, hduties ▸ List.mem_cons_self, rfl⟩)))
    · rw [mem_append, not_or]
      refine ⟨hsub key, ?_⟩
      rw [← s.last.2]
      exact s.not_subscribed o hr hd s.last.1 key
  · obtain ⟨hsealed, ht⟩ := s.turned hneg
    rw [mem_append, not_or]
    have hlast := s.stages _ s.last.1
    have hunsealed := s.unsealed _ s.last.1
    rw [s.last.2] at hlast hunsealed
    exact ⟨⟨hsealed, hhub.2⟩, ht.deal hlast o hr hsealed hunsealed hd⟩

/-- A pipeline does not complete before all its segments have settled, and then with the status of
the last one, turned around if it is to be. -/
lemma Staged.completed {waiting : List ℕ} (hr : d.scene.Run false past)
    (hc : completions past q.hub = [(status, waiting)]) :
    (∀ i < q.count, ∃ st, (q.job + i, st) ∈ log) ∧
      ∃ st, (q.job + (q.count - 1), st) ∈ log ∧ status = q.verdict st := by
  have hkids : ∀ i < q.count, ∃ st w, completions past (q.hub + 1 + i) = [(st, w)] := by
    intro i hi
    have hreported := hr.ledger.closed q.hub (by simp [hc]) _ (s.mem_kids.mpr ⟨i, hi, rfl⟩)
    obtain ⟨⟨st, w⟩, hm⟩ := exists_mem_of_ne_nil _ (hr.ledger.among _ _ hreported).2
    exact ⟨st, w, hr.sane.completions_eq hm⟩
  have hlogged : ∀ i < q.count, ∃ st w, completions past (q.hub + 1 + i) = [(st, w)] ∧
      (q.job + i, st) ∈ log := by
    intro i hi
    obtain ⟨st, w, hw⟩ := hkids i hi
    exact ⟨st, w, hw, (s.stages i hi).settled hr (s.unsealed i hi) hw⟩
  refine ⟨fun i hi => ?_, ?_⟩
  · obtain ⟨st, -, -, hl⟩ := hlogged i hi
    exact ⟨st, hl⟩
  · have hout := hr.tally.settled _ _ _ hc
    rcases hneg : q.negated with _ | _
    · obtain ⟨-, ha, hsub⟩ := s.plain hneg
      obtain ⟨st, w, hw, hl⟩ := hlogged _ s.last.1
      refine ⟨st, hl, ?_⟩
      rw [s.last.2] at hw
      have hnobody : w = [] := eq_nil_iff_forall_not_mem.mpr fun key hkey =>
        hsub key (hr.sane.waited _ st w (mem_completions.mp (by simp [hw])) key hkey)
      have hlegacy : legacy past (q.hub + q.count) = some st := by simp [legacy, hw, hnobody]
      have hplace : (children past q.hub)[q.count - 1]? = some (q.hub + q.count) := by
        rw [s.kids, getElem?_range' s.last.1, ← s.last.2]
        simp
      have hlatest := getLast?_filterMap hplace hlegacy fun j a hj ha => by
        have hlt := (List.getElem?_eq_some_iff.mp ha).1
        rw [s.kids, length_range'] at hlt
        omega
      rw [hout, outcome, ha, hlatest, Plan.verdict, hneg]
      rfl
    · obtain ⟨hsealed, ht⟩ := s.turned hneg
      have hasked : asks past q.hub ≠ [] := (bidden hr (by simp [hc])).resolve_left hsealed
      cases ht with
      | waiting hp ht hg hm ha => exact absurd ha hasked
      | answering hp hl hm ha => exact absurd ha hasked
      | @answered st hl ha =>
        rw [outcome, ha] at hout
        exact ⟨st, hl, by rw [hout, Plan.verdict, hneg]; rfl⟩

end

/-- No job that settled is left, and none settles twice. -/
structure Logged (log : Log) (d : Desk) : Prop where
  nodup : (log.map Prod.fst).Nodup
  gone : ∀ l ∈ log, ∀ slot, (l.1, slot) ∉ d.jobs
  old : ∀ l ∈ log, l.1 < d.nextJob

lemma Logged.deal (l : Logged log d) (o : d.Owned) (hd : Deal t past d os ss d') :
    Logged (log ++ ss) d' := by
  cases hd with
  | hired hh =>
    rw [append_nil]
    refine ⟨l.nodup, fun p hp slot hm => ?_, fun p hp => (l.old p hp).trans (Nat.lt_succ_self _)⟩
    rcases mem_append.mp hm with hm | hm
    · exact l.gone p hp slot hm
    · exact (l.old p hp).ne (Prod.mk.inj (List.mem_singleton.mp hm)).1
  | @settled id hub s hj status =>
    refine ⟨?_, fun p hp slot hm => ?_, fun p hp => ?_⟩
    · rw [map_append, List.map_singleton, nodup_append]
      refine ⟨l.nodup, List.nodup_singleton _, fun a ha b hb he => ?_⟩
      obtain ⟨p, hp, rfl⟩ := mem_map.mp ha
      obtain rfl := List.mem_singleton.mp hb
      exact l.gone p hp (hub, s) (he ▸ hj)
    · obtain ⟨hm, hne⟩ := mem_filter.mp hm
      rcases mem_append.mp hp with hp | hp
      · exact l.gone p hp slot hm
      · simp [List.mem_singleton.mp hp] at hne
    · rcases mem_append.mp hp with hp | hp
      · exact l.old p hp
      · rw [List.mem_singleton.mp hp]
        exact o.numbered _ hj
  | _ =>
    rw [append_nil]
    exact ⟨l.nodup, l.gone, l.old⟩

/-- When all segments have settled and the pipeline has not completed, there is still something in
hand for one of its hubs. -/
lemma Staged.exists_duty (s : Staged q past log d) (o : d.Owned) (hr : d.scene.Run false past)
    (l : Logged log d) (hall : ∀ i < q.count, ∃ st, (q.job + i, st) ∈ log)
    (hc : completions past q.hub = []) :
    ∃ u ∈ d.scene.duties, u.hub ∈ q.slot :: q.kids := by
  by_contra hquiet
  push Not at hquiet
  have hnone : ∀ u ∈ d.scene.duties, d.scene.handles[q.hub]? ≠ some u.hub := by
    intro u hu he
    refine hquiet u hu ?_
    rw [← some.inj (s.handle.symm.trans he)]
    exact mem_cons_self
  have hsegment : ∀ u ∈ d.scene.duties, ∀ i < q.count,
      d.scene.handles[q.hub + 1 + i]? ≠ some u.hub := by
    intro u hu i hi he
    have hkid : (q.slot :: q.kids)[i + 1]? = some q.kids[i] := by
      rw [getElem?_cons_succ, getElem?_eq_getElem hi]
    have hslot := s.here (i + 1) _ hkid
    rw [add_comm i, ← add_assoc] at hslot
    refine hquiet u hu ?_
    rw [← some.inj (hslot.symm.trans he)]
    exact mem_of_getElem? hkid
  have hasked : ∀ i < q.count, asks past (q.hub + 1 + i) ≠ [] := by
    intro i hi
    cases s.stages i hi with
    | working hs hj ha =>
      obtain ⟨st, hst⟩ := hall i hi
      exact absurd hj (l.gone _ hst _)
    | ending hs hl hm ha => exact absurd hs (hsegment _ hm i hi)
    | ended hl ha =>
      intro hnil
      simp [hnil] at ha
  -- a segment that was asked has completed, for it has no children to wait for
  have hdone : ∀ i < q.count, completions past (q.hub + 1 + i) ≠ [] := by
    intro i hi hopen
    have hnoted := hr.sane.noted _ (mem_children.mp (s.mem_kids.mpr ⟨i, hi, rfl⟩)) (q.hub + 1 + i)
      (by simp [Note.hubs])
    obtain ⟨slot, h, hg, hn, ht, -⟩ := hr.sane.exists_open hnoted hopen
    obtain ⟨hminds, hpending⟩ := hr.tally.minds slot h hg hn
    have hcount := (hr.ledger.kin slot h hg hn).pending
    rw [ht] at hminds hcount
    rw [s.barren i hi, length_nil] at hcount
    have := hpending (hminds.sealed.mpr (.inr (hasked i hi)))
    omega
  have hreported : ∀ n ∈ children past q.hub, n ∈ reporters past q.hub := by
    intro n hn
    obtain ⟨i, hi, rfl⟩ := s.mem_kids.mp hn
    by_contra hno
    obtain ⟨p, order, hplace, hp, -⟩ := hr.ledger.due q.hub _ hn (hdone i hi) hno
    obtain ⟨u, hu, hreport⟩ := mem_filterMap.mp hplace
    refine hnone u hu ?_
    cases u with
    | report k order' status contributes =>
      cases hreport
      exact hp
    | _ => cases hreport
  -- so the hub waits for nothing, and it was neither sealed nor asked
  obtain ⟨slot, h, hg, hn, ht, hslot⟩ :=
    hr.sane.exists_open (List.getElem?_eq_some_iff.mp s.handle).1 hc
  obtain ⟨hminds, hpending⟩ := hr.tally.minds slot h hg hn
  have hzero : h.pending = 0 := by
    rw [hr.ledger.pending_eq hg hn, ht, countP_eq_zero]
    exact fun n hn => by simpa using hreported n hn
  have hidle : ¬ (.sealed q.hub ∈ past ∨ asks past q.hub ≠ []) := by
    intro hbid
    rw [ht] at hminds
    exact absurd (hpending (hminds.sealed.mpr hbid)) (by omega)
  rcases hneg : q.negated with _ | _
  · exact hidle (.inl (s.plain hneg).1)
  · obtain ⟨hsealed, hturn⟩ := s.turned hneg
    cases hturn with
    | @waiting k x hub key hp ht' hg' hm ha =>
      have hcompleted := hdone _ s.last.1
      rw [s.last.2, ← ht'] at hcompleted
      have hst : hub.status.isSome = true := by
        by_contra hopen
        exact hcompleted ((hr.sane.tells k hub hg').running (by simpa using hopen))
      rcases hr.prompt.waiting k hub hg' hst key (by simp [Hub.keys, hm])
        with hf | ⟨st, keys, hd, -⟩
      · simp [o.flushes] at hf
      · refine hsegment _ hd _ s.last.1 ?_
        rw [s.last.2, ← ht']
        exact getElem?_tenant (hr.sane.handle k hub hg')
    | answering hp hl hm ha => exact hnone _ hm hp
    | answered hl ha =>
      refine hidle (.inr fun hnil => ?_)
      simp [hnil] at ha

/-- What is watched of a pipeline. -/
structure Watched (q : Plan) (past : Notes) (log : Log) (d : Desk) : Prop where
  run : d.scene.Run false past
  owned : d.Owned
  logged : Logged log d
  staged : Staged q past log d

lemma Watched.deal (w : Watched q past log d) (hd : Deal t past d os ss d') :
    Watched q (past ++ os) (log ++ ss) d' where
  run := hd.run w.owned w.run
  owned := w.owned.deal w.run.sane.sound hd
  logged := w.logged.deal w.owned hd
  staged := w.staged.deal w.owned w.run hd

end Desk

end JobShell
