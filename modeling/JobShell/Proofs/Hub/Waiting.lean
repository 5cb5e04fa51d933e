import JobShell.Proofs.Hub.Ending

/-!
Who waits for a hub that completed.

A hub that completed and is still there has someone who retains it or a subscriber that waits,
unless it is about to be dropped. A subscriber that waits for it is about to be called, or the hub
is to be flushed in a later turn. So no hub stays for nothing, and nobody waits in vain. Whoever
waits can leave, and no one else leaves then, as long as the slot of the hub has not been given
away.
-/

namespace JobShell.Hub

open List Hubs Option

namespace Scene

open Note

variable {κ : Type} {sc sc' : Scene κ} {slot : HubId} {h h' : Hub κ} {past os : Notes}
  {d : Duty} {ds : List Duty}

/-- Whenever subscribers of a hub are to be called, it is to be seen afterwards whether the hub is
spent. -/
def Ends : List Duty → Prop
  | [] => True
  | .deliver slot _ _ :: ds => .settle slot ∈ ds ∧ Ends ds
  | _ :: ds => Ends ds

/-- No one waits in vain, and no hub stays for nothing. -/
structure Prompt (sc : Scene κ) : Prop where
  spent : ∀ slot h, sc.hubs.get? slot = some h → h.isSpent = true → .settle slot ∈ sc.duties
  waiting : ∀ slot h, sc.hubs.get? slot = some h → h.status.isSome = true → ∀ key ∈ h.keys,
    slot ∈ sc.flushes ∨ ∃ status keys, .deliver slot status keys ∈ sc.duties ∧ key ∈ keys
  ends : Ends sc.duties

lemma Ends.tail (he : Ends (d :: ds)) : Ends ds := by
  cases d with
  | deliver slot status keys => exact he.2
  | _ => exact he

lemma Ends.cons (he : Ends ds)
    (hd : ∀ slot status keys, d ≠ .deliver slot status keys) : Ends (d :: ds) := by
  cases d with
  | deliver slot status keys => exact absurd rfl (hd slot status keys)
  | _ => exact he

section

variable (hp : Prompt sc)
include hp

lemma Prompt.touch (slot : HubId) (rest : ∀ k, k ≠ slot → sc'.hubs.get? k = sc.hubs.get? k)
    (hspent : ∀ hub, sc'.hubs.get? slot = some hub → hub.isSpent = true → .settle slot ∈ sc'.duties)
    (hwait : ∀ hub, sc'.hubs.get? slot = some hub → hub.status.isSome = true → ∀ key ∈ hub.keys,
      slot ∈ sc'.flushes ∨ ∃ status keys, .deliver slot status keys ∈ sc'.duties ∧ key ∈ keys)
    (hsettle : ∀ k, k ≠ slot → .settle k ∈ sc.duties → .settle k ∈ sc'.duties)
    (hdeliver : ∀ k status keys, k ≠ slot → .deliver k status keys ∈ sc.duties →
      .deliver k status keys ∈ sc'.duties)
    (hflush : ∀ k, k ≠ slot → k ∈ sc.flushes → k ∈ sc'.flushes) (ends : Ends sc'.duties) :
    Prompt sc' := by
  refine ⟨?_, ?_, ends⟩
  · intro k hub hk hsp
    by_cases hne : k = slot
    · subst hne
      exact hspent hub hk hsp
    · rw [rest k hne] at hk
      exact hsettle k hne (hp.spent k hub hk hsp)
  · intro k hub hk hst key hkey
    by_cases hne : k = slot
    · subst hne
      exact hwait hub hk hst key hkey
    · rw [rest k hne] at hk
      rcases hp.waiting k hub hk hst key hkey with hf | ⟨status, keys, hd, hm⟩
      · exact .inl (hflush k hne hf)
      · exact .inr ⟨status, keys, hdeliver k status keys hne hd, hm⟩

/-- What is in hand grows, and no hub that completed shows a change. -/
lemma Prompt.grow (hubs : ∀ k hub, sc'.hubs.get? k = some hub → hub.status.isSome = true →
      ∃ old, sc.hubs.get? k = some old ∧ (old.aspect, old.isSpent) = (hub.aspect, hub.isSpent))
    (duties : ∀ d ∈ sc.duties, d ∈ sc'.duties) (flushes : ∀ k ∈ sc.flushes, k ∈ sc'.flushes)
    (ends : Ends sc'.duties) : Prompt sc' := by
  refine ⟨?_, ?_, ends⟩
  · intro k hub hk hsp
    have hst : hub.status.isSome = true := by
      simp only [isSpent, Bool.and_eq_true] at hsp
      exact hsp.1.1
    obtain ⟨old, hold, hsame⟩ := hubs k hub hk hst
    exact duties _ (hp.spent k old hold ((Prod.mk.inj hsame).2.trans hsp))
  · intro k hub hk hst key hkey
    obtain ⟨old, hold, hsame⟩ := hubs k hub hk hst
    obtain ⟨hs, hrest⟩ := Prod.mk.inj (Prod.mk.inj hsame).1
    have hkeys := (Prod.mk.inj hrest).1
    rcases hp.waiting k old hold (hs ▸ hst) key (hkeys ▸ hkey) with hf | ⟨status, keys, hd, hm⟩
    · exact .inl (flushes k hf)
    · exact .inr ⟨status, keys, duties _ hd, hm⟩

/-- It is to be seen whether the hub in a slot is spent, from which subscribers at most went. -/
lemma Prompt.look {f : Hub κ → Hub κ}
    (hf : ∀ h, (f h).status = h.status ∧ ∀ key ∈ (f h).keys, key ∈ h.keys) :
    Prompt (sc.withUpdate slot f (.settle slot :: sc.duties)) := by
  refine hp.touch slot (fun k hne => get?_update_of_ne _ _ hne) (fun _ _ _ => mem_cons_self) ?_
    (fun _ _ hm => mem_cons_of_mem _ hm) (fun _ _ _ _ hm => mem_cons_of_mem _ hm)
    (fun _ _ hm => hm) (hp.ends.cons (by simp))
  intro hub hk hst key hkey
  obtain ⟨h, hg, rfl⟩ := exists_of_update hk
  rcases hp.waiting slot h hg ((hf h).1 ▸ hst) key ((hf h).2 key hkey)
    with hf | ⟨status, keys, hm, hin⟩
  · exact .inl hf
  · exact .inr ⟨status, keys, mem_cons_of_mem _ hm, hin⟩

/-- The first of the subscribers to be called is no longer there. -/
lemma Prompt.shift {status : Int} {key : ℕ} {keys : List ℕ}
    (hd : sc.duties = .deliver slot status (key :: keys) :: ds)
    (rest : ∀ k, k ≠ slot → sc'.hubs.get? k = sc.hubs.get? k)
    (hold : ∀ hub, sc'.hubs.get? slot = some hub → ∃ h, sc.hubs.get? slot = some h ∧
      hub.status = h.status ∧ ∀ key' ∈ hub.keys, key' ∈ h.keys ∧ key' ≠ key)
    (duties : sc'.duties = .deliver slot status keys :: ds) (flushes : sc'.flushes = sc.flushes) :
    Prompt sc' := by
  have hends := hd ▸ hp.ends
  refine hp.touch slot rest ?_ ?_ ?_ ?_ (fun _ _ hm => flushes ▸ hm) (duties ▸ hends)
  · exact fun _ _ _ => duties ▸ mem_cons_of_mem _ hends.1
  · intro hub hk hst key' hkey
    obtain ⟨h, hg, hsame, hkeys⟩ := hold hub hk
    obtain ⟨hkey', hne⟩ := hkeys key' hkey
    rw [duties, flushes]
    refine (hp.waiting slot h hg (hsame ▸ hst) key' hkey').imp_right ?_
    rintro ⟨st, keys', hm, hin⟩
    rw [hd] at hm
    rcases mem_cons.mp hm with he | hm
    · cases he
      exact ⟨status, keys, mem_cons_self, (mem_cons.mp hin).resolve_left hne⟩
    · exact ⟨st, keys', mem_cons_of_mem _ hm, hin⟩
  · intro k _ hm
    simpa [hd, duties] using hm
  · intro k st keys' hne hm
    simpa [hd, duties, hne] using hm

lemma Prompt.pop (hd : sc.duties = d :: ds)
    (hs : ∀ slot, d = .settle slot → (sc.hubs.get? slot).any isSpent = false)
    (hk : ∀ slot status keys, d = .deliver slot status keys → keys = [] ∨
      sc.hubs.get? slot = none) : Prompt { sc with duties := ds } := by
  refine ⟨?_, ?_, (hd ▸ hp.ends).tail⟩
  · intro k hub hg hsp
    have hm := hp.spent k hub hg hsp
    rw [hd] at hm
    refine (mem_cons.mp hm).resolve_left fun he => ?_
    have hnot := hs k he.symm
    simp [show sc.hubs.get? k = some hub from hg, hsp] at hnot
  · intro k hub hg hst key hkey
    rcases hp.waiting k hub hg hst key hkey with hf | ⟨status, keys, hm, hin⟩
    · exact .inl hf
    · refine .inr ⟨status, keys, ?_, hin⟩
      rw [hd] at hm
      refine (mem_cons.mp hm).resolve_left fun he => ?_
      rcases hk k status keys he.symm with rfl | hnone
      · cases hin
      · rw [show sc.hubs.get? k = some hub from hg] at hnone
        cases hnone

lemma Prompt.created (sound : sc.hubs.Sound) (parent : Option HubId) (handles : List HubId) :
    Prompt { sc with hubs := (sc.hubs.create parent).2, handles } := by
  have hmap := map_create (g := fun h : Hub κ => (h.aspect, h.isSpent))
    (fun _ _ _ _ _ => rfl) sound parent
  refine hp.grow (fun k hub hk hst => ?_) (fun _ hd => hd) (fun _ hk => hk) hp.ends
  have hk' := hmap k
  rw [show Slab.get? (sc.hubs.create parent).2 k = some hub from hk, map_some] at hk'
  split at hk'
  · -- the new hub is open
    have hnone : hub.status = none := congrArg (·.1.1) (some.inj hk')
    simp [hnone] at hst
  · exact map_eq_some_iff.mp hk'.symm

lemma Prompt.attached (parent child : HubId) :
    Prompt { sc with hubs := sc.hubs.addChild parent child } := by
  have hout : Outward fun h : Hub κ => (h.aspect, h.isSpent) := fun _ _ _ _ _ => rfl
  exact hp.grow (fun k hub hk _ => exists_of_map (map_addChild hout parent child k).symm hk)
    (fun _ hd => hd) (fun _ hk => hk) hp.ends

lemma Prompt.subscribed (hg : sc.hubs.get? slot = some h) (callback : κ) :
    Prompt { sc with
      hubs := sc.hubs.update slot (·.subscribed callback)
      flushes := if h.status.isSome then sc.flushes ++ [slot] else sc.flushes } := by
  have hflush : ∀ k ∈ sc.flushes,
      k ∈ if h.status.isSome then sc.flushes ++ [slot] else sc.flushes := by
    intro k hk
    split
    · exact mem_append_left _ hk
    · exact hk
  refine hp.touch slot (fun k hne => get?_update_of_ne _ _ hne) ?_ ?_ (fun _ _ hm => hm)
    (fun _ _ _ _ hm => hm) (fun k _ => hflush k) hp.ends
  · intro hub hub' hsp
    rw [get?_update_self hg] at hub'
    cases hub'
    simp [Hub.isSpent, Hub.subscribed] at hsp
  · intro hub hub' hst key hkey
    rw [get?_update_self hg] at hub'
    cases hub'
    refine .inl ?_
    simp [show h.status.isSome = true from hst]

lemma Prompt.retained (slot : HubId) : Prompt { sc with hubs := sc.hubs.retain slot } := by
  refine hp.touch slot (fun k hne => get?_update_of_ne _ _ hne) ?_ ?_ (fun _ _ hm => hm)
    (fun _ _ _ _ hm => hm) (fun _ _ hm => hm) hp.ends
  · intro hub hk hsp
    obtain ⟨h, hg, rfl⟩ := exists_of_update hk
    simp [isSpent] at hsp
  · intro hub hk hst key hkey
    obtain ⟨h, hg, rfl⟩ := exists_of_update hk
    exact hp.waiting slot h hg hst key hkey

/-- The turn to flush a hub has come: the subscribers that wait are called. -/
lemma Prompt.flushed {flushes1 flushes2 : List HubId}
    (hf : sc.flushes = flushes1 ++ slot :: flushes2) :
    Prompt { sc with
      duties := sc.hubs.flush slot ++ sc.duties
      flushes := flushes1 ++ flushes2 } := by
  refine hp.touch slot (fun _ _ => rfl) ?_ ?_ ?_ ?_ ?_ ?_
  · exact fun hub hg hsp => mem_append_right _ (hp.spent slot hub hg hsp)
  · intro hub hg hst key hkey
    obtain ⟨status, hst⟩ := isSome_iff_exists.mp hst
    refine .inr ⟨status, hub.keys, mem_append_left _ ?_, hkey⟩
    simp [flush, show sc.hubs.get? slot = some hub from hg, hst, keys]
  · exact fun k _ hm => mem_append_right _ hm
  · exact fun k _ _ _ hm => mem_append_right _ hm
  · intro k hne hm
    rw [hf] at hm
    simpa [hne] using hm
  · rcases hg : sc.hubs.get? slot with _ | hub
    · simpa [flush, hg] using hp.ends
    · rcases hst : hub.status with _ | status
      · simpa [flush, hg, hst] using hp.ends
      · simpa [flush, hg, hst, Ends] using hp.ends

end

lemma ends_duties (h : Hub κ) (slot : HubId) (status : Int) (he : Ends ds) :
    Ends (h.duties slot status ++ ds) := by
  rcases hp : h.parent with _ | p
  · simpa [Hub.duties, hp, Ends] using he
  · simpa [Hub.duties, hp, Ends] using he

/-- A duty of an open hub is neither a call nor the end of a hub. -/
lemma mem_tail_of_target {e : Duty} (ht : d.target? = some slot)
    (he : e.target? = none) (hm : e ∈ d :: ds) : e ∈ ds := by
  refine (mem_cons.mp hm).resolve_left ?_
  rintro rfl
  rw [ht] at he
  cases he

lemma Prompt.heeded (hp : Prompt sc) (ha : sc.Asked slot h d ds) :
    Prompt (sc.withUpdate slot (fun _ => h.heed d) ds) := by
  obtain ⟨hd, ht, hg, hn⟩ := ha
  have hopen : (h.heed d).status = none := (congrArg Prod.fst (aspect_heed h d)).trans hn
  refine hp.touch slot (fun k hne => get?_update_of_ne _ _ hne) ?_ ?_ ?_ ?_ (fun _ _ hm => hm)
    (hd ▸ hp.ends).tail
  · intro hub hub' hsp
    rw [get?_update_self hg] at hub'
    cases hub'
    simp [isSpent, hopen] at hsp
  · intro hub hub' hst
    rw [get?_update_self hg] at hub'
    cases hub'
    simp [hopen] at hst
  · exact fun k _ hm => mem_tail_of_target ht rfl (hd ▸ hm)
  · exact fun k _ _ _ hm => mem_tail_of_target ht rfl (hd ▸ hm)

lemma Prompt.completed (hp : Prompt sc) (ha : sc.Asked slot h d ds) (status : Int) :
    Prompt (sc.withUpdate slot (fun _ => h.fulfil d) (h.duties slot status ++ ds)) := by
  obtain ⟨hd, ht, hg, -⟩ := ha
  have hdeliver : .deliver slot status h.keys ∈ h.duties slot status ++ ds := by
    simp [Hub.duties, Hub.keys]
  refine hp.touch slot (fun k hne => get?_update_of_ne _ _ hne) ?_ ?_ ?_ ?_ (fun _ _ hm => hm)
    (ends_duties h slot status (hd ▸ hp.ends).tail)
  · exact fun _ _ _ => by simp [Hub.duties]
  · intro hub hub' hst key hkey
    rw [get?_update_self hg] at hub'
    cases hub'
    exact .inr ⟨status, h.keys, hdeliver, by rw [Hub.keys, ← (h.fulfil_eq d).2.1]; exact hkey⟩
  · exact fun k _ hm => mem_append_right _ (mem_tail_of_target ht rfl (hd ▸ hm))
  · exact fun k _ _ _ hm => mem_append_right _ (mem_tail_of_target ht rfl (hd ▸ hm))

lemma Prompt.dropped (hp : Prompt sc) (hd : sc.duties = .settle slot :: ds) :
    Prompt { sc with hubs := sc.hubs.erase slot, duties := ds } := by
  have hnone : (sc.hubs.erase slot).get? slot = none := by simp [Slab.get?_erase]
  refine hp.touch slot (fun k hne => by simp [Slab.get?_erase, hne]) ?_ ?_ ?_ ?_
    (fun _ _ hm => hm) (hd ▸ hp.ends).tail
  · intro hub hg
    rw [hnone] at hg
    cases hg
  · intro hub hg
    rw [hnone] at hg
    cases hg
  · intro k hne hm
    simpa [hd, hne] using hm
  · intro k st keys hne hm
    simpa [hd] using hm

lemma Prompt.change {free : Bool} (hp : Prompt sc) (hs : Sane past sc)
    (hc : Change free past sc os sc') : Prompt sc' := by
  cases hc with
  | created parent _ => exact hp.created hs.sound parent _
  | attached _ parent child => exact hp.attached parent child
  | subscribed hg callback => exact hp.subscribed hg callback
  | removed hg hk => exact hp.look fun h => ⟨rfl, fun _ hm => (mem_keys_leave.mp hm).1⟩
  | retained slot => exact hp.retained slot
  | released slot => exact hp.look fun h => ⟨rfl, fun _ hm => hm⟩
  | notified | sealing =>
    exact hp.grow (fun k hub hk _ => ⟨hub, hk, rfl⟩) (fun _ hd => mem_cons_of_mem _ hd)
      (fun _ hk => hk) (hp.ends.cons (by simp))
  | flushed hf => exact hp.flushed hf
  | idle hd hi =>
    refine hp.pop hd ?_ ?_
    · rintro slot rfl
      exact hi
    · rintro slot status keys rfl
      exact hi
  | skipped hd hg hk =>
    refine hp.shift hd (fun _ _ => rfl) (fun hub hg' => ?_) rfl rfl
    cases hg.symm.trans hg'
    exact ⟨_, hg, rfl, fun key' hm => ⟨hm, fun he => hk (he ▸ hm)⟩⟩
  | called hd hg hk =>
    refine hp.shift hd (fun k hne => get?_update_of_ne _ _ hne) (fun hub hg' => ?_) rfl rfl
    cases (get?_update_self hg _).symm.trans hg'
    exact ⟨_, hg, rfl, fun key' hm => mem_keys_leave.mp hm⟩
  | heeded ha => exact hp.heeded ha
  | completed ha => exact hp.completed ha _
  | dropped hd hg hsp => exact hp.dropped hd

lemma Run.prompt {free : Bool} (run : Run free past sc) : Prompt sc := by
  induction run with
  | start _ empty => refine ⟨?_, ?_, ?_⟩ <;> simp [empty, Ends]
  | move run hc ih => exact ih.change run.sane hc

end Scene

namespace Session

open Note

variable {past : Notes} {s : Session}

end Session

/-! ### Leaving -/

/-- The subscribers that wait at the hub in a slot. -/
def subscribersAt {κ : Type} (hs : Hubs κ) (slot : HubId) : List (ℕ × κ) :=
  ((hs.get? slot).map subscribers).getD []

lemma subscribersAt_settle {κ : Type} (hs : Hubs κ) (slot k : HubId) :
    subscribersAt (hs.settle slot) k = subscribersAt hs k := by
  unfold settle
  split
  next hspent =>
    obtain ⟨h, hg, hsp⟩ := (any_eq_true _ _).mp hspent
    have hnone : h.subscribers = [] := by
      simp only [isSpent, Bool.and_eq_true, List.isEmpty_iff] at hsp
      exact hsp.1.2
    rw [subscribersAt, subscribersAt, Slab.get?_erase]
    by_cases hk : k = slot
    · simp [hk, hg, hnone]
    · rw [if_neg hk]
  next => rfl

namespace Session

open Note

variable {past : Notes} {s : Session}

/-- Whoever unsubscribes from a hub whose slot no later hub has got is told whether the subscriber
still waits, and takes out that one and no other, of any hub. -/
theorem Course.unsubscribes_own (run : Course true past s) {n key : ℕ} {slot : HubId}
    (hhub : s.handles[n]? = some slot) (hlast : s.tenant slot = n)
    (hsub : .subscribed n key ∈ past) :
    ((s.hubs.unsubscribe slot key).1 = true ↔ ¬ Gone past n key) ∧
    (Gone past n key → (s.hubs.unsubscribe slot key).2 = s.hubs) ∧
    (¬ Gone past n key → ∃ before sub after,
      subscribersAt s.hubs slot = before ++ (key, sub) :: after ∧
      ∀ k, subscribersAt (s.hubs.unsubscribe slot key).2 k =
        if k = slot then before ++ after else subscribersAt s.hubs k) := by
  have hsane := run.run.sane
  rcases hg : s.hubs.get? slot with _ | h
  · have hgone : Gone past n key := by
      refine hsane.gone n key hsub fun k h hk he => ?_
      have hhandle := Scene.getElem?_tenant (hsane.handle k h hk)
      rw [he] at hhandle
      cases hhub.symm.trans hhandle
      cases hg.symm.trans hk
    simp [unsubscribe, hg, hgone]
  · have htells : Scene.Tells past n h := hlast ▸ hsane.tells slot h hg
    have hkeys : key ∈ h.keys ↔ ¬ Gone past n key := by
      rw [htells.waits key, and_iff_right hsub]
    have hany : h.subscribers.any (·.1 == key) = true ↔ ¬ Gone past n key := by
      rw [← hkeys]
      simp [Hub.keys]
    by_cases hgone : Gone past n key
    · have hnone := Bool.eq_false_iff.mpr (hany.not.mpr (not_not_intro hgone))
      simp [unsubscribe, hg, hgone, hnone]
    · have hsome := hany.mpr hgone
      refine ⟨by simp [unsubscribe, hg, hgone, hsome], fun h => absurd h hgone, fun _ => ?_⟩
      obtain ⟨⟨key', sub⟩, hp, rfl⟩ := mem_map.mp (hkeys.mpr hgone)
      obtain ⟨before, after, hsplit⟩ := append_of_mem hp
      refine ⟨before, sub, after, by simp [subscribersAt, hg, hsplit], fun k => ?_⟩
      have hfilter : h.subscribers.filter (·.1 != key') = before ++ after := by
        have hnodup := htells.nodup
        rw [Hub.keys, hsplit, map_append, map_cons, nodup_middle, nodup_cons,
          ← map_append] at hnodup
        rw [hsplit, filter_append, filter_cons_of_neg (by simp), ← filter_append, filter_eq_self]
        intro p hp
        simpa using fun he => hnodup.1 (mem_map.mpr ⟨p, hp, he⟩)
      simp only [unsubscribe, hg, hsome, if_true, subscribersAt_settle]
      rw [subscribersAt, subscribersAt, get?_update]
      by_cases hk : k = slot
      · simp [hk, hg, Hub.without, hfilter]
      · simp [hk]

def pair : List Step := [.create none, .subscribe 0 "a" [], .subscribe 0 "b" []]

/-- Of two subscribers of a hub the second is taken out. -/
theorem unsubscribes_own_second :
    ∃ before sub after, subscribersAt (trace true 9 pair [] {}).2.hubs 0 =
        before ++ (1, sub) :: after ∧
      ∀ k, subscribersAt ((trace true 9 pair [] {}).2.hubs.unsubscribe 0 1).2 k =
        if k = 0 then before ++ after else subscribersAt (trace true 9 pair [] {}).2.hubs k := by
  have hstart : Course true [] {} := .start
  have hpast : (trace true 9 pair [] {}).1 = [.created 0 none, .subscribed 0 0, .subscribed 0 1] :=
    rfl
  have hsub : .subscribed 0 1 ∈ (trace true 9 pair [] {}).1 := by simp [hpast]
  have hhub : (trace true 9 pair [] {}).2.handles[0]? = some 0 := rfl
  have hrun := (hstart.trace 9 pair).unsubscribes_own hhub rfl hsub
  exact hrun.2.2 (by simp [Gone, hpast])

/-- A hub gets the slot of one that is gone. -/
def successor : List Step :=
  [.create none, .subscribe 0 "a" [], .notify 0 7, .create none, .subscribe 1 "b" []]

/-- The first subscriber is gone, and unsubscribing it takes out the one of the second hub. -/
theorem unsubscribes_other :
    Course true (trace true 9 successor [] {}).1 (trace true 9 successor [] {}).2 ∧
      .subscribed 0 0 ∈ (trace true 9 successor [] {}).1 ∧
      (trace true 9 successor [] {}).2.handles[0]? = some 0 ∧
      Gone (trace true 9 successor [] {}).1 0 0 ∧
      ((trace true 9 successor [] {}).2.hubs.unsubscribe 0 0).1 = true ∧
      (subscribersAt (trace true 9 successor [] {}).2.hubs 0).map (·.2.name) = ["b"] ∧
      subscribersAt ((trace true 9 successor [] {}).2.hubs.unsubscribe 0 0).2 0 = [] := by
  have hstart : Course true [] {} := .start
  have hpast : (trace true 9 successor [] {}).1 =
      [.created 0 none, .subscribed 0 0, .asked 0 7, .completed 0 7 [0], .called 0 0 7,
        .created 1 none, .subscribed 1 0] := rfl
  exact ⟨hstart.trace 9 successor, by simp [hpast], rfl, by simp [Gone, hpast], rfl, rfl, rfl⟩

end Session

end JobShell.Hub
