import JobShell.Hub.Basic
import JobShell.Proofs.Slab

/-!
What one change does to the subscribers and the statuses of hubs.

Most changes are tame: no hub is added, no status is given, and subscribers at most go.
-/

namespace JobShell.Hubs

open List Option Sublist

variable {κ : Type} {hs hs1 hs2 : Hubs κ} {slot : HubId} {h : Hub κ}

/-- No hub is new, none has another status, and no subscriber is new. -/
def Tame (hs hs' : Hubs κ) : Prop :=
  ∀ slot h', hs'.get? slot = some h' → ∃ h, hs.get? slot = some h ∧ h'.status = h.status ∧
    h'.nextKey = h.nextKey ∧ h'.subscribers.Sublist h.subscribers

lemma Tame.refl (hs : Hubs κ) : Tame hs hs :=
  fun _ h' hh => ⟨h', hh, rfl, rfl, Sublist.refl _⟩

lemma Tame.trans (h1 : Tame hs hs1) (h2 : Tame hs1 hs2) : Tame hs hs2 := by
  intro slot h' hh
  obtain ⟨m, hm, hs2, hk2, hl2⟩ := h2 slot h' hh
  obtain ⟨o, ho, hs1, hk1, hl1⟩ := h1 slot m hm
  exact ⟨o, ho, hs2.trans hs1, hk2.trans hk1, hl2.trans hl1⟩

lemma get?_update (hs : Hubs κ) (slot : HubId) (f : Hub κ → Hub κ) (k : HubId) :
    (hs.update slot f).get? k = if k = slot then (hs.get? slot).map f else hs.get? k :=
  Slab.get?_modify hs slot f k

lemma get?_update_self (hg : hs.get? slot = some h) (f : Hub κ → Hub κ) :
    (hs.update slot f).get? slot = some (f h) := by
  rw [get?_update, if_pos rfl, hg, map_some]

lemma exists_of_update {f : Hub κ → Hub κ} {h' : Hub κ}
    (hk : (hs.update slot f).get? slot = some h') : ∃ h, hs.get? slot = some h ∧ f h = h' := by
  rw [get?_update, if_pos rfl] at hk
  exact map_eq_some_iff.mp hk

lemma get?_update_of_ne (hs : Hubs κ) (f : Hub κ → Hub κ) {k : HubId} (hk : k ≠ slot) :
    (hs.update slot f).get? k = hs.get? k := by
  rw [get?_update, if_neg hk]

lemma tame_update {f : Hub κ → Hub κ} (hf : ∀ h, hs.get? slot = some h → (f h).status = h.status ∧
    (f h).nextKey = h.nextKey ∧ (f h).subscribers.Sublist h.subscribers) :
    Tame hs (hs.update slot f) := by
  intro k h' hh
  rw [get?_update] at hh
  split at hh
  · rename_i hk
    subst hk
    obtain ⟨h, hg, rfl⟩ := map_eq_some_iff.mp hh
    exact ⟨h, hg, hf h hg⟩
  · exact ⟨h', hh, rfl, rfl, refl _⟩

lemma tame_erase (hs : Hubs κ) (slot : HubId) : Tame hs (hs.erase slot) := by
  intro k h' hh
  rw [Slab.get?_erase] at hh
  split at hh
  · simp at hh
  · exact ⟨h', hh, rfl, rfl, refl _⟩

lemma tame_settle (hs : Hubs κ) (slot : HubId) : Tame hs (hs.settle slot) := by
  unfold settle
  split
  · exact tame_erase hs slot
  · exact .refl hs

lemma tame_addChild (hs : Hubs κ) (parent child : HubId) : Tame hs (hs.addChild parent child) := by
  unfold addChild
  split
  · exact .refl hs
  · split
    · exact .refl hs
    · refine .trans ?_ (tame_update fun _ _ => ⟨rfl, rfl, refl _⟩)
      exact tame_update fun _ _ => ⟨rfl, rfl, refl _⟩

lemma tame_retain (hs : Hubs κ) (slot : HubId) : Tame hs (hs.retain slot) :=
  tame_update fun _ _ => ⟨rfl, rfl, refl _⟩

lemma tame_release (hs : Hubs κ) (slot : HubId) : Tame hs (hs.release slot) := by
  refine .trans ?_ (tame_settle _ slot)
  exact tame_update fun _ _ => ⟨rfl, rfl, refl _⟩

/-! ### Soundness -/

section

variable (ok : hs1.Sound)
include ok

lemma Sound.update (slot : HubId) (f : Hub κ → Hub κ) :
    (hs1.update slot f).Sound := Slab.Sound.modify ok slot f

lemma Sound.settle (slot : HubId) : (hs1.settle slot).Sound := by
  unfold Hubs.settle
  split
  · exact Slab.Sound.erase ok slot
  · exact ok

lemma Sound.addChild (parent child : HubId) : (hs1.addChild parent child).Sound := by
  unfold Hubs.addChild
  split
  · exact ok
  · split
    · exact ok
    · exact Sound.update (Sound.update ok _ _) _ _

lemma Sound.create (parent : Option HubId) : (hs1.create parent).2.Sound := by
  cases parent with
  | none => exact Slab.Sound.insert ok _
  | some p => exact Sound.addChild (Slab.Sound.insert ok _) p _

lemma Sound.retain (slot : HubId) : (hs1.retain slot).Sound :=
  Sound.update ok _ _

lemma Sound.release (slot : HubId) : (hs1.release slot).Sound :=
  Sound.settle (Sound.update ok _ _) _

end

end JobShell.Hubs
