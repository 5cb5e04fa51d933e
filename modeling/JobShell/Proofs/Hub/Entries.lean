import JobShell.Proofs.Hub.Tame
import Mathlib.Algebra.Order.Group.Multiset

/-!
Hubs one at a time.

Each operation is described by what it does to the hubs it touches, the others being left over as
a rest.
-/

namespace JobShell

namespace Hub

variable {κ : Type}

/-- The only subscriber leaves. -/
lemma without_sole {h : Hub κ} {key : ℕ} {callback : κ} (hs : h.subscribers = [(key, callback)]) :
    h.without key = { h with subscribers := [] } := by
  simp [without, hs]

/-! ### What a duty asks of an open hub -/

/-- An open hub that heeds a duty, if nothing follows from it. -/
def heed (h : Hub κ) : Duty → Hub κ
  | .notify _ status => { h with requested := h.requested <|> some status, isSealed := true }
  | .sealOff _ => { h with isSealed := true }
  | .report _ order status contributes => h.heard order status contributes
  | _ => h

/-- The status an open hub takes on a duty, if it completes. -/
def verdict (h : Hub κ) (d : Duty) : Int :=
  match d with
  | .notify _ status => status
  | d => (h.heed d).aggregate

/-- No child is left to wait for, and none will come. -/
def IsDue (h : Hub κ) : Prop := h.pending = 0 ∧ h.isSealed = true

/-- An open hub that completes on a duty: it keeps its subscribers until they are called. -/
def fulfil (h : Hub κ) (d : Duty) : Hub κ :=
  match d with
  | .notify _ status => { h with status := some status }
  | d => { h.heed d with status := some (h.verdict d) }

lemma fulfil_eq (h : Hub κ) (d : Duty) :
    (h.fulfil d).status = some (h.verdict d) ∧ (h.fulfil d).subscribers = h.subscribers ∧
      (h.fulfil d).nextKey = h.nextKey ∧ (h.fulfil d).retained = h.retained ∧
      (h.fulfil d).parent = h.parent := by
  cases d <;> exact ⟨rfl, rfl, rfl, rfl, rfl⟩

end Hub

/-- The hub that a duty may complete. -/
def Duty.target? : Duty → Option HubId
  | .notify hub _ | .sealOff hub | .report hub .. => some hub
  | .deliver .. | .settle _ => none

namespace Hubs

section

open Hub

variable {κ : Type} {hs : Hubs κ} {slot : HubId} {h : Hub κ} {d : Duty}

lemma update_eq (hg : hs.get? slot = some h) (f : Hub κ → Hub κ) :
    hs.update slot f = hs.update slot fun _ => f h := by
  simp [update, Slab.modify, hg]

lemma update_update (hg : hs.get? slot = some h) (f g : Hub κ → Hub κ) :
    (hs.update slot f).update slot g = hs.update slot fun _ => g (f h) := by
  have hf := get?_update_self hg f
  rw [update_eq hf g]
  simp [update, Slab.modify, hg] at hf ⊢
  simp [hf]

/-- A hub takes a status no more, or it is there and open. -/
lemma closed_or_open (hs : Hubs κ) (slot : HubId) :
    (∀ h, hs.get? slot = some h → h.status.isSome = true) ∨
      ∃ h, hs.get? slot = some h ∧ h.status = none := by
  refine or_iff_not_imp_left.mpr fun hc => ?_
  push Not at hc
  obtain ⟨h, hg, hst⟩ := hc
  exact ⟨h, hg, by simpa using hst⟩

lemma perform_closed (ht : d.target? = some slot)
    (hc : ∀ h, hs.get? slot = some h → h.status.isSome = true) : hs.perform d = (hs, none, []) := by
  rcases hg : hs.get? slot with _ | h
  · cases d <;> cases ht <;> simp [perform, notify, sealOff, report, hg]
  · have hs := hc h hg
    cases d <;> cases ht <;> simp [perform, notify, sealOff, report, hg, hs]

lemma perform_waiting (ht : d.target? = some slot) (hg : hs.get? slot = some h)
    (hn : h.status = none) (hw : ¬ (h.heed d).IsDue) :
    hs.perform d = (hs.update slot fun _ => h.heed d, none, []) := by
  have hopen : h.status.isSome = false := by simp [hn]
  cases d with
  | notify hub status =>
    cases ht
    have hp : 0 < h.pending := by
      simp only [IsDue, heed, and_true] at hw
      omega
    simp [perform, notify, hg, hopen, hp, update_eq hg, heed]
  | sealOff hub =>
    cases ht
    have hp : h.pending ≠ 0 := by simpa [IsDue, heed] using hw
    simp [perform, sealOff, hg, hopen, hp, update_eq hg, heed]
  | report hub order status contributes =>
    cases ht
    simp only [IsDue, heed] at hw
    simp only [perform, report, hg, hopen, Bool.false_eq_true, if_false, if_neg hw, heed]
  | deliver | settle => cases ht

lemma perform_due (ht : d.target? = some slot) (hg : hs.get? slot = some h)
    (hn : h.status = none) (hd : (h.heed d).IsDue) :
    hs.perform d = (hs.update slot fun _ => h.fulfil d, none, h.duties slot (h.verdict d)) := by
  have hopen : h.status.isSome = false := by simp [hn]
  cases d with
  | notify hub status =>
    cases ht
    have hp : h.pending = 0 := hd.1
    simp [perform, notify, hg, hopen, hp, fire, update_eq hg, duties, verdict, fulfil]
  | sealOff hub =>
    cases ht
    have hp : h.pending = 0 := hd.1
    simp [perform, sealOff, hg, hopen, hp, fire, update_update hg, duties, verdict, fulfil, heed,
      aggregate]
  | report hub order status contributes =>
    cases ht
    simp only [IsDue, heed] at hd
    simp only [perform, report, hg, hopen, Bool.false_eq_true, if_false, if_pos hd, fire,
      update_update hg]
    rfl
  | deliver | settle => cases ht

lemma Sound.perform (ok : hs.Sound) (d : Duty) : (hs.perform d).1.Sound := by
  have htarget : ∀ {slot}, d.target? = some slot → (hs.perform d).1.Sound := by
    intro slot ht
    rcases hs.closed_or_open slot with hc | ⟨h, hg, hn⟩
    · rw [perform_closed ht hc]
      exact ok
    · by_cases hd : (h.heed d).IsDue
      · rw [perform_due ht hg hn hd]
        exact Sound.update ok _ _
      · rw [perform_waiting ht hg hn hd]
        exact Sound.update ok _ _
  cases d with
  | notify | sealOff | report => exact htarget rfl
  | settle slot => exact Sound.settle ok slot
  | deliver slot status keys =>
    cases keys with
    | nil => exact ok
    | cons key keys =>
      simp only [Hubs.perform]
      split
      · exact ok
      · split
        · exact ok
        · exact Sound.update ok _ _

end

variable {κ : Type} {hs : Hubs κ} {i : HubId} {h : Hub κ} {R : Multiset (HubId × Hub κ)}

lemma entries_update (he : hs.entries = {(i, h)} + R) (f : Hub κ → Hub κ) :
    (hs.update i f).entries = {(i, f h)} + R :=
  Slab.entries_modify he f

lemma status?_of_entries (he : hs.entries = {(i, h)} + R) : hs.status? i = h.status := by
  simp [status?, Slab.get?_of_entries he]

/-! ### Creation and subscription -/

lemma create_none (hs1 : hs.Sound) :
    (hs.create none).1 = hs.next ∧ (hs.create none).2.entries = {(hs.next, {})} + hs.entries :=
  ⟨rfl, Slab.entries_insert hs1 _⟩

lemma create_some (hs1 : hs.Sound) (he : hs.entries = {(i, h)} + R) (hn : h.status = none) :
    (hs.create (some i)).1 = hs.next ∧ (hs.create (some i)).2.entries =
      {(hs.next, { parent := some i, order := h.nextOrder })} + ({(i, h.withChild)} + R) := by
  refine ⟨rfl, ?_⟩
  have hins : (hs.insert {}).entries = {(i, h)} + ({(hs.next, {})} + R) := by
    rw [Slab.entries_insert hs1, he, add_left_comm]
  have hadd : (hs.create (some i)).2 = (update (hs.insert {}) i Hub.withChild).update hs.next
      fun c => { c with parent := some i, order := h.nextOrder } := by
    simp [create, addChild, Slab.get?_of_entries hins, hn]
  have hmid : (update (hs.insert {}) i Hub.withChild).entries =
      {(hs.next, {})} + ({(i, h.withChild)} + R) := by
    rw [entries_update hins, add_left_comm]
  rw [hadd]
  exact entries_update hmid _

section

variable (he : hs.entries = {(i, h)} + R)
include he

lemma subscribe_entries (callback : κ) :
    ∃ hs', hs.subscribe i callback = some (h.nextKey, hs') ∧ (hs.Sound → hs'.Sound) ∧
      hs'.entries = {(i, h.subscribed callback)} + R := by
  refine ⟨hs.update i (·.subscribed callback), ?_, ?_, entries_update he _⟩
  · rw [subscribe, Slab.get?_of_entries he, Option.map_some]
  · exact fun hs1 => Sound.update hs1 _ _

/-! ### Completion -/

lemma entries_waiting {d : Duty} (ht : d.target? = some i) (hn : h.status = none)
    (hw : ¬ (h.heed d).IsDue) :
    (hs.perform d).1.entries = {(i, h.heed d)} + R ∧ (hs.perform d).2 = (none, []) := by
  rw [perform_waiting ht (Slab.get?_of_entries he) hn hw]
  exact ⟨entries_update he _, rfl⟩

lemma entries_due {d : Duty} (ht : d.target? = some i) (hn : h.status = none)
    (hd : (h.heed d).IsDue) :
    (hs.perform d).1.entries = {(i, h.fulfil d)} + R ∧
      (hs.perform d).2 = (none, h.duties i (h.verdict d)) := by
  rw [perform_due ht (Slab.get?_of_entries he) hn hd]
  exact ⟨entries_update he _, rfl⟩

/-! ### The end of a hub -/

lemma settle_spent (hs1 : h.isSpent = true) : (hs.settle i).entries = R := by
  simp only [settle, Slab.get?_of_entries he, Option.any_some, hs1, if_true]
  exact Slab.entries_erase he

lemma settle_unspent (hs1 : h.isSpent = false) : hs.settle i = hs := by
  simp [settle, Slab.get?_of_entries he, hs1]

/-- A hub that completed is dropped when the only one who retains it lets go. -/
lemma release_last (hd : h.status.isSome = true)
    (hs1 : h.subscribers = []) (hr : h.retained = 1) : (hs.release i).entries = R := by
  refine settle_spent (entries_update he _) ?_
  simp [Hub.isSpent, Hub.released, hd, hs1, hr]

end

end Hubs

end JobShell
