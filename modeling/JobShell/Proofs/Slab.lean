import JobShell.Slab
import Mathlib.Data.Multiset.Range
import Mathlib.Tactic.Common

/-!
Slabs as finite maps.

A slab is sound when the slots it hands out next are empty. What a sound slab holds is a multiset
of numbered entries; new entries are added to it, and an entry that is changed or erased can be
singled out while the rest stays as it is.
-/

namespace JobShell.Slab

open List Multiset Option

variable {α : Type} {s : Slab α} {i k : ℕ} {a b : α}

/-- The slots to be used again are empty, and each is listed once. -/
structure Sound (s : Slab α) : Prop where
  nodup : s.free.Nodup
  vacant : ∀ i ∈ s.free, i < s.slots.length ∧ s.get? i = none

lemma sound_empty : Sound ({} : Slab α) := ⟨by simp, by simp⟩

lemma lt_of_get? (h : s.get? i = some a) : i < s.slots.length := by
  by_contra hc
  simp [get?, getElem?_eq_none (Nat.le_of_not_lt hc)] at h

lemma Sound.get?_next (h : s.Sound) : s.get? s.next = none := by
  rcases hf : s.free with _ | ⟨j, rest⟩
  · simp [next, hf, get?]
  · simpa [next, hf] using (h.vacant j (by simp [hf])).2

lemma Sound.ne_next (h : s.Sound) {k : ℕ} {a : α} (hk : s.get? k = some a) : k ≠ s.next := by
  rintro rfl
  cases h.get?_next.symm.trans hk

lemma Sound.get?_insert (h : s.Sound) (a : α) (k : ℕ) :
    (s.insert a).get? k = if k = s.next then some a else s.get? k := by
  rcases hf : s.free with _ | ⟨j, rest⟩
  · simp only [insert, hf, next, get?, headD_nil]
    rcases Nat.lt_trichotomy k s.slots.length with hk | rfl | hk
    · simp [getElem?_append_left hk, Nat.ne_of_lt hk]
    · simp
    · rw [getElem?_eq_none (by simp; omega), getElem?_eq_none (by omega)]
      simp [Nat.ne_of_gt hk]
  · have hj := (h.vacant j (by simp [hf])).1
    simp only [insert, hf, next, get?, headD_cons]
    by_cases hk : k = j
    · subst hk; simp [getElem?_set_self hj]
    · simp [getElem?_set_ne (Ne.symm hk), hk]

lemma get?_modify (s : Slab α) (i : ℕ) (f : α → α) (k : ℕ) :
    (s.modify i f).get? k = if k = i then (s.get? i).map f else s.get? k := by
  rcases hi : s.get? i with _ | a
  · by_cases hk : k = i
    · subst hk; simp [modify, hi]
    · simp [modify, hi, hk]
  · have hlt := lt_of_get? hi
    by_cases hk : k = i
    · subst hk; simp only [modify, hi]; simp [get?, getElem?_set_self hlt]
    · simp only [modify, hi]; simp [get?, getElem?_set_ne (Ne.symm hk), hk]

lemma get?_erase (s : Slab α) (i k : ℕ) :
    (s.erase i).get? k = if k = i then none else s.get? k := by
  rcases hi : s.get? i with _ | a
  · by_cases hk : k = i
    · subst hk; simp [erase, contains, hi]
    · simp [erase, contains, hi, hk]
  · have hlt := lt_of_get? hi
    simp only [erase, contains, hi, isSome_some, if_true]
    by_cases hk : k = i
    · subst hk; simp [get?, getElem?_set_self hlt]
    · simp [get?, getElem?_set_ne (Ne.symm hk), hk]

lemma length_insert_of_lt (a : α) (hi : i < s.slots.length) : i < (s.insert a).slots.length := by
  rcases hf : s.free with _ | ⟨j, rest⟩ <;> simp [insert, hf] <;> omega

lemma Sound.insert (h : s.Sound) (a : α) : (s.insert a).Sound := by
  rcases hf : s.free with _ | ⟨j, rest⟩
  · exact ⟨by simp [Slab.insert, hf], by simp [Slab.insert, hf]⟩
  · have hnd : j ∉ rest ∧ rest.Nodup := by simpa [hf] using h.nodup
    refine ⟨by simpa [Slab.insert, hf] using hnd.2, fun i hi => ?_⟩
    have hi' : i ∈ rest := by simpa [Slab.insert, hf] using hi
    obtain ⟨hlt, hnone⟩ := h.vacant i (by simp [hf, hi'])
    have hne : i ≠ s.next := by
      rintro rfl
      exact hnd.1 (by simpa [next, hf] using hi')
    exact ⟨length_insert_of_lt a hlt, by rw [h.get?_insert, if_neg hne, hnone]⟩

lemma Sound.modify (h : s.Sound) (i : ℕ) (f : α → α) : (s.modify i f).Sound := by
  have hfree : (s.modify i f).free = s.free := by unfold Slab.modify; split <;> rfl
  have hlen : (s.modify i f).slots.length = s.slots.length := by
    unfold Slab.modify; split <;> simp
  refine ⟨hfree ▸ h.nodup, fun k hk => ?_⟩
  obtain ⟨hlt, hnone⟩ := h.vacant k (hfree ▸ hk)
  refine ⟨hlen ▸ hlt, ?_⟩
  rw [get?_modify]
  split
  · rename_i he; subst he; simp [hnone]
  · exact hnone

lemma Sound.erase (h : s.Sound) (i : ℕ) : (s.erase i).Sound := by
  rcases hi : s.get? i with _ | a
  · simpa [Slab.erase, contains, hi] using h
  · have hlt := lt_of_get? hi
    have hfree : (s.erase i).free = i :: s.free := by simp [Slab.erase, contains, hi]
    have hlen : (s.erase i).slots.length = s.slots.length := by simp [Slab.erase, contains, hi]
    have hni : i ∉ s.free := fun hm => by simp [(h.vacant i hm).2] at hi
    refine ⟨hfree ▸ nodup_cons.mpr ⟨hni, h.nodup⟩, fun k hk => ?_⟩
    rw [hlen, get?_erase]
    rcases mem_cons.mp (hfree ▸ hk) with rfl | hk
    · exact ⟨hlt, by simp⟩
    · obtain ⟨hl, hn⟩ := h.vacant k hk
      exact ⟨hl, by split <;> simp [hn]⟩

/-! ### Entries -/

/-- What a slab holds, each with its number. -/
def entries (s : Slab α) : Multiset (ℕ × α) :=
  (Multiset.range s.slots.length).filterMap fun i => (s.get? i).map (i, ·)

@[simp] lemma mem_entries {p : ℕ × α} : p ∈ s.entries ↔ s.get? p.1 = some p.2 := by
  obtain ⟨i, a⟩ := p
  simp only [entries, Multiset.mem_filterMap, Multiset.mem_range]
  constructor
  · rintro ⟨j, -, hj⟩
    obtain ⟨b, hb, he⟩ := map_eq_some_iff.mp hj
    cases he
    exact hb
  · intro h
    exact ⟨i, lt_of_get? h, by simp [h]⟩

lemma nodup_entries (s : Slab α) : s.entries.Nodup := by
  refine Nodup.filterMap _ ?_ (nodup_range _)
  intro i j p hi hj
  obtain ⟨a, -, rfl⟩ := map_eq_some_iff.mp hi
  obtain ⟨b, -, he⟩ := map_eq_some_iff.mp hj
  exact (congrArg Prod.fst he).symm

lemma entries_insert (h : s.Sound) (a : α) : (s.insert a).entries = {(s.next, a)} + s.entries := by
  have hn : (s.next, a) ∉ s.entries := by simp [h.get?_next]
  rw [singleton_add]
  refine (Nodup.ext (nodup_entries _) (nodup_cons.mpr ⟨hn, nodup_entries _⟩)).mpr
    fun p => ?_
  obtain ⟨k, b⟩ := p
  simp only [mem_entries, h.get?_insert, Multiset.mem_cons, Prod.mk.injEq]
  by_cases hk : k = s.next
  · subst hk; simp [h.get?_next, eq_comm]
  · simp [hk]

section Single

variable {R : Multiset (ℕ × α)}

section

variable (h : s.entries = {(i, a)} + R)
include h

lemma get?_of_entries : s.get? i = some a := by
  have : (i, a) ∈ s.entries := by simp [h]
  simpa using this

/-- What stands beside an entry is what the slab holds elsewhere. -/
lemma mem_rest {p : ℕ × α} : p ∈ R ↔ p.1 ≠ i ∧ s.get? p.1 = some p.2 := by
  have hi := get?_of_entries h
  have hnd : ((i, a) ::ₘ R).Nodup := by
    rw [← singleton_add, ← h]; exact nodup_entries s
  obtain ⟨hia, -⟩ := nodup_cons.mp hnd
  have hmem : p ∈ s.entries ↔ p = (i, a) ∨ p ∈ R := by rw [h]; simp
  rw [mem_entries] at hmem
  constructor
  · intro hp
    refine ⟨fun he => hia ?_, hmem.mpr (.inr hp)⟩
    have := hmem.mpr (.inr hp)
    rw [he, hi] at this
    obtain ⟨k, b⟩ := p
    cases he
    cases this
    exact hp
  · rintro ⟨hne, hp⟩
    rcases hmem.mp hp with rfl | h
    · exact absurd rfl hne
    · exact h

lemma nodup_rest : R.Nodup := by
  have hnd := nodup_entries s
  rw [h, singleton_add] at hnd
  exact (nodup_cons.mp hnd).2

lemma entries_modify (f : α → α) : (s.modify i f).entries = {(i, f a)} + R := by
  have hn : (i, f a) ∉ R := fun hm => ((mem_rest h).mp hm).1 rfl
  rw [singleton_add]
  refine (Nodup.ext (nodup_entries _) (nodup_cons.mpr ⟨hn, nodup_rest h⟩)).mpr
    fun p => ?_
  obtain ⟨k, b⟩ := p
  simp only [mem_entries, get?_modify, Multiset.mem_cons, Prod.mk.injEq, mem_rest h]
  by_cases hk : k = i
  · subst hk; simp [get?_of_entries h, eq_comm]
  · simp [hk]

lemma entries_erase : (s.erase i).entries = R := by
  refine (Nodup.ext (nodup_entries _) (nodup_rest h)).mpr fun p => ?_
  obtain ⟨k, b⟩ := p
  simp only [mem_entries, get?_erase, mem_rest h]
  by_cases hk : k = i
  · subst hk; simp
  · simp [hk]

end

end Single

lemma exists_rest (h : s.get? i = some a) : ∃ R, s.entries = {(i, a)} + R := by
  obtain ⟨R, hR⟩ := exists_cons_of_mem (mem_entries.mpr (show s.get? (i, a).1 = _ from h))
  exact ⟨R, by rw [hR, singleton_add]⟩

lemma entries_modify_of_none (h : s.get? i = none) (f : α → α) : s.modify i f = s := by
  simp [modify, h]

/-! ### Images -/

section Map

variable {β : Type} (f : α → β)

/-- A slab of what a function makes of each entry. -/
def map (s : Slab α) : Slab β := ⟨s.slots.map (Option.map f), s.free⟩

lemma get?_map (s : Slab α) (i : ℕ) : (s.map f).get? i = (s.get? i).map f := by
  rcases hi : s.slots[i]? with _ | _ | a <;> simp [map, get?, hi]

lemma next_map (s : Slab α) : (s.map f).next = s.next := by
  simp [map, next]

lemma sound_map : (s.map f).Sound ↔ s.Sound := by
  have hvacant : ∀ i, (i < (s.map f).slots.length ∧ (s.map f).get? i = none) ↔
      i < s.slots.length ∧ s.get? i = none := by
    intro i
    rw [get?_map, map_eq_none_iff, map, length_map]
  constructor
  · exact fun h => ⟨h.nodup, fun i hi => (hvacant i).mp (h.vacant i hi)⟩
  · exact fun h => ⟨h.nodup, fun i hi => (hvacant i).mpr (h.vacant i hi)⟩

lemma map_insert (s : Slab α) (a : α) : (s.insert a).map f = (s.map f).insert (f a) := by
  rcases hf : s.free with _ | ⟨j, rest⟩ <;> simp [map, insert, hf, map_set]

lemma map_erase (s : Slab α) (i : ℕ) : (s.erase i).map f = (s.map f).erase i := by
  have hc : (s.map f).contains i = s.contains i := by
    simp [contains, get?_map]
  unfold erase
  rw [hc]
  split <;> simp [map, map_set]

lemma map_modify {g : α → α} (hg : ∀ a, f (g a) = f a) (s : Slab α) (i : ℕ) :
    (s.modify i g).map f = s.map f := by
  rcases hi : s.get? i with _ | a
  · rw [entries_modify_of_none hi]
  · have hslot : s.slots[i]? = some (some a) := by
      simpa [get?, join_eq_some_iff] using hi
    have hset : (s.slots.set i (some (g a))).map (Option.map f) = s.slots.map (Option.map f) := by
      refine ext_getElem? fun k => ?_
      by_cases hk : i = k
      · subst hk
        rw [getElem?_map, getElem?_map, getElem?_set_self (lt_of_get? hi), hslot]
        simp [hg]
      · simp [getElem?_set_ne hk]
    simp [map, modify, hi, hset]

end Map

end JobShell.Slab
