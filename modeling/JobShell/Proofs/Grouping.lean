import JobShell.Launch
import Mathlib.Data.List.Chain

/-!
Commands of one kind.

Neighbours of one kind stand in one group. There is only one way to divide commands like this: none
of them is lost, no group is empty, and no group could be longer.
-/

namespace JobShell.Services

open List

variable {s : Services} {c : Command} {cs : List Command} {k : JobKind}
  {groups : Groups}

/-- Commands are divided into groups that have the kind of all their commands, and another kind
than the next group. -/
structure Divides (s : Services) (groups : Groups) (cs : List Command) :
    Prop where
  flatten : groups.flatMap Prod.snd = cs
  ne_nil : ∀ g ∈ groups, g.2 ≠ []
  kind : ∀ g ∈ groups, ∀ c ∈ g.2, s.kindOf c.name = g.1
  differ : groups.IsChain fun g h => g.1 ≠ h.1

/-- A command of the kind of the first group joins it. -/
lemma Divides.join {group : List Command} (h : s.Divides ((k, group) :: groups) cs)
    (hk : s.kindOf c.name = k) : s.Divides ((k, c :: group) :: groups) (c :: cs) where
  flatten := by simpa using h.flatten
  ne_nil := by simpa using fun g hg => h.ne_nil g (mem_cons_of_mem _ hg)
  kind := by
    have hkind := h.kind
    simp only [forall_mem_cons] at hkind ⊢
    exact ⟨⟨hk, hkind.1⟩, hkind.2⟩
  differ := by
    have hd := h.differ
    rw [isChain_cons] at hd ⊢
    exact hd

/-- A command of another kind than the first group stands before it. -/
lemma Divides.lead (h : s.Divides groups cs) (hk : ∀ g ∈ groups.head?, s.kindOf c.name ≠ g.1) :
    s.Divides ((s.kindOf c.name, [c]) :: groups) (c :: cs) where
  flatten := by simpa using h.flatten
  ne_nil := forall_mem_cons.mpr ⟨by simp, h.ne_nil⟩
  kind := forall_mem_cons.mpr ⟨by simp, h.kind⟩
  differ := isChain_cons.mpr ⟨hk, h.differ⟩

lemma divides_partition (s : Services) (cs : List Command) : s.Divides (s.partition cs) cs := by
  induction cs with
  | nil => exact ⟨rfl, by simp [partition], by simp [partition], .nil⟩
  | cons c cs ih =>
    rw [partition]
    rcases hp : s.partition cs with _ | ⟨⟨k, group⟩, rest⟩ <;> rw [hp] at ih <;> dsimp only
    · exact ih.lead (by simp)
    · split_ifs with hk
      · exact ih.join hk.symm
      · exact ih.lead (by simpa using Ne.symm hk)

lemma Divides.eq_partition (h : s.Divides groups cs) : groups = s.partition cs := by
  induction cs generalizing groups with
  | nil =>
    rcases groups with _ | ⟨g, rest⟩
    · rfl
    · exact absurd (append_eq_nil_iff.mp h.flatten).1 (h.ne_nil g mem_cons_self)
  | cons c cs ih =>
    rcases groups with _ | ⟨⟨k, _ | ⟨d, group⟩⟩, rest⟩
    · cases h.flatten
    · exact absurd rfl (h.ne_nil _ mem_cons_self)
    obtain ⟨rfl, hflat⟩ := cons_eq_cons.mp h.flatten
    obtain ⟨hkind, hrest⟩ := forall_mem_cons.mp h.kind
    obtain ⟨hhead, hdiffer⟩ := isChain_cons.mp h.differ
    have hk : s.kindOf d.name = k := hkind d mem_cons_self
    have hne := fun g hg => h.ne_nil g (mem_cons_of_mem _ hg)
    rw [partition]
    rcases group with _ | ⟨d', group⟩
    · -- the first group is this command alone, and the next one is of the other kind
      rw [← ih ⟨hflat, hne, hrest, hdiffer⟩]
      rcases rest with _ | ⟨⟨k', group'⟩, rest⟩ <;> simp only [hk]
      rw [if_neg (Ne.symm (hhead _ rfl))]
    · -- the first group goes on without this command
      have hgroup : s.Divides ((k, d' :: group) :: rest) cs :=
        ⟨hflat, forall_mem_cons.mpr ⟨by simp, hne⟩,
          forall_mem_cons.mpr ⟨fun c hc => hkind c (mem_cons_of_mem _ hc), hrest⟩,
          isChain_cons.mpr ⟨hhead, hdiffer⟩⟩
      rw [← ih hgroup]
      simp [hk]

lemma partition_ne_nil (s : Services) (hne : cs ≠ []) : s.partition cs ≠ [] := by
  intro hp
  have hflat := (s.divides_partition cs).flatten
  rw [hp] at hflat
  exact hne hflat.symm

lemma partition_routines (s : Services) (hne : cs ≠ [])
    (h : ∀ c ∈ cs, s.kindOf c.name = .routine) : s.partition cs = [(.routine, cs)] :=
  (Divides.eq_partition ⟨by simp, by simpa using hne, by simpa using h, .singleton _⟩).symm

end JobShell.Services
