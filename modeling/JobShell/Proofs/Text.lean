import JobShell.Text.Blank
import Mathlib.Tactic.Common

/-!
Texts that are split.
-/

namespace JobShell.Text

open List

variable {c : Char} {l a r : Chars}

lemma splitFirst_eq_some : splitFirst c l = some (a, r) ↔ l = a ++ c :: r ∧ c ∉ a := by
  induction l generalizing a with
  | nil => simp [splitFirst]
  | cons d ds ih =>
    rw [splitFirst]
    split_ifs with hd
    · subst hd
      cases a <;> simp_all [eq_comm]
    · simp only [Option.map_eq_some_iff, Prod.exists, Prod.mk.injEq]
      constructor
      · rintro ⟨a', r', h, rfl, rfl⟩
        obtain ⟨rfl, hm⟩ := ih.mp h
        exact ⟨rfl, by simpa [Ne.symm hd] using hm⟩
      · rintro ⟨h, hm⟩
        cases a with
        | nil => exact absurd (cons_eq_cons.mp h).1 hd
        | cons d' a =>
          obtain ⟨rfl, rfl⟩ := cons_eq_cons.mp h
          exact ⟨a, r, ih.mpr ⟨rfl, fun hc => hm (mem_cons_of_mem _ hc)⟩, rfl, rfl⟩

end JobShell.Text
