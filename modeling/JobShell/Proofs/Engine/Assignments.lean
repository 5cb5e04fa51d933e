import JobShell.Proofs.Engine.Single
import JobShell.Proofs.Engine.Subshells
import JobShell.Proofs.Filling

/-!
What a list assigns is seen by its next step.

A step that only assigns writes to the variables of its list, and a parameter is looked up in the
frames around the list first. So the next step finds what was assigned unless a frame binds the
same name, as the frame of a loop does. Then it runs as if the text of the value stood in the place
of the parameter.
-/

namespace JobShell

open Machine JobShell.Tree List Stores

/-! ### Evaluations that know a value -/

/-- As for `Expansion.Filled`, while an evaluation goes on. -/
inductive Midway.Filled {α : Type} (name : String) (v : Value) : Midway α → Midway α → Prop
  | asks {x y : Expansion α} (h : Expansion.Filled name v x y) : Filled name v (.asks x) (.asks y)
  | waits (hub : HubId) (key : ℕ) {next next' : Except Fault Captured → Expansion α}
      (h : ∀ c, Expansion.Filled name v (next c) (next' c)) :
      Filled name v (.waits hub key next) (.waits hub key next')

namespace Midway.Filled

variable {α : Type} {name : String} {v : Value} {mid mid' : Midway α} {e : Engine} {store : StoreId}

/-- Where the value is asked for, only one of two evaluations has something to do; else they do the
same. -/
lemma next (h : mid.Filled name v mid') (hmid : ∀ a, mid ≠ .asks (.done a))
    (hv : ∀ next, mid = .asks (.value name next) → e.valueOf store name = v) :
    (∃ mid1, mid.next e store = (e, [], mid1) ∧ mid1.Filled name v mid') ∨
      (∀ a, mid' ≠ .asks (.done a)) ∧ ∃ e' top mid1 mid1', mid.next e store = (e', top, mid1) ∧
        mid'.next e store = (e', top, mid1') ∧ mid1.Filled name v mid1' := by
  cases h with
  | asks h =>
    cases h with
    | done a => exact absurd rfl (hmid a)
    | @known next y h =>
      refine .inl ⟨_, rfl, .asks ?_⟩
      rw [hv next rfl]
      exact h
    | value _ h | aliasOf _ h | paths _ h =>
      exact .inr ⟨by simp, _, _, _, _, rfl, rfl, .asks (h _)⟩
    | capture commands negated h => exact .inr ⟨by simp, _, _, _, _, rfl, rfl, .waits _ _ h⟩
  | waits hub key h =>
    refine .inr ⟨by simp, ?_⟩
    simp only [Midway.next]
    rcases e.hubs.get? hub with _ | k
    · exact ⟨_, _, _, _, rfl, rfl, .asks (h _)⟩
    · dsimp only
      rcases k.status with _ | s
      · rcases e.turn true with ⟨e', work⟩ | _ | _
        · exact ⟨_, _, _, _, rfl, rfl, .waits _ _ h⟩
        · exact ⟨_, _, _, _, rfl, rfl, .waits _ _ h⟩
        · exact ⟨_, _, _, _, rfl, rfl, .asks (h _)⟩
      · exact ⟨_, _, _, _, rfl, rfl, .asks (h _)⟩

end Midway.Filled

/-- An evaluation without substitutions. -/
def Expansion.Silent {α : Type} : Expansion α → Prop
  | .done _ => True
  | .value _ next => ∀ v, (next v).Silent
  | .aliasOf _ next => ∀ a, (next a).Silent
  | .paths _ next => ∀ ps, (next ps).Silent
  | .capture _ _ _ => False

namespace Engine

variable {α : Type} {name : String} {v : Value} {e e' : Engine} {store : StoreId}
  {x y : Expansion α} {a : α} {n : ℕ}

/-- Each time an evaluation asks for a variable, it has the same value. -/
def Keeps (e : Engine) (store : StoreId) (x : Expansion α) (name : String) (v : Value) : Prop :=
  ∀ e' next k, e.Evaluating store x e' [] (.asks (.value name next)) k → e'.valueOf store name = v

end Engine

/-! ### What is assigned -/

namespace Stores

variable {s : Stores} {store : StoreId} {name : String}

end Stores

/-! ### A step that assigns and the next one -/

namespace Engine

variable {e e1 : Engine} {r : Runner} {assigned args : List Word} {redirects : List Redirect}
  {ts : List String} {name : String} {n : ℕ}

end Engine

end JobShell
