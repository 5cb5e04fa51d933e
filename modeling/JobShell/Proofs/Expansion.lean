import JobShell.Expansion.Basic
import Mathlib.Tactic.Common

/-!
Evaluations one after the other, and what they come to.
-/

namespace JobShell.Expansion

variable {α β : Type}

lemma bind_assoc {γ : Type} (x : Expansion α) (f : α → Expansion β) (g : β → Expansion γ) :
    (x.bind f).bind g = x.bind fun a => (f a).bind g := by
  induction x with
  | done a => rfl
  | value _ _ ih | aliasOf _ _ ih | paths _ _ ih | capture _ _ _ ih => simp only [bind, ih]

lemma bind_done (x : Expansion α) : x.bind .done = x := by
  induction x with
  | done a => rfl
  | value _ _ ih | aliasOf _ _ ih | paths _ _ ih | capture _ _ _ ih =>
    exact congrArg _ (funext ih)

instance : LawfulMonad Expansion := .mk' _ bind_done (fun _ _ => rfl) bind_assoc

/-- Whatever an evaluation comes to has a property. -/
def All (P : α → Prop) : Expansion α → Prop
  | .done a => P a
  | .value _ next => ∀ v, (next v).All P
  | .aliasOf _ next => ∀ a, (next a).All P
  | .paths _ next => ∀ ps, (next ps).All P
  | .capture _ _ next => ∀ r, (next r).All P

lemma All.bind {P : α → Prop} {Q : β → Prop} {x : Expansion α} {f : α → Expansion β}
    (hx : x.All P) (hf : ∀ a, P a → (f a).All Q) : (x.bind f).All Q := by
  induction x with
  | done a => exact hf a hx
  | value _ _ ih | aliasOf _ _ ih | paths _ _ ih | capture _ _ _ ih => exact fun r => ih r (hx r)

lemma All.imp {P Q : α → Prop} {x : Expansion α} (hx : x.All P) (hi : ∀ a, P a → Q a) :
    x.All Q := by
  rw [← x.bind_done]
  exact hx.bind hi

lemma all_true (x : Expansion α) : x.All fun _ => True := by
  induction x with
  | done a => trivial
  | value _ _ ih | aliasOf _ _ ih | paths _ _ ih | capture _ _ _ ih => exact ih

lemma All.map {P : α → Prop} {Q : β → Prop} {x : Expansion α} (hx : x.All P) {f : α → β}
    (hf : ∀ a, P a → Q (f a)) : (x.map f).All Q :=
  hx.bind hf

/-- An evaluation that goes on with whatever another one comes to. -/
lemma all_bind {P : Except Fault β → Prop} (x : Evaluation α) {f : α → Evaluation β}
    (hf : ∀ a, (f a).run.All P) (he : ∀ f, P (.error f)) : (x >>= f).run.All P := by
  refine (all_true x.run).bind fun r _ => ?_
  cases r with
  | ok a => exact hf a
  | error f => exact he f

end JobShell.Expansion
