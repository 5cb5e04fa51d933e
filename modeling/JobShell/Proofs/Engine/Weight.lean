import JobShell.Engine.Machine
import JobShell.Proofs.Expansion
import JobShell.Proofs.Slab
import Mathlib.Data.Multiset.Bind
import Mathlib.Data.Multiset.DershowitzManna
import Mathlib.SetTheory.Ordinal.Family

/-!
How much work there is.

Work is weighed by a multiset of ranks. A piece of a command tree outweighs any evaluation, since
it may lead to one; an evaluation outweighs whatever is started for it, and weighs less with each
answer; all else has small ranks of its own. Something of a rank may be replaced by any number of
things of lower ranks, and that can go on for a finite time only.
-/

namespace JobShell

/-- The rank of a piece of work. -/
abbrev Rank := ℕ ×ₗ Ordinal.{0}

namespace Rank

/-- What is done in a fixed number of steps. -/
noncomputable def low (n : ℕ) : Rank := toLex (0, n)

/-- An evaluation, by how long it may still ask. -/
noncomputable def asking (o : Ordinal.{0}) : Rank := toLex (1, o)

/-- A piece of a command tree, by its size. -/
noncomputable def tree (n : ℕ) : Rank := toLex (2, n)

variable {m n : ℕ}

@[simp] lemma low_lt_low : low m < low n ↔ m < n := by
  simp [low, Prod.Lex.toLex_lt_toLex]

@[simp] lemma low_lt_asking {o : Ordinal.{0}} : low m < asking o := by
  simp [low, asking, Prod.Lex.toLex_lt_toLex]

@[simp] lemma low_lt_tree : low m < tree n := by
  simp [low, tree, Prod.Lex.toLex_lt_toLex]

@[simp] lemma asking_lt_asking {o o' : Ordinal.{0}} : asking o < asking o' ↔ o < o' := by
  simp [asking, Prod.Lex.toLex_lt_toLex]

@[simp] lemma asking_lt_tree {o : Ordinal.{0}} : asking o < tree n := by
  simp [asking, tree, Prod.Lex.toLex_lt_toLex]

@[simp] lemma tree_lt_tree : tree m < tree n ↔ m < n := by
  simp [tree, Prod.Lex.toLex_lt_toLex]

/-- There is less work: some of it has been replaced by work of lower ranks. -/
def Lighter (A B : Multiset Rank) : Prop := A.IsDershowitzMannaLT B

lemma wellFounded_lighter : WellFounded Lighter := Multiset.wellFounded_isDershowitzMannaLT

lemma lighter_add (C : Multiset Rank) {Y Z : Multiset Rank} {z : Rank} (hz : z ∈ Z)
    (hy : ∀ y ∈ Y, y < z) : Lighter (C + Y) (C + Z) :=
  ⟨C, Y, Z, fun h => by simp [h] at hz, rfl, rfl, fun y hm => ⟨z, hz, hy y hm⟩⟩

lemma lighter_of {Y Z : Multiset Rank} {z : Rank} (hz : z ∈ Z) (hy : ∀ y ∈ Y, y < z) :
    Lighter Y Z := by
  simpa using lighter_add 0 hz hy

lemma lighter_more (C : Multiset Rank) {Z : Multiset Rank} {z : Rank} (hz : z ∈ Z) :
    Lighter C (C + Z) := by
  simpa using lighter_add C (Y := 0) hz (by simp)

lemma lighter_keep (B C : Multiset Rank) {Y Z : Multiset Rank} {z : Rank} (hz : z ∈ Z)
    (hy : ∀ y ∈ Y, y < z) : Lighter (B + (C + Y)) (B + (C + Z)) := by
  rw [← add_assoc, ← add_assoc]
  exact lighter_add (B + C) hz hy

/-- Something in it outweighs any number of things of small ranks. -/
def Heavy (Z : Multiset Rank) : Prop := ∃ z ∈ Z, ∀ n, low n < z

lemma Heavy.lighter {Y : Multiset Rank} (h : Heavy Y) (V : Multiset Rank) (n : ℕ) :
    Lighter (V + {low n}) (V + Y) := by
  obtain ⟨z, hz, hlow⟩ := h
  exact lighter_add V hz (by simp [hlow])

lemma Lighter.trans {A B C : Multiset Rank} (h1 : Lighter A B) (h2 : Lighter B C) : Lighter A C :=
  Multiset.IsDershowitzMannaLT.trans h1 h2

lemma Lighter.add_right {A B : Multiset Rank} (h : Lighter A B) (C : Multiset Rank) :
    Lighter (A + C) (B + C) := by
  obtain ⟨X, Y, Z, hZ, rfl, rfl, hyz⟩ := h
  exact ⟨X + C, Y, Z, hZ, add_right_comm _ _ _, add_right_comm _ _ _, hyz⟩

end Rank

/-! ### Evaluations -/

namespace Expansion

variable {α β : Type}

/-- How long an evaluation may ask. Starting a pipeline and hearing of its end are two steps. -/
noncomputable def height : Expansion α → Ordinal.{0}
  | .done _ => 0
  | .value _ next => ⨆ v, (next v).height + 1
  | .aliasOf _ next => ⨆ a, (next a).height + 1
  | .paths _ next => ⨆ ps, (next ps).height + 1
  | .capture _ _ next => (⨆ r, (next r).height + 1) + 1

/-- How long an evaluation may ask once it has an answer. -/
noncomputable def rest {ι : Type} (next : ι → Expansion α) : Ordinal.{0} := ⨆ i, (next i).height + 1

lemma height_lt_rest {ι : Type} (next : ι → Expansion α) (i : ι) : (next i).height < rest next :=
  Ordinal.lt_iSup_add_one (fun i => (next i).height) i

lemma rest_lt_height (commands : List Command) (negated : Bool)
    (next : Except Fault Captured → Expansion α) :
    rest next < (capture commands negated next).height := by
  rw [height]
  exact Order.lt_add_one_iff.mpr le_rfl

end Expansion

open Rank JobShell.Tree

/-! ### Trees -/

namespace Tree

/-- The weight of a list of items. -/
noncomputable def weight (items : List Item) : Multiset Rank :=
  (items.map fun i => tree (sizeOf i.node) : List Rank)

lemma lt_of_mem_weight {items : List Item} {n : ℕ} (hn : sizeOf items ≤ n) :
    ∀ y ∈ weight items, y < tree n := by
  intro y hy
  obtain ⟨⟨node, background⟩, hi, rfl⟩ := List.mem_map.mp (Multiset.mem_coe.mp hy)
  have hlt := List.sizeOf_lt_of_mem hi
  simp only [Item.mk.sizeOf_spec] at hlt
  rw [tree_lt_tree]
  dsimp only
  omega

end Tree

lemma all_selectArm (scope : Scope) (subject : String) {arms : List Arm} {n : ℕ}
    (hn : sizeOf arms ≤ n) : (selectArm scope subject arms).run.All fun r =>
      ∀ items, r = .ok (some items) → sizeOf items ≤ n := by
  induction arms with
  | nil => exact fun items h => by cases h
  | cons arm arms ih =>
    obtain ⟨patterns, body⟩ := arm
    simp only [List.cons.sizeOf_spec, Arm.mk.sizeOf_spec] at hn
    refine Expansion.all_bind _ (fun b => ?_) (fun f items h => by cases h)
    cases b with
    | true =>
      rintro items h
      cases h
      omega
    | false => exact ih (by omega)

lemma all_chooseArm (scope : Scope) (subject : Word) (arms : List Arm) :
    (chooseArm scope subject arms).run.All fun r =>
      ∀ items, r = .ok (some items) → sizeOf items ≤ sizeOf arms :=
  Expansion.all_bind _ (fun text => all_selectArm scope text le_rfl) fun f items h => by cases h

noncomputable def Step.rank : Step → Rank
  | .ready _ => tree 0
  | .item i => tree (sizeOf i.node)

noncomputable def Runner.weight (r : Runner) : Multiset Rank := (r.steps.map Step.rank : List Rank)

lemma weight_runner (items : List Item) (hub : HubId) (ctx : Context) :
    ({ hub, steps := items.map .item, ctx } : Runner).weight = weight items := by
  simp [Runner.weight, weight, Step.rank, Function.comp_def]

/-- The weight of what follows when a hub completes. -/
noncomputable def Callback.weight : Callback → Multiset Rank
  | .runner r => r.weight + {low 2}
  | .logical _ _ right _ => {tree (sizeOf right)} + {low 5}
  | .branch _ onSuccess onFailure _ =>
    onSuccess.elim 0 Tree.weight + onFailure.elim 0 Tree.weight + {low 5}
  | .loop l => l.values.length • (Tree.weight l.body + {low 5}) + {low 5}
  | .subshell _ _ | .negate _ => {low 2}

noncomputable def Task.weight : Task → Multiset Rank
  | .advance r => r.weight + {low 4}
  | .complete _ _ => {low 4}
  | .loop _ _ _ body _ => {tree (sizeOf body + 2)}
  | .choice _ _ arms _ => {tree (sizeOf arms + 1)}
  | .finalize _ _ => {low 2}
  | .runChain _ | .fail _ => {low 5}
  | .flush _ => 0

noncomputable def Hub.weight (h : Hub Callback) : Multiset Rank :=
  (if h.status.isNone then {low 3} else 0) +
    (h.subscribers : Multiset (ℕ × Callback)).bind fun s => s.2.weight

namespace Engine

/-- The weight of all that an engine has put off. -/
noncomputable def weight (e : Engine) : Multiset Rank :=
  (e.hubs.entries.bind fun p => p.2.weight) +
    (e.tasks : Multiset Task).bind Task.weight + Multiset.replicate e.jobs.length (low 6)

end Engine

end JobShell
