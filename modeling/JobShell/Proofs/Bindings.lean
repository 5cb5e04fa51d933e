import JobShell.Expansion.Word
import JobShell.Proofs.Expansion
import JobShell.Proofs.Text

/-!
Values bound to names: what is bound is found, names stay in order, and the inner one of two sets
of bindings comes first.
-/

namespace JobShell

open JobShell.Tree List

namespace Bindings

variable {α : Type} {b : Bindings α}

lemma get?_eq_none {n : String} (h : ∀ p ∈ b, p.1 ≠ n) : b.get? n = none := by
  induction b with
  | nil => rfl
  | cons p rest ih =>
    rw [get?, if_neg (h p mem_cons_self)]
    exact ih fun q hq => h q (mem_cons_of_mem _ hq)

lemma get?_insert (b : Bindings α) (name : String) (v : α) :
    (b.insert name v).get? name = some v := by
  induction b with
  | nil => simp [insert, get?]
  | cons p rest ih =>
    simp only [insert]
    split
    · simp [get?]
    · split
      · simp [get?]
      · rw [get?, if_neg ‹_›]
        exact ih

lemma get?_insert_of_ne {name n : String} (h : n ≠ name) (b : Bindings α) (v : α) :
    (b.insert n v).get? name = b.get? name := by
  induction b with
  | nil => simp [insert, get?, h]
  | cons p rest ih =>
    simp only [insert]
    split_ifs with hlt heq
    · rw [get?, if_neg h]
    · subst heq
      rw [get?, if_neg h, get?, if_neg h]
    · rw [get?, get?, ih]

/-- The names of bindings, each one once and in order. -/
def Sorted (b : Bindings α) : Prop := b.Pairwise fun p q => p.1 < q.1

lemma mem_insert {n : String} {v : α} {p : String × α} (h : p ∈ b.insert n v) :
    p = (n, v) ∨ p ∈ b := by
  induction b with
  | nil => simpa [insert] using h
  | cons q rest ih =>
    simp only [insert] at h
    split_ifs at h
    · simpa using h
    · rcases mem_cons.mp h with h | h
      · exact .inl h
      · exact .inr (mem_cons_of_mem _ h)
    · rcases mem_cons.mp h with h | h
      · exact .inr (h ▸ mem_cons_self)
      · exact (ih h).imp_right (mem_cons_of_mem _)

lemma Sorted.insert (h : b.Sorted) (n : String) (v : α) : (b.insert n v).Sorted := by
  induction b with
  | nil => exact pairwise_singleton _ _
  | cons q rest ih =>
    obtain ⟨hq, hrest⟩ := pairwise_cons.mp h
    simp only [Bindings.insert]
    split_ifs with hlt heq
    · refine pairwise_cons.mpr ⟨fun p hp => ?_, h⟩
      rcases mem_cons.mp hp with rfl | hp
      · exact hlt
      · exact String.lt_trans hlt (hq p hp)
    · subst heq
      exact pairwise_cons.mpr ⟨hq, hrest⟩
    · refine pairwise_cons.mpr ⟨fun p hp => ?_, ih hrest⟩
      rcases mem_insert hp with rfl | hp
      · exact String.not_le.mp fun hle => heq (String.le_antisymm (String.not_lt.mp hlt) hle)
      · exact hq p hp

lemma mem_of_mem_foldl_insert {ps : List (String × α)} {p : String × α}
    (h : p ∈ ps.foldl (fun b p => insert b p.1 p.2) b) : p ∈ b ∨ p ∈ ps := by
  induction ps generalizing b with
  | nil => exact .inl h
  | cons q ps ih =>
    rcases ih h with h | h
    · rcases mem_insert h with h | h
      · exact .inr (h ▸ mem_cons_self)
      · exact .inl h
    · exact .inr (mem_cons_of_mem _ h)

lemma mem_of_mem_ofList {ps : List (String × α)} {p : String × α} (h : p ∈ ofList ps) : p ∈ ps :=
  (mem_of_mem_foldl_insert h).resolve_left not_mem_nil

lemma Sorted.foldl_insert (h : b.Sorted) (ps : List (String × α)) :
    Sorted (ps.foldl (fun b p => .insert b p.1 p.2) b) := by
  induction ps generalizing b with
  | nil => exact h
  | cons q ps ih => exact ih (h.insert q.1 q.2)

lemma insert_last {n : String} (v : α) (h : ∀ p ∈ b, p.1 < n) : b.insert n v = b ++ [(n, v)] := by
  induction b with
  | nil => rfl
  | cons q rest ih =>
    have hq : q.1 < n := h q mem_cons_self
    rw [insert, if_neg (String.lt_asymm hq), if_neg (String.ne_of_lt hq),
      ih fun p hp => h p (mem_cons_of_mem _ hp), cons_append]

lemma Sorted.ofList_eq (h : b.Sorted) : ofList b = b := by
  have hfold : ∀ (ps acc : Bindings α), Sorted (acc ++ ps) →
      ps.foldl (fun b p => .insert b p.1 p.2) acc = acc ++ ps := by
    intro ps
    induction ps with
    | nil => exact fun acc _ => (append_nil acc).symm
    | cons q ps ih =>
      intro acc hs
      have hlast : ∀ p ∈ acc, p.1 < q.1 := fun p hp =>
        (pairwise_append.mp hs).2.2 p hp q mem_cons_self
      rw [foldl_cons, insert_last q.2 hlast, ih, append_assoc, singleton_append]
      rwa [append_assoc, singleton_append]
  exact hfold b [] h

/-- Of two sets of bindings the inner one comes first. -/
lemma get?_override (h : b.Sorted) (outer : Bindings α) (n : String) :
    (override outer b).get? n = (b.get? n).or (outer.get? n) := by
  induction b generalizing outer with
  | nil => rfl
  | cons p rest ih =>
    obtain ⟨hp, hrest⟩ := pairwise_cons.mp h
    rw [override, foldl_cons, ← override, ih hrest, get?]
    split
    next he =>
      have hnone : get? rest n = none :=
        get?_eq_none fun q hq => he ▸ (String.ne_of_lt (hp q hq)).symm
      rw [hnone, he, get?_insert]
      rfl
    next hne => rw [get?_insert_of_ne hne]

end Bindings

/-! ### Assignment words -/

variable {c : Char} {name : String}

lemma notMem_of_isName {name : Chars} (h : isName name = true)
    (hc : (c.isAlphanum || c == '_') = false) : c ∉ name := by
  intro hm
  rcases name with _ | ⟨d, ds⟩
  · cases hm
  · have hall : ∀ d ∈ ds, (d.isAlphanum || d == '_') = true := by
      simp only [isName, Bool.and_eq_true, all_eq_true] at h
      exact h.2
    rcases mem_cons.mp hm with rfl | hm
    · simp only [isName, Bool.and_eq_true] at h
      have hfirst := h.1
      simp only [Bool.or_eq_false_iff, Char.isAlphanum] at hc
      simp [hc] at hfirst
    · rw [hall c hm] at hc
      cases hc

lemma splitAssignment_eq (h : isName name.toList = true) (text : String) :
    splitAssignment (name ++ "=" ++ text) = .ok (name, text) := by
  have hsplit : Text.splitFirst '=' (name ++ "=" ++ text).toList =
      some (name.toList, text.toList) :=
    Text.splitFirst_eq_some.mpr ⟨by simp, notMem_of_isName h (by decide)⟩
  rw [splitAssignment, hsplit]
  simp [h]

/-- The texts of assignment words, each of which is seen by those that follow. -/
def assignedTexts (scope : Scope) : List Word → Evaluation (List String)
  | [] => pure []
  | w :: ws => do
    let text ← w.text scope
    match splitAssignment text with
    | .ok (name, value) =>
      return text :: (← assignedTexts (scope.set name (Value.coerce value)) ws)
    | .error m => Evaluation.malformed m

/-- The bindings with that of an assignment word. -/
def Bindings.assign (b : Bindings Value) (text : String) : Bindings Value :=
  match splitAssignment text with
  | .ok (name, value) => b.insert name (Value.coerce value)
  | .error _ => b

/-- Assignments add to the innermost frame. -/
lemma assignments_push (s : Scope) (f : Frame) (ws : List Word) :
    assignments (s.push f) ws =
      (fun ts => s.push (ts.foldl Bindings.assign f)) <$> assignedTexts (s.push f) ws := by
  induction ws generalizing f with
  | nil => simp [assignments, assignedTexts]
  | cons w ws ih =>
    simp only [assignments, assignedTexts, map_bind]
    refine bind_congr fun text => ?_
    rcases hsplit : splitAssignment text with m | ⟨name, value⟩
    · rfl
    · have hassign : f.assign text = f.insert name (Value.coerce value) := by
        simp only [Bindings.assign, hsplit]
      have hset : (s.push f).set name (Value.coerce value) = s.push (f.assign text) := by
        rw [hassign]
        rfl
      simp [hset, ih]

namespace Bindings

lemma Sorted.assign {b : Bindings Value} (h : b.Sorted) (text : String) :
    (b.assign text).Sorted := by
  unfold Bindings.assign
  split
  · exact h.insert _ _
  · exact h

lemma sorted_foldl_assign {b : Bindings Value} (h : b.Sorted) (ts : List String) :
    (ts.foldl assign b).Sorted := by
  induction ts generalizing b with
  | nil => exact h
  | cons t ts ih => exact ih (h.assign t)

end Bindings

/-- What an assignment word assigns to a name. -/
def assignedTo (n text : String) : Option Value :=
  match splitAssignment text with
  | .ok (name, value) => if name = n then some (Value.coerce value) else none
  | .error _ => none

/-- The latest assignment to a name counts. -/
lemma get?_assigned (ts : List String) (b : Bindings Value) (n : String) :
    (ts.foldl Bindings.assign b).get? n = (ts.reverse.findSome? (assignedTo n)).or (b.get? n) := by
  induction ts generalizing b with
  | nil => rfl
  | cons t ts ih =>
    have ht : (b.assign t).get? n = (assignedTo n t).or (b.get? n) := by
      rcases hsplit : splitAssignment t with m | ⟨name, value⟩ <;>
        simp only [Bindings.assign, assignedTo, hsplit]
      · rfl
      · split
        next he => rw [he, Bindings.get?_insert]; rfl
        next hne => rw [Bindings.get?_insert_of_ne hne]; rfl
    rw [foldl_cons, ih, ht, reverse_cons, findSome?_append, Option.or_assoc]
    simp

end JobShell
