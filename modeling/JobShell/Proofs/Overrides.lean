import JobShell.Launch
import JobShell.Proofs.Bindings

/-!
What a command is told of its variables.

Names are looked up from the innermost frame outwards, and frames are put together from the
outermost inwards. Main statement: both find the same values, so the words of a command and the
environment of its job agree about every name that is bound around the command or by it.
-/

namespace JobShell

open JobShell.Tree Evaluation List

namespace Scope

variable {s : Scope}

/-- A step in the making of a scope. -/
inductive Edit where
  | push (pairs : List (String × Value))
  | pop
  | set (name : String) (v : Value)

def edit (s : Scope) : Edit → Scope
  | .push pairs => s.push (Bindings.ofList pairs)
  | .pop => s.pop
  | .set name v => s.set name v

def made (es : List Edit) : Scope := es.foldl edit {}

/-- In each frame the names are in order, each one once. -/
def Proper (s : Scope) : Prop := ∀ f ∈ s.frames, f.Sorted

lemma lookup?_push (s : Scope) (f : Frame) (n : String) :
    (s.push f).lookup? n = (f.get? n).or (s.lookup? n) := by
  simp only [lookup?, push, findSome?_cons]
  cases f.get? n <;> rfl

lemma Proper.push (h : s.Proper) {f : Frame} (hf : f.Sorted) : (s.push f).Proper :=
  forall_mem_cons.mpr ⟨hf, h⟩

lemma Proper.edit (h : s.Proper) (a : Edit) : (s.edit a).Proper := by
  obtain ⟨frames⟩ := s
  cases a with
  | push pairs => exact h.push (.foldl_insert .nil pairs)
  | pop => exact fun f hf => h f (mem_of_mem_tail hf)
  | set name v =>
    rcases frames with _ | ⟨f, fs⟩
    · exact forall_mem_singleton.mpr (.insert .nil name v)
    · obtain ⟨hf, hfs⟩ := forall_mem_cons.mp h
      exact forall_mem_cons.mpr ⟨hf.insert name v, hfs⟩

lemma proper_made (es : List Edit) : (made es).Proper := by
  have hrun : ∀ s : Scope, s.Proper → (es.foldl edit s).Proper := by
    induction es with
    | nil => exact fun s h => h
    | cons a es ih => exact fun s h => ih _ (h.edit a)
  exact hrun {} (by simp [Proper])

lemma Proper.get?_flatten (h : s.Proper) (n : String) : s.flatten.get? n = s.lookup? n := by
  obtain ⟨frames⟩ := s
  induction frames with
  | nil => rfl
  | cons f fs ih =>
    obtain ⟨hf, hfs⟩ := forall_mem_cons.mp h
    have hcons : flatten ⟨f :: fs⟩ = Bindings.override (flatten ⟨fs⟩) f := rfl
    rw [hcons, Bindings.get?_override hf, ih hfs]
    exact (lookup?_push ⟨fs⟩ f n).symm

end Scope

/-- The words of a command are evaluated with its assignments in a frame of their own. For each name
that the frame or the frames around it bind, the job is given the value that the name stands for in
these words, the latest and innermost one, and it is given no other name. -/
theorem overrides_seen (es : List Scope.Edit) (assigned args : List Word) (w : Word)
    (redirects : List Redirect) :
    (∀ n, (Scope.made es).flatten.get? n = (Scope.made es).lookup? n) ∧
    (⟨assigned, some w, args, redirects⟩ : Simple).command (Scope.made es) = (do
      let ts ← assignedTexts ((Scope.made es).push []) assigned
      let inner := (Scope.made es).push (ts.foldl Bindings.assign [])
      let text ← w.text inner
      let (name, first) := expandAlias text (← aliasOf text)
      if name.isEmpty then malformed .emptyName
      else
        let args ← arguments inner args
        let redirections ← redirections inner redirects
        return { name, args := first ++ args, redirections, assignments := inner.flatten }) ∧
    ∀ (ts : List String) (n : String) (c : Command) (services : Services) (world : World)
      (kind : JobKind),
      let inner := (Scope.made es).push (ts.foldl Bindings.assign [])
      let given := (Launch.resolve services world kind { c with assignments := inner.flatten }).env
      given.get? n = (ts.reverse.findSome? (assignedTo n)).or ((Scope.made es).lookup? n) ∧
        inner.resolve n = (given.get? n).elim (Evaluation.value n) pure := by
  have hmade := Scope.proper_made es
  refine ⟨hmade.get?_flatten, ?_, fun ts n c services world kind => ?_⟩
  · rw [Simple.command, assignments_push, bind_map_left]
  · intro inner given
    have hinner : inner.Proper := hmade.push (Bindings.sorted_foldl_assign .nil ts)
    have hgiven : given.get? n = inner.lookup? n := hinner.get?_flatten n
    have hlookup : inner.lookup? n =
        (ts.reverse.findSome? (assignedTo n)).or ((Scope.made es).lookup? n) := by
      rw [Scope.lookup?_push, get?_assigned, Bindings.get?, Option.or_none]
    refine ⟨hgiven.trans hlookup, ?_⟩
    rw [hgiven, Scope.resolve]
    cases inner.lookup? n <;> rfl

end JobShell
