import JobShell.Proofs.Engine.Refinement

/-!
What a loop goes over.

The text of a word is cut at the separators. Main statement: its fields are the runs of other
characters that cannot be made longer, however many separators stand before, between and after
them, and words contribute their items one after the other.
-/

namespace JobShell

open JobShell.Tree Evaluation List Text

namespace Text

variable {isSep : Char → Bool} {s f t : Chars} {fs : List Chars}

/-- A text made of fields: separators before, between and after them, none in them. -/
inductive Spread (isSep : Char → Bool) : List Chars → Chars → Prop
  | nil {s : Chars} (hs : ∀ c ∈ s, isSep c = true) : Spread isSep [] s
  | cons {s f t : Chars} {fs : List Chars} (hs : ∀ c ∈ s, isSep c = true) (hne : f ≠ [])
      (hf : ∀ c ∈ f, isSep c = false) (ht : ∀ c ∈ t.head?, isSep c = true)
      (rest : Spread isSep fs t) : Spread isSep (f :: fs) (s ++ (f ++ t))

/-- A run of characters that are no separators, with no such character on either side. -/
structure IsRun (isSep : Char → Bool) (s f t : Chars) : Prop where
  ne_nil : f ≠ []
  free : ∀ c ∈ f, isSep c = false
  before : ∀ c ∈ s.getLast?, isSep c = true
  after : ∀ c ∈ t.head?, isSep c = true

lemma pieces_ne_nil (isSep : Char → Bool) (t : Chars) : pieces isSep t ≠ [] := by
  cases t with
  | nil => simp [pieces]
  | cons c t => grind [pieces]

lemma pieces_append_cons {c : Char} (hc : isSep c = true) (s t : Chars) :
    pieces isSep (s ++ c :: t) = pieces isSep s ++ pieces isSep t := by
  induction s with
  | nil => simp [pieces, hc]
  | cons d s ih =>
    rw [cons_append, pieces, pieces, ih]
    split
    · rfl
    · obtain ⟨p, ps, hp⟩ := exists_cons_of_ne_nil (pieces_ne_nil isSep s)
      rw [hp]
      rfl

lemma pieces_free (hf : ∀ c ∈ f, isSep c = false) : pieces isSep f = [f] := by
  induction f with
  | nil => rfl
  | cons c f ih => simp [pieces, hf c, ih fun d hd => hf d (mem_cons_of_mem c hd)]

/-- A separator ends the field before it. -/
lemma fields_append_cons {c : Char} (hc : isSep c = true) (s t : Chars) :
    fields isSep (s ++ c :: t) = fields isSep s ++ fields isSep t := by
  rw [fields, pieces_append_cons hc, filter_append]
  rfl

lemma fields_cons {c : Char} (hc : isSep c = true) (t : Chars) :
    fields isSep (c :: t) = fields isSep t :=
  fields_append_cons hc [] t

lemma fields_separators (hs : ∀ c ∈ s, isSep c = true) (t : Chars) :
    fields isSep (s ++ t) = fields isSep t := by
  induction s with
  | nil => rfl
  | cons c s ih =>
    rw [cons_append, fields_cons (hs c mem_cons_self)]
    exact ih fun d hd => hs d (mem_cons_of_mem c hd)

/-- What follows a run is split apart from it. -/
lemma fields_append (hne : f ≠ []) (hf : ∀ c ∈ f, isSep c = false)
    (ht : ∀ c ∈ t.head?, isSep c = true) : fields isSep (f ++ t) = f :: fields isSep t := by
  have hfree : fields isSep f = [f] := by simp [fields, pieces_free hf, hne]
  cases t with
  | nil => simpa [fields, pieces] using hfree
  | cons c t =>
    have hc : isSep c = true := ht c rfl
    rw [fields_append_cons hc, hfree, fields_cons hc]
    rfl

lemma IsRun.fields (h : IsRun isSep s f t) :
    fields isSep (s ++ (f ++ t)) = fields isSep s ++ f :: fields isSep t := by
  rw [← fields_append h.ne_nil h.free h.after]
  rcases eq_nil_or_concat s with rfl | ⟨s, c, rfl⟩
  · rfl
  · have hc : isSep c = true := h.before c (by simp)
    rw [concat_eq_append, append_assoc, singleton_append, fields_append_cons hc,
      fields_append_cons hc]
    simp [fields, pieces]

lemma Spread.fields (h : Spread isSep fs t) : fields isSep t = fs := by
  induction h with
  | nil hs => simpa [Text.fields, pieces] using fields_separators hs []
  | cons hs hne hf ht _ ih => rw [fields_separators hs, fields_append hne hf ht, ih]

end Text

end JobShell
