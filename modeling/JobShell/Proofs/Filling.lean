import JobShell.Proofs.Bindings

/-!
A parameter and the text it stands for.

In a command tree a parameter can be replaced by literal text. An evaluation of the tree that is
filled in this way asks nothing about the parameter where it is replaced, and is otherwise the same,
as long as no frame binds the parameter. A parameter is replaced where it is free: not after an
assignment word of the same command that may be about it.
-/

namespace JobShell

open JobShell.Tree List Word

/-! ### Evaluations -/

namespace Expansion

variable {α β : Type} {name : String} {v : Value}

/-- The second evaluation is the first with some questions about a name left out, which are answered
with a value. -/
inductive Filled (name : String) (v : Value) : Expansion α → Expansion α → Prop
  | done (a : α) : Filled name v (.done a) (.done a)
  | known {next : Value → Expansion α} {y : Expansion α} (h : Filled name v (next v) y) :
      Filled name v (.value name next) y
  | value (n : String) {next next' : Value → Expansion α}
      (h : ∀ u, Filled name v (next u) (next' u)) : Filled name v (.value n next) (.value n next')
  | aliasOf (n : String) {next next' : Option String → Expansion α}
      (h : ∀ u, Filled name v (next u) (next' u)) :
      Filled name v (.aliasOf n next) (.aliasOf n next')
  | paths (pattern : String) {next next' : List String → Expansion α}
      (h : ∀ u, Filled name v (next u) (next' u)) :
      Filled name v (.paths pattern next) (.paths pattern next')
  | capture (commands : List Command) (negated : Bool)
      {next next' : Except Fault Captured → Expansion α}
      (h : ∀ u, Filled name v (next u) (next' u)) :
      Filled name v (.capture commands negated next) (.capture commands negated next')

lemma Filled.refl (x : Expansion α) : Filled name v x x := by
  induction x with
  | done a => exact .done a
  | value n next ih => exact .value n ih
  | aliasOf n next ih => exact .aliasOf n ih
  | paths pattern next ih => exact .paths pattern ih
  | capture commands negated next ih => exact .capture commands negated ih

lemma Filled.bind {P : α → Prop} {x y : Expansion α} {f g : α → Expansion β} (h : Filled name v x y)
    (hP : x.All P) (hf : ∀ a, P a → Filled name v (f a) (g a)) :
    Filled name v (x.bind f) (y.bind g) := by
  induction h with
  | done a => exact hf a hP
  | known _ ih => exact .known (ih (hP v))
  | value n _ ih => exact .value n fun u => ih u (hP u)
  | aliasOf n _ ih => exact .aliasOf n fun u => ih u (hP u)
  | paths pattern _ ih => exact .paths pattern fun u => ih u (hP u)
  | capture commands negated _ ih => exact .capture commands negated fun u => ih u (hP u)

end Expansion

namespace Evaluation

variable {α β : Type} {name : String} {v : Value}

/-- As for `Expansion.Filled`, for an evaluation that may fail. -/
def Filled (name : String) (v : Value) (x y : Evaluation α) : Prop :=
  Expansion.Filled name v x.run y.run

/-- Whatever an evaluation that does not fail comes to has a property. -/
def Yields (P : α → Prop) (x : Evaluation α) : Prop := x.run.All fun r => ∀ a, r = .ok a → P a

lemma Filled.refl (x : Evaluation α) : Filled name v x x := Expansion.Filled.refl _

lemma yields_true (x : Evaluation α) : x.Yields fun _ => True :=
  (Expansion.all_true _).imp fun _ _ _ _ => trivial

lemma yields_pure {P : α → Prop} {a : α} (h : P a) : Yields P (pure a) := by
  rintro _ ⟨⟩
  exact h

lemma yields_malformed {P : α → Prop} (m : Malformation) :
    Yields P (malformed m : Evaluation α) := by
  rintro _ ⟨⟩

lemma Yields.bind {P : α → Prop} {Q : β → Prop} {x : Evaluation α} {f : α → Evaluation β}
    (hx : x.Yields P) (hf : ∀ a, P a → (f a).Yields Q) : (x >>= f).Yields Q := by
  refine Expansion.All.bind hx fun r hr => ?_
  cases r with
  | ok a => exact hf a (hr a rfl)
  | error f => rintro _ ⟨⟩

lemma Filled.bind' {P : α → Prop} {x y : Evaluation α} {f g : α → Evaluation β}
    (h : Filled name v x y) (hP : x.Yields P) (hf : ∀ a, P a → Filled name v (f a) (g a)) :
    Filled name v (x >>= f) (y >>= g) := by
  refine Expansion.Filled.bind h hP fun r hr => ?_
  cases r with
  | ok a => exact hf a (hr a rfl)
  | error f => exact .done _

lemma Filled.bind {x y : Evaluation α} {f g : α → Evaluation β} (h : Filled name v x y)
    (hf : ∀ a, Filled name v (f a) (g a)) : Filled name v (x >>= f) (y >>= g) :=
  h.bind' (yields_true x) fun a _ => hf a

end Evaluation

/-! ### Command trees -/

/-- A word that assigns to another name: one that starts with a literal name other than this. -/
def Tree.Word.assignsOther (name : String) (w : Word) : Bool :=
  match w.parts with
  | .literal s :: _ =>
    match Text.splitFirst '=' s.toList with
    | some (n, _) => n != name.toList
    | none => false
  | _ => false

section Fill

variable (name text : String)

mutual

/-- The word with a parameter replaced by text. -/
def Tree.Word.fill : Word → Word
  | ⟨parts⟩ => ⟨fillParts parts⟩

def fillParts : List Part → List Part
  | [] => []
  | p :: ps => p.fill :: fillParts ps

def Tree.Part.fill : Part → Part
  | .literal s => .literal s
  | .glob raw => .glob raw
  | .param n => if n = name then .literal text else .param n
  | .output body => .output (fillBody body)

def fillBody : List Item → List Item
  | [⟨.command c, background⟩] => [⟨.command c.fill, background⟩]
  | [⟨.pipeline cs negated, background⟩] => [⟨.pipeline (fillCommands cs) negated, background⟩]
  | items => items

/-- Assignment words are filled up to the first that may be about the parameter. -/
def fillAssigned : List Word → List Word
  | [] => []
  | w :: ws => w.fill :: if w.assignsOther name then fillAssigned ws else ws

def fillWords : List Word → List Word
  | [] => []
  | w :: ws => w.fill :: fillWords ws

def fillRedirects : List Redirect → List Redirect
  | [] => []
  | ⟨op, fd, target⟩ :: rs => ⟨op, fd, target.fill⟩ :: fillRedirects rs

/-- The command with a parameter replaced by text where it is free. -/
def Tree.Simple.fill : Simple → Simple
  | ⟨assigned, none, args, redirects⟩ => ⟨fillAssigned assigned, none, args, redirects⟩
  | ⟨assigned, some word, args, redirects⟩ =>
    if assigned.all (Word.assignsOther name) then
      ⟨fillAssigned assigned, some word.fill, fillWords args, fillRedirects redirects⟩
    else ⟨fillAssigned assigned, some word, args, redirects⟩

def fillCommands : List Simple → List Simple
  | [] => []
  | c :: cs => c.fill :: fillCommands cs

end

end Fill

/-! ### Names and scopes -/

namespace Scope

variable {scope : Scope} {name n : String}

lemma lookup?_set_of_ne (h : n ≠ name) (scope : Scope) (v : Value) :
    (scope.set n v).lookup? name = scope.lookup? name := by
  obtain ⟨frames⟩ := scope
  rcases frames with _ | ⟨f, fs⟩
  · simp [set, lookup?, Bindings.get?_insert_of_ne h, Bindings.get?]
  · simp [set, lookup?, findSome?_cons, Bindings.get?_insert_of_ne h]

end Scope

/-- A text that starts like an assignment to another name is one, if it is an assignment. -/
lemma name_ne_of_starts {name s u n value : String} {a r : Chars}
    (hs : Text.splitFirst '=' s.toList = some (a, r)) (ha : a ≠ name.toList)
    (h : splitAssignment (s ++ u) = .ok (n, value)) : n ≠ name := by
  obtain ⟨hl, hm⟩ := Text.splitFirst_eq_some.mp hs
  have hsu : Text.splitFirst '=' (s ++ u).toList = some (a, r ++ u.toList) :=
    Text.splitFirst_eq_some.mpr ⟨by simp [hl], hm⟩
  unfold splitAssignment at h
  rw [hsu] at h
  dsimp only at h
  split_ifs at h
  simp only [Except.ok.injEq, Prod.mk.injEq] at h
  rintro rfl
  rw [← h.1] at ha
  simp at ha

/-! ### Filling before evaluating -/

section Filled

open Evaluation

variable {name : String} {v : Value} {scope : Scope}

lemma hasGlob_fill (name text : String) (w : Word) : (w.fill name text).hasGlob = w.hasGlob := by
  obtain ⟨parts⟩ := w
  rw [fill, hasGlob, hasGlob]
  induction parts with
  | nil => rfl
  | cons p ps ih =>
    have hp : (p.fill name text).isGlob = p.isGlob := by
      cases p with
      | param n =>
        rw [Part.fill]
        split_ifs <;> rfl
      | _ => rfl
    rw [fillParts, any_cons, any_cons, hp]
    exact congrArg _ ih

lemma yields_text {s : String} {ps : List Part} (scope : Scope) :
    ((⟨.literal s :: ps⟩ : Word).text scope).Yields fun t => ∃ u, t = s ++ u := by
  rw [text, partsText, Part.text]
  refine (yields_pure (P := (· = s)) rfl).bind ?_
  rintro _ rfl
  exact (yields_true _).bind fun u _ => yields_pure ⟨u, rfl⟩

lemma yields_assignsOther {w : Word} (hw : w.assignsOther name = true) (scope : Scope) :
    (w.text scope).Yields fun t => ∀ n value, splitAssignment t = .ok (n, value) → n ≠ name := by
  obtain ⟨parts⟩ := w
  unfold assignsOther at hw
  dsimp only at hw
  split at hw
  · split at hw
    · rename_i s _ _ a r hs
      refine (yields_text scope).imp fun r hr t ht n value hsplit => ?_
      obtain ⟨u, rfl⟩ := hr t ht
      exact name_ne_of_starts hs (by simpa using hw) hsplit
    · cases hw
  · cases hw

lemma yields_assignments {ws : List Word} (hw : ws.all (assignsOther name) = true)
    (hs : scope.lookup? name = none) :
    (assignments scope ws).Yields fun scope => scope.lookup? name = none := by
  induction ws generalizing scope with
  | nil =>
    rw [assignments]
    exact yields_pure hs
  | cons w ws ih =>
    rw [all_cons, Bool.and_eq_true] at hw
    rw [assignments]
    refine (yields_assignsOther hw.1 scope).bind fun t ht => ?_
    rcases hsplit : splitAssignment t with m | ⟨n, value⟩
    · exact yields_malformed m
    · exact ih hw.2 (by rw [Scope.lookup?_set_of_ne (ht n value hsplit), hs])

mutual

theorem filled_text : ∀ (w : Word) {scope : Scope}, scope.lookup? name = none →
    Filled name v (w.text scope) ((w.fill name v.render).text scope)
  | ⟨parts⟩, scope, hs => by
    rw [fill, text, text]
    exact filled_partsText parts hs

theorem filled_partsText : ∀ (ps : List Part) {scope : Scope}, scope.lookup? name = none →
    Filled name v (partsText scope ps) (partsText scope (fillParts name v.render ps))
  | [], scope, _ => .refl _
  | p :: ps, scope, hs => by
    rw [fillParts, partsText, partsText]
    exact (filled_partText p hs).bind fun s => (filled_partsText ps hs).bind fun _ => .refl _

theorem filled_partText : ∀ (p : Part) {scope : Scope}, scope.lookup? name = none →
    Filled name v (p.text scope) ((p.fill name v.render).text scope)
  | .literal s, scope, _ => .refl _
  | .glob raw, scope, _ => .refl _
  | .param n, scope, hs => by
    rw [Part.fill]
    split_ifs with hn
    · subst hn
      rw [Part.text, Part.text, Scope.resolve, hs]
      exact .known (.done _)
    · exact .refl _
  | .output body, scope, hs => by
    rw [Part.fill, Part.text, Part.text]
    exact (filled_bodyOutput body hs).bind fun _ => .refl _

theorem filled_pattern : ∀ (w : Word) {scope : Scope}, scope.lookup? name = none →
    Filled name v (w.pattern scope) ((w.fill name v.render).pattern scope)
  | ⟨parts⟩, scope, hs => by
    rw [fill, pattern, pattern]
    exact filled_partsPattern parts hs

theorem filled_partsPattern : ∀ (ps : List Part) {scope : Scope}, scope.lookup? name = none →
    Filled name v (partsPattern scope ps) (partsPattern scope (fillParts name v.render ps))
  | [], scope, _ => .refl _
  | p :: ps, scope, hs => by
    rw [fillParts, partsPattern, partsPattern]
    exact (filled_partPattern p hs).bind fun s => (filled_partsPattern ps hs).bind fun _ => .refl _

theorem filled_partPattern : ∀ (p : Part) {scope : Scope}, scope.lookup? name = none →
    Filled name v (p.pattern scope) ((p.fill name v.render).pattern scope)
  | .literal s, scope, _ => .refl _
  | .glob raw, scope, _ => .refl _
  | .param n, scope, hs => by
    rw [Part.fill]
    split_ifs with hn
    · subst hn
      rw [Part.pattern, Part.pattern, Scope.resolve, hs]
      exact .known (.done _)
    · exact .refl _
  | .output body, scope, hs => by
    rw [Part.fill, Part.pattern, Part.pattern]
    exact (filled_bodyOutput body hs).bind fun _ => .refl _

theorem filled_bodyOutput : ∀ (body : List Item) {scope : Scope}, scope.lookup? name = none →
    Filled name v (bodyOutput scope body) (bodyOutput scope (fillBody name v.render body))
  | [⟨.command c, background⟩], scope, hs => by
    rw [fillBody, bodyOutput, bodyOutput]
    exact (filled_command c hs).bind fun _ => .refl _
  | [⟨.pipeline cs negated, background⟩], scope, hs => by
    rw [fillBody, bodyOutput, bodyOutput]
    exact (filled_commands cs hs).bind fun _ => .refl _
  | [], scope, _ => .refl _
  | [⟨.logical .., _⟩], scope, _ => .refl _
  | [⟨.conditional .., _⟩], scope, _ => .refl _
  | [⟨.loop .., _⟩], scope, _ => .refl _
  | [⟨.choice .., _⟩], scope, _ => .refl _
  | [⟨.subshell .., _⟩], scope, _ => .refl _
  | ⟨node, _⟩ :: _ :: _, scope, _ => by cases node <;> exact .refl _

theorem filled_assignments : ∀ (ws : List Word) {scope : Scope}, scope.lookup? name = none →
    Filled name v (assignments scope ws) (assignments scope (fillAssigned name v.render ws))
  | [], scope, _ => .refl _
  | w :: ws, scope, hs => by
    rw [fillAssigned, assignments, assignments]
    split_ifs with hw
    · refine (filled_text w hs).bind' (yields_assignsOther hw scope) fun t ht => ?_
      rcases hsplit : splitAssignment t with m | ⟨n, value⟩
      · exact .refl _
      · exact filled_assignments ws (by rw [Scope.lookup?_set_of_ne (ht n value hsplit), hs])
    · exact (filled_text w hs).bind fun _ => .refl _

theorem filled_arguments : ∀ (ws : List Word) {scope : Scope}, scope.lookup? name = none →
    Filled name v (arguments scope ws) (arguments scope (fillWords name v.render ws))
  | [], scope, _ => .refl _
  | w :: ws, scope, hs => by
    rw [fillWords, arguments, arguments, hasGlob_fill]
    split_ifs
    · exact (filled_pattern w hs).bind fun _ => (Filled.refl _).bind fun _ =>
        (filled_arguments ws hs).bind fun _ => .refl _
    · exact (filled_text w hs).bind fun _ => (Filled.refl _).bind fun _ =>
        (filled_arguments ws hs).bind fun _ => .refl _

theorem filled_redirections : ∀ (rs : List Redirect) {scope : Scope}, scope.lookup? name = none →
    Filled name v (redirections scope rs) (redirections scope (fillRedirects name v.render rs))
  | [], scope, _ => .refl _
  | ⟨op, fd, target⟩ :: rs, scope, hs => by
    rw [fillRedirects, redirections, redirections]
    refine (filled_text target hs).bind fun t => ?_
    split_ifs
    · exact .refl _
    · exact (filled_redirections rs hs).bind fun _ => .refl _

theorem filled_command : ∀ (c : Simple) {scope : Scope}, scope.lookup? name = none →
    Filled name v (c.command scope) ((c.fill name v.render).command scope)
  | ⟨assigned, none, args, redirects⟩, scope, hs => by
    replace hs : (scope.push []).lookup? name = none := hs
    rw [Simple.fill, Simple.command, Simple.command]
    exact (filled_assignments assigned hs).bind fun _ => .refl _
  | ⟨assigned, some word, args, redirects⟩, scope, hs => by
    replace hs : (scope.push []).lookup? name = none := hs
    rw [Simple.fill]
    split_ifs with hall
    · rw [Simple.command, Simple.command]
      refine (filled_assignments assigned hs).bind' (yields_assignments hall hs) fun scope hs => ?_
      refine (filled_text word hs).bind fun text => (Filled.refl _).bind fun target => ?_
      dsimp only
      split_ifs
      · exact .refl _
      · exact (filled_arguments args hs).bind fun _ =>
          (filled_redirections redirects hs).bind fun _ => .refl _
    · rw [Simple.command, Simple.command]
      exact (filled_assignments assigned hs).bind fun _ => .refl _

theorem filled_commands : ∀ (cs : List Simple) {scope : Scope}, scope.lookup? name = none →
    Filled name v (commands scope cs) (commands scope (fillCommands name v.render cs))
  | [], scope, _ => .refl _
  | c :: cs, scope, hs => by
    rw [fillCommands, commands, commands]
    exact (filled_command c hs).bind fun _ => (filled_commands cs hs).bind fun _ => .refl _

end

variable (hs : scope.lookup? name = none) (separators subject : String)
include hs

end Filled

end JobShell
