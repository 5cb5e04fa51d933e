import JobShell.Expansion.Word
import JobShell.Proofs.Expansion
import Mathlib.Data.List.Basic

/-!
Words with wildcards that match nothing.

The text and the pattern of a word are evaluated apart. Here both are read off the pieces that the
parts of the word come to, and so is what a command and a loop make of the word. Main statement:
where no path matches, they are given the text of the word if and only if no piece but the wildcards
has a special character in it; else they are given the pattern, with those characters escaped.
-/

namespace JobShell

open JobShell.Tree Evaluation List Pattern String

/-- What a part of a word comes to. -/
structure Piece where
  text : String
  wild : Bool

namespace Piece

def pattern (p : Piece) : String := if p.wild then p.text else Pattern.escape p.text

/-- A wildcard, or a text without special characters. -/
def Plain (p : Piece) : Prop := p.wild = true ∨ ∀ c ∈ p.text.toList, Pattern.isSpecial c = false

def textOf (ps : List Piece) : String := String.join (ps.map text)

def patternOf (ps : List Piece) : String := String.join (ps.map pattern)

end Piece

open Piece

def Tree.Part.piece (scope : Scope) : Part → Evaluation Piece
  | .literal s => pure ⟨s, false⟩
  | .glob raw => pure ⟨raw, true⟩
  | .param name => do return ⟨(← scope.resolve name).render, false⟩
  | .output body => do return ⟨(← bodyOutput scope body).value, false⟩

def Tree.Word.pieces (scope : Scope) (w : Word) : Evaluation (List Piece) :=
  w.parts.mapM (Part.piece scope)

lemma Tree.Part.text_eq (scope : Scope) (p : Part) :
    p.text scope = Piece.text <$> p.piece scope := by
  cases p <;> simp [Part.text, Part.piece]

lemma Tree.Part.pattern_eq (scope : Scope) (p : Part) :
    p.pattern scope = Piece.pattern <$> p.piece scope := by
  cases p <;> simp [Part.pattern, Part.piece, Piece.pattern]

lemma Tree.Word.text_eq (scope : Scope) (w : Word) : w.text scope = textOf <$> w.pieces scope := by
  obtain ⟨parts⟩ := w
  rw [Word.text, pieces]
  induction parts with
  | nil => simp [partsText, textOf]
  | cons p ps ih => simp [partsText, ih, Part.text_eq, textOf]

lemma Tree.Word.pattern_eq (scope : Scope) (w : Word) :
    w.pattern scope = patternOf <$> w.pieces scope := by
  obtain ⟨parts⟩ := w
  rw [Word.pattern, pieces]
  induction parts with
  | nil => simp [partsPattern, patternOf]
  | cons p ps ih => simp [partsPattern, ih, Part.pattern_eq, patternOf]

/-! ### Escaped characters -/

/-- Escaping adds two characters for each special one. -/
lemma Pattern.length_escapeList (cs : List Char) :
    (escapeList cs).length = cs.length + 2 * cs.countP isSpecial := by
  induction cs with
  | nil => rfl
  | cons c cs ih =>
    rw [escapeList] at ih ⊢
    rcases hc : isSpecial c
    · simp [ih, hc]
      omega
    · simp [ih, hc]
      omega

lemma Pattern.escape_eq_self {s : String} (h : ∀ c ∈ s.toList, isSpecial c = false) :
    escape s = s := by
  have hself : escapeList s.toList = s.toList := by
    rw [escapeList, flatMap_congr (g := fun c => [c]) fun c hc => by simp [h c hc]]
    exact flatMap_singleton' _
  rw [escape, hself, ofList_toList]

lemma Piece.length_pattern (p : Piece) : p.text.length ≤ p.pattern.length := by
  unfold pattern
  split
  · exact Nat.le_refl _
  · simp [escape, length_escapeList, ← length_toList]

lemma Piece.length_patternOf (ps : List Piece) : (textOf ps).length ≤ (patternOf ps).length := by
  induction ps with
  | nil => exact Nat.le_refl _
  | cons p ps ih => simpa [textOf, patternOf] using Nat.add_le_add p.length_pattern ih

lemma Piece.pattern_eq_text_iff (p : Piece) : p.pattern = p.text ↔ p.Plain := by
  unfold pattern Plain
  split
  next hw => simp [hw]
  next hw =>
    refine ⟨fun h => .inr ?_, fun h => escape_eq_self (h.resolve_left hw)⟩
    have hlen : (escape p.text).length = p.text.length := congrArg _ h
    rw [escape, length_ofList, length_escapeList, length_toList] at hlen
    have hcount : p.text.toList.countP isSpecial = 0 := by omega
    simpa [countP_eq_zero] using hcount

/-- No piece makes up for what another one gains. -/
lemma Piece.patternOf_eq_textOf_iff (ps : List Piece) :
    patternOf ps = textOf ps ↔ ∀ p ∈ ps, p.Plain := by
  induction ps with
  | nil => simp [patternOf, textOf]
  | cons p ps ih =>
    have hsplit : patternOf (p :: ps) = textOf (p :: ps) ↔
        p.pattern = p.text ∧ patternOf ps = textOf ps := by
      refine ⟨fun h => ?_, fun h => by simp_all [patternOf, textOf]⟩
      have hlists := congrArg toList h
      have hlen := congrArg String.length h
      have hp := p.length_pattern
      have hps := length_patternOf ps
      simp only [patternOf, textOf, map_cons, join_cons, toList_append,
        String.length_append] at hlists hlen hps
      obtain ⟨h1, h2⟩ := append_inj hlists (by simp only [String.length_toList]; omega)
      exact ⟨toList_inj.mp h1, toList_inj.mp h2⟩
    rw [hsplit, pattern_eq_text_iff, ih, forall_mem_cons]

/-- What a command and a loop are given for a word with wildcards. The pieces of the word decide
about its text and its pattern; the paths that match take its place, and where there are none the
pattern does. That is the text if and only if the pieces are plain. -/
theorem unmatched_word (w : Word) (hw : w.hasGlob = true) (scope : Scope) :
    w.text scope = textOf <$> w.pieces scope ∧
    (∀ ws, arguments scope (w :: ws) = do
      let ps ← w.pieces scope
      return .pattern (patternOf ps) :: (← arguments scope ws)) ∧
    (∀ separators, wordItems scope separators w = do
      let ps ← w.pieces scope
      let found ← paths (patternOf ps)
      return (Command.expandArg (fun _ => found) (.pattern (patternOf ps))).map .text) ∧
    ∀ (expand : String → List String) (ps : List Piece), expand (patternOf ps) = [] →
      (Command.expandArg expand (.pattern (patternOf ps)) = [textOf ps] ↔ ∀ p ∈ ps, p.Plain) := by
  refine ⟨w.text_eq scope, fun ws => ?_, fun separators => ?_, fun expand ps hnone => ?_⟩
  · simp [arguments, hw, w.pattern_eq]
  · unfold wordItems
    split
    next name hparts => simp [Word.hasGlob, hparts, Part.isGlob] at hw
    next =>
      simp only [textItems, hw, if_true, w.pattern_eq, bind_map_left]
      refine bind_congr fun ps => bind_congr fun found => ?_
      cases found <;> rfl
  · rw [Command.expandArg, hnone, ← patternOf_eq_textOf_iff]
    exact singleton_inj

theorem unmatched_word_star :
    Word.text {} ⟨[.literal "a", .glob "*"]⟩ =
        textOf <$> Word.pieces {} ⟨[.literal "a", .glob "*"]⟩ ∧
      Command.expandArg (fun _ => []) (.pattern (patternOf [⟨"a", false⟩, ⟨"*", true⟩])) =
        [textOf [⟨"a", false⟩, ⟨"*", true⟩]] := by
  obtain ⟨htext, -, -, hexpand⟩ := unmatched_word ⟨[.literal "a", .glob "*"]⟩ rfl {}
  refine ⟨htext, (hexpand _ _ rfl).mpr ?_⟩
  simp [Plain, isSpecial]

/-- `[x]*`, of a literal and a wildcard -/
def bracketed : Word := ⟨[.literal "[x]", .glob "*"]⟩

/-- The text has its brackets; the argument, and the item of a loop, has them escaped. -/
theorem unmatched_word_escaped :
    (bracketed.text {}).run = .done (.ok "[x]*") ∧
      (arguments {} [bracketed]).run = .done (.ok [.pattern "[[]x[]]*"]) ∧
      Command.expandArg (fun _ => []) (.pattern "[[]x[]]*") = ["[[]x[]]*"] :=
  ⟨rfl, rfl, rfl⟩

end JobShell
