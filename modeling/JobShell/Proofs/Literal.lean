import JobShell.Proofs.Wildcards

/-!
Patterns without wildcards.

A word without wildcards is escaped as a whole: each special character becomes a class of its own.
Main statement: such a word selects an arm of a choice just if its text is the text that is looked
for, whatever characters they have.
-/

namespace JobShell

open JobShell.Tree Evaluation List Pattern Token

namespace Pattern

/-- The token of an escaped character. -/
def Token.ofChar (c : Char) : Token := if isSpecial c then .within [.single c] else .char c

lemma isSpecial_iff (c : Char) : isSpecial c = true ↔ c = '?' ∨ c = '*' ∨ c = '[' ∨ c = ']' := by
  simp [isSpecial, or_assoc]

lemma tokenize_char (before : List Token) (start : Bool) {c : Char} (hc : isSpecial c = false)
    (cs : List Char) :
    tokenize before start (c :: cs) = tokenize (before ++ [.char c]) (c == '/') cs := by
  have hne := (isSpecial_iff c).not.mp (by simp [hc])
  rw [tokenize.eq_def]
  grind

lemma tokenize_class (before : List Token) (start : Bool) {c : Char} (hc : isSpecial c = true)
    (cs : List Char) :
    tokenize before start ('[' :: c :: ']' :: cs) =
      tokenize (before ++ [.within [.single c]]) false cs := by
  rcases (isSpecial_iff c).mp hc with rfl | rfl | rfl | rfl <;> rfl

/-- An escaped text is read as one token a character, wherever it stands. -/
lemma tokenize_escape (before : List Token) (start : Bool) (cs : List Char) :
    tokenize before start (escapeList cs) = some (before ++ cs.map .ofChar) := by
  induction cs generalizing before start with
  | nil => simp [escapeList, tokenize]
  | cons c cs ih =>
    rw [escapeList] at ih ⊢
    rcases hc : isSpecial c
    · simp [hc, tokenize_char, ih, ofChar]
    · simp [hc, tokenize_class, ih, ofChar]

/-- The tokens of a text match that text and no other. -/
lemma matchTokens_ofChar (cs : List Char) (start : Bool) (ds : List Char) :
    matchTokens false (cs.map .ofChar) start ds = .matched ↔ cs = ds := by
  induction cs generalizing start ds with
  | nil => cases ds <;> simp [matchTokens]
  | cons c cs ih =>
    have htakes : ∀ d start, (ofChar c).takes false start d = (d == c) := by
      intro d start
      unfold ofChar
      split <;> simp [takes, Span.contains]
    cases ds with
    | nil => unfold ofChar; grind [matchTokens]
    | cons d ds =>
      have hstep : matchTokens false (.ofChar c :: cs.map .ofChar) start (d :: ds) =
          if d == c then matchTokens false (cs.map .ofChar) (d == '/') ds else .mismatch := by
        rw [← htakes d start]
        unfold ofChar
        split <;> rfl
      rw [map_cons, hstep, cons_eq_cons]
      split
      next he => simp [ih, (beq_iff_eq.mp he).symm]
      next he => simp [Ne.symm (by simpa using he : d ≠ c)]

lemma matchesText_escape (s t : String) : matchesText (escape s) t = decide (s = t) := by
  rw [matchesText, parse?, escape, String.toList_ofList, tokenize_escape, nil_append,
    Bool.eq_iff_iff]
  simp [accepts, matchTokens_ofChar, String.toList_inj]

end Pattern

open Piece

lemma Tree.Word.pattern_eq_escape {w : Word} (hw : w.hasGlob = false) (scope : Scope) :
    w.pattern scope = escape <$> w.text scope := by
  obtain ⟨parts⟩ := w
  rw [Word.pattern, Word.text]
  induction parts with
  | nil => simp [partsPattern, partsText, escape, escapeList]
  | cons p ps ih =>
    obtain ⟨hp, hps⟩ : p.isGlob = false ∧ Word.hasGlob ⟨ps⟩ = false := by
      simpa [Word.hasGlob] using hw
    have hpart : p.pattern scope = escape <$> p.text scope := by
      cases p with
      | glob raw => simp [Part.isGlob] at hp
      | _ => simp [Part.pattern, Part.text]
    simp [partsPattern, partsText, hpart, ih hps, escape, escapeList]

/-- A word without wildcards among the patterns of an arm selects it just if its text is the one
that is looked for; else the choice goes on with the patterns after it. -/
theorem literal_pattern_selects (subject w : Word) (hw : w.hasGlob = false) (scope : Scope)
    (ws : List Word) (body : List Item) (arms : List Arm) :
    chooseArm scope subject (⟨w :: ws, body⟩ :: arms) = (do
      let looked ← subject.text scope
      let text ← w.text scope
      if text = looked then return some body
      else selectArm scope looked (⟨ws, body⟩ :: arms)) := by
  simp only [chooseArm, selectArm, anyMatches, w.pattern_eq_escape hw, bind_map_left, bind_assoc,
    matchesText_escape, decide_eq_true_eq]
  refine bind_congr fun looked => bind_congr fun text => ?_
  split <;> simp

/-- `[!?` is matched by `[!?`, and not by `[!` -/
theorem literal_pattern_selects_bracket :
    (chooseArm {} ⟨[.literal "[!?"]⟩
      [⟨[⟨[.literal "[!"]⟩, ⟨[.literal "[", .literal "!?"]⟩], []⟩]).run =
      .done (.ok (some [])) := by
  rw [literal_pattern_selects _ _ rfl]
  rfl

end JobShell
