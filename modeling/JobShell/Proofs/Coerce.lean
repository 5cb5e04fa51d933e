import JobShell.Proofs.Bindings
import JobShell.Proofs.Json
import JobShell.Value.Coerce

/-!
Variables that are copied.

A value is made from the text of an assignment, and is written as text again where a parameter
stands for it. Main statement: what is written of a value without floating point numbers is made
into the same value, so that an assignment of one variable to another copies it.
-/

namespace JobShell

open Json JobShell.Tree List Option Value Bindings Text

/-! ### What is read -/

namespace Number

lemma gather_le (ds : List ℕ) {s : ℕ} (hs : s ≤ maxSignificand) :
    (gather s ds).1 ≤ maxSignificand := by
  induction ds generalizing s with
  | nil => exact hs
  | cons d ds ih =>
    rw [gather]
    split_ifs with hd
    · exact ih hd
    · exact hs

lemma floatOf?_ne_int (negative : Bool) (s : ℕ) (e n : ℤ) :
    floatOf? negative s e ≠ some (.int n) := by
  unfold floatOf?
  cases scaleTen 4 (Binary64.ofNat s) e <;> simp

/-- The integers that are read. -/
def Fits (n : ℤ) : Prop := -2 ^ 63 ≤ n ∧ n < 2 ^ 64

lemma fits_of_ofLiteral? {l : Literal} {n : ℤ} (h : ofLiteral? l = some (.int n)) : Fits n := by
  have hmax : (gather 0 l.whole).1 ≤ maxSignificand := gather_le _ (Nat.zero_le _)
  rw [maxSignificand] at hmax
  unfold ofLiteral? at h
  simp only at h
  split at h
  · split_ifs at h
    · cases h
    · exact absurd h (floatOf?_ne_int _ _ _ _)
    · exact absurd h (floatOf?_ne_int _ _ _ _)
  · split_ifs at h with _ _ hsize
    · cases h
      constructor <;> omega
    · exact absurd h (floatOf?_ne_int _ _ _ _)
    · cases h
      simp only [Bool.or_eq_true, decide_eq_true_eq] at hsize
      constructor <;> omega
    · exact absurd h (floatOf?_ne_int _ _ _ _)

lemma fits_of_integral {n : Number} {i : ℤ} (h : integral n = .int i)
    (hn : ∀ j, n = .int j → Fits j) : Fits i := by
  unfold integral at h
  split at h
  · exact hn i h
  · split at h
    · split_ifs at h with hi
      cases h
      exact ⟨hi.1, hi.2.trans (by decide)⟩
    · cases h

end Number

namespace Value

variable {d : ℕ} {v : Value}

lemma ofMembers?_rawMembers {ms : Members}
    (h : ∀ p ∈ ms, p.2.Whole → ofRaw? d p.2.raw = some p.2) (hms : WholeMembers ms) :
    ofMembers? d (rawMembers ms) = some ms := by
  induction ms with
  | nil => rfl
  | cons p ms ih =>
    have hp := h p mem_cons_self hms.1
    have hrest := ih (fun q hq => h q (mem_cons_of_mem _ hq)) hms.2
    simp [rawMembers, ofMembers?, hp, hrest]

mutual

/-- What is read of a document is read again of its raw document. Of members that are overridden
nothing is left to be read. -/
theorem ofRaw?_raw : ∀ (r : Raw) {d : ℕ} {v : Value}, ofRaw? d r = some v → v.Whole →
    ofRaw? d v.raw = some v
  | .null, d, v, h, _ => by
    cases h
    rfl
  | .bool b, d, v, h, _ => by
    cases h
    rfl
  | .number l, d, v, h, hv => by
    obtain ⟨n | x, hn, rfl⟩ := map_eq_some_iff.mp h
    · exact congrArg (Option.map number) (Number.ofLiteral?_ofInt (Number.fits_of_ofLiteral? hn))
    · exact hv.elim
  | .string s, d, v, h, _ => by
    obtain ⟨s, -, rfl⟩ := map_eq_some_iff.mp h
    rfl
  | .array rs, 0, v, h, _ => by cases h
  | .array rs, d + 1, v, h, hv => by
    obtain ⟨vs, hvs, rfl⟩ := map_eq_some_iff.mp h
    exact congrArg (Option.map list) (ofItems?_rawItems rs hvs hv)
  | .object rs, 0, v, h, _ => by cases h
  | .object rs, d + 1, v, h, hv => by
    obtain ⟨ms, hms, rfl⟩ := map_eq_some_iff.mp h
    have hread := ofMembers?_rawMembers
      (fun p hp => ofRaw?_member rs hms p (mem_of_mem_ofList hp)) hv
    have hsorted : ofList (ofList ms) = ofList ms :=
      Sorted.ofList_eq (Sorted.foldl_insert List.Pairwise.nil ms)
    have hraw := congrArg (Option.map fun ms => record (ofList ms)) hread
    rwa [map_some, hsorted] at hraw

theorem ofItems?_rawItems : ∀ (rs : List Raw) {d : ℕ} {vs : List Value}, ofItems? d rs = some vs →
    WholeItems vs → ofItems? d (rawItems vs) = some vs
  | [], d, vs, h, _ => by
    cases h
    rfl
  | r :: rs, d, vs, h, hvs => by
    simp only [ofItems?, bind_eq_bind, bind_eq_some_iff, Option.pure_def, some.injEq] at h
    obtain ⟨v, hv, vs, hrest, rfl⟩ := h
    simp [rawItems, ofItems?, ofRaw?_raw r hv hvs.1, ofItems?_rawItems rs hrest hvs.2]

theorem ofRaw?_member : ∀ (rs : List (Option String × Raw)) {d : ℕ} {ms : Members},
    ofMembers? d rs = some ms → ∀ p ∈ ms, p.2.Whole → ofRaw? d p.2.raw = some p.2
  | [], d, ms, h, p, hp, _ => by
    cases h
    cases hp
  | (name, r) :: rs, d, ms, h, p, hp, hw => by
    simp only [ofMembers?, bind_eq_bind, bind_eq_some_iff, Option.pure_def, some.injEq] at h
    obtain ⟨n, -, v, hv, ms, hrest, rfl⟩ := h
    rcases mem_cons.mp hp with rfl | hp
    · exact ofRaw?_raw r hv hw
    · exact ofRaw?_member rs hrest p hp hw

end

/-! ### From a value to text and back -/

lemma trimList_eq {c d : Char} {cs ds : Chars} (hc : isBlank c = false)
    (hd : isBlank d = false) (h : c :: cs = ds ++ [d]) : trimList (c :: cs) = c :: cs := by
  rw [trimList, dropWhile_cons_of_neg (by simp [hc]), h]
  simp [hd]

/-- A number, a list or a record. -/
def Structured : Value → Prop
  | .number _ | .list _ | .record _ => True
  | _ => False

lemma mem_chars_int {n : ℤ} {c : Char} (h : c ∈ (Number.int n).chars) :
    isBlank c = false ∧ ∀ cs, looksStructured (c :: cs) = true := by
  have hdigit : ∀ {c : Char}, c ∈ Nat.toDigits 10 n.natAbs →
      isBlank c = false ∧ ∀ cs, looksStructured (c :: cs) = true := by
    intro c hc
    have hd := Nat.isDigit_of_mem_toDigits (by decide) (by decide) hc
    have hrange : 48 ≤ c.toNat ∧ c.toNat ≤ 57 := by
      simpa [Char.isDigit, UInt32.le_iff_toNat_le] using hd
    refine ⟨?_, fun cs => ?_⟩
    · simp [isBlank]
      omega
    · simp [looksStructured, Char.le_def, UInt32.le_iff_toNat_le]
      exact .inr hrange
  rw [Number.chars] at h
  split_ifs at h
  · rcases mem_cons.mp h with rfl | h
    · exact ⟨by decide, fun cs => rfl⟩
    · exact hdigit h
  · exact hdigit h

/-- Text that is written of a value looks like one. -/
lemma looksStructured_chars (hv : v.Whole) (hs : v.Structured) :
    looksStructured v.chars = true ∧ trimList v.chars = v.chars := by
  rcases v with _ | b | (n | x) | s | vs | ms
  · exact hs.elim
  · exact hs.elim
  · obtain ⟨c, cs, hcs, -⟩ := Raw.exists_head_int n
    have hlast : c :: cs = (c :: cs).dropLast ++ [(c :: cs).getLast (by simp)] :=
      (dropLast_append_getLast _).symm
    obtain ⟨hc, hlook⟩ := mem_chars_int (n := n) (hcs ▸ mem_cons_self)
    have hmem : (c :: cs).getLast (by simp) ∈ (Number.int n).chars := by
      rw [hcs]
      exact getLast_mem _
    rw [chars, hcs]
    exact ⟨hlook cs, trimList_eq hc (mem_chars_int hmem).1 hlast⟩
  · exact hv.elim
  · exact hs.elim
  · rcases vs with _ | ⟨v, vs⟩
    · exact ⟨rfl, rfl⟩
    · exact ⟨rfl, trimList_eq (d := ']') (by decide) (by decide) cons_append.symm⟩
  · rcases ms with _ | ⟨⟨n, v⟩, ms⟩
    · exact ⟨rfl, rfl⟩
    · exact ⟨rfl, trimList_eq (d := '\x7d') (by decide) (by decide) cons_append.symm⟩

/-- A value as it is kept: whole numbers are integers where they fit. -/
def kept : Value → Value
  | .number n => .number (integral n)
  | v => v

lemma coerce_of_parse? {t : String} {w : Value} (hlook : looksStructured t.toList = true)
    (htrim : trimList t.toList = t.toList) (h : parse? t = some w) (hw : w.Structured) :
    coerce t = w.kept := by
  simp only [coerce, hlook, htrim, beq_self_eq_true, Bool.and_true, if_true, h]
  cases w with
  | null | bool b | text s => exact hw.elim
  | number n | list vs | record ms => rfl

lemma coerce_json (hv : v.Whole) (hs : v.Structured) {w : Value}
    (h : ofRaw? maxDepth v.raw = some w) (hw : w.Structured) : coerce v.json = w.kept := by
  obtain ⟨hlook, htrim⟩ := looksStructured_chars hv hs
  have hchars : v.json.toList = v.chars := String.toList_ofList
  refine coerce_of_parse? (hchars ▸ hlook) (hchars ▸ htrim) ?_ hw
  rw [parse?, Raw.parse?_json hv, bind_some, h]

lemma coerce_cases (t : String) : coerce t = .text t ∨
    ∃ w, parse? t = some w ∧ w.Structured ∧ coerce t = w.kept := by
  unfold coerce
  simp only
  split_ifs
  · split
    next n h => exact .inr ⟨_, h, trivial, rfl⟩
    next vs h => exact .inr ⟨_, h, trivial, rfl⟩
    next ms h => exact .inr ⟨_, h, trivial, rfl⟩
    next => exact .inl rfl
  · exact .inl rfl

/-- A value that is kept is read again of its raw document, and is kept as it is. -/
lemma ofRaw?_kept {r : Raw} {w : Value} (h : ofRaw? maxDepth r = some w) (hs : w.Structured)
    (hw : w.kept.Whole) : w.kept.Structured ∧ w.kept.kept = w.kept ∧
      w.kept.render = w.kept.json ∧ ofRaw? maxDepth w.kept.raw = some w.kept := by
  rcases w with _ | b | n | s | vs | ms
  · exact hs.elim
  · exact hs.elim
  · rcases hn : integral n with i | x
    · have hfits : Number.Fits i := Number.fits_of_integral hn fun j hj => by
        subst hj
        cases r with
        | number l =>
          obtain ⟨_, hl, hj⟩ := map_eq_some_iff.mp h
          cases hj
          exact Number.fits_of_ofLiteral? hl
        | string s => cases s <;> cases h
        | null | bool => cases h
        | array rs | object rs =>
          obtain ⟨_, -, hj⟩ := map_eq_some_iff.mp h
          cases hj
      rw [kept, hn]
      exact ⟨trivial, rfl, rfl, congrArg (Option.map number) (Number.ofLiteral?_ofInt hfits)⟩
    · rw [kept, hn] at hw
      exact hw.elim
  · exact hs.elim
  · exact ⟨trivial, rfl, rfl, ofRaw?_raw r h hw⟩
  · exact ⟨trivial, rfl, rfl, ofRaw?_raw r h hw⟩

/-- The text of a value is made into the value again. -/
lemma coerce_render (t : String) (h : (coerce t).Whole) : coerce (coerce t).render = coerce t := by
  rcases coerce_cases t with ht | ⟨w, hparse, hs, ht⟩
  · rw [ht, render, ht]
  · obtain ⟨r, -, hr⟩ := bind_eq_some_iff.mp hparse
    rw [ht] at h ⊢
    obtain ⟨hs, hkept, hrender, hraw⟩ := ofRaw?_kept hr hs h
    rw [hrender, coerce_json h hs hraw hs, hkept]

end Value

/-- An assignment of one variable to another copies it. -/
theorem copy_keeps_value (t : String) (h : (Value.coerce t).Whole) :
    Value.coerce (Value.coerce t).render = Value.coerce t ∧
    ∀ (scope : Scope) (a b : String) (ws : List Word), isName b.toList = true →
      (scope.lookup? a = some (Value.coerce t) →
        assignments scope (⟨[.literal (b ++ "="), .param a]⟩ :: ws) =
          assignments (scope.set b (Value.coerce t)) ws) ∧
      (scope.lookup? a = none → ∃ next,
        (assignments scope (⟨[.literal (b ++ "="), .param a]⟩ :: ws)).run = .value a next ∧
          next (Value.coerce t) = (assignments (scope.set b (Value.coerce t)) ws).run) := by
  have hcopy := coerce_render t h
  refine ⟨hcopy, fun scope a b ws hb => ?_⟩
  have hassign : assignments scope (⟨[.literal (b ++ "="), .param a]⟩ :: ws) =
      scope.resolve a >>= fun v => assignments (scope.set b (coerce v.render)) ws := by
    simp [assignments, Word.text, partsText, Part.text, splitAssignment_eq hb]
  rw [hassign, Scope.resolve]
  constructor <;> intro ha <;> rw [ha]
  · rw [pure_bind, hcopy]
  · exact ⟨_, rfl, congrArg (fun v => (assignments (scope.set b v) ws).run) hcopy⟩

theorem copy_keeps_value_list :
    ∃ next, (assignments {} [⟨[.literal ("b" ++ "="), .param "a"]⟩]).run = .value "a" next ∧
      next (.list [.int 1, .bool true]) =
        (assignments (Scope.set {} "b" (.list [.int 1, .bool true])) []).run := by
  have hjson : "[1,true]" = (list [.int 1, .bool true]).json := by decide +kernel
  have hread : ofRaw? maxDepth (list [.int 1, .bool true]).raw =
      some (.list [.int 1, .bool true]) := by
    simp [maxDepth, int, raw, rawItems, ofRaw?, ofItems?,
      Number.ofLiteral?_ofInt]
  have hlist : (list [.int 1, .bool true]).Whole := ⟨trivial, trivial, trivial⟩
  have hcoerce : coerce "[1,true]" = .list [.int 1, .bool true] := by
    rw [hjson]
    exact coerce_json hlist trivial hread trivial
  have hcopy := copy_keeps_value "[1,true]"
  rw [hcoerce] at hcopy
  exact ((hcopy hlist).2 {} "a" "b" [] (by decide)).2 rfl

end JobShell
