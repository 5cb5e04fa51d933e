import JobShell.Value.Json
import Mathlib.Data.List.Basic
import Mathlib.Tactic.IntervalCases

/-!
Documents that are written are read back.

The text of a value without fractions is read as one raw document, whatever follows it that cannot
go on a number. Each character of a text is written in one way and read back as itself, and digits
are read as far as they go.
-/

namespace JobShell

open Json Json.Raw List Value Nat Text Literal

/-! ### Numbers -/

namespace Json

/-- What may follow a number: nothing that would go on it. -/
def Ends : Chars → Prop
  | [] => True
  | c :: _ => Text.digitOf? c = none ∧ c ≠ '.' ∧ c ≠ 'e' ∧ c ≠ 'E'

/-- The value of a digit. -/
def digitValue (c : Char) : ℕ := c.toNat - '0'.toNat

/-- A whole number as it is written. -/
def Literal.ofInt (n : ℤ) : Literal :=
  ⟨n < 0, (Nat.toDigits 10 n.natAbs).map digitValue, [], none⟩

lemma digitOf?_eq_some {c : Char} (hc : c.isDigit = true) :
    digitOf? c = some (digitValue c) := by
  simp only [Char.isDigit, Bool.and_eq_true, decide_eq_true_eq] at hc
  simp only [digitOf?, digitValue, Char.le_def]
  rw [if_pos]
  simpa using hc

namespace Raw

variable {rest : Chars}

lemma spanDigits_append {cs : Chars} (hcs : ∀ c ∈ cs, c.isDigit = true)
    (hr : Ends rest) : spanDigits (cs ++ rest) = (cs.map digitValue, rest) := by
  induction cs with
  | nil =>
    rcases rest with _ | ⟨c, rest⟩
    · rfl
    · simp [spanDigits, hr.1]
  | cons c cs ih =>
    have hc := digitOf?_eq_some (hcs c mem_cons_self)
    simp [spanDigits, hc, ih fun c hm => hcs c (mem_cons_of_mem _ hm)]

lemma digitValue_head_toDigits {k : ℕ} (hk : 0 < k) {c : Char} {cs : Chars}
    (h : toDigits 10 k = c :: cs) : digitValue c ≠ 0 := by
  induction k using Nat.strong_induction_on generalizing cs with
  | _ k ih =>
    rw [toDigits_eq_if (by decide)] at h
    split at h
    · rename_i hlt
      obtain ⟨rfl, -⟩ := cons.inj h
      interval_cases k <;> decide
    · rename_i hge
      rcases hd : toDigits 10 (k / 10) with _ | ⟨c', cs'⟩
      · exact absurd hd (ne_nil_of_length_pos length_toDigits_pos)
      · rw [hd, cons_append] at h
        obtain ⟨rfl, -⟩ := cons.inj h
        exact ih (k / 10) (by omega) (by omega) hd

lemma readWhole_toDigits (k : ℕ) (hr : Ends rest) :
    readWhole (toDigits 10 k ++ rest) = some ((toDigits 10 k).map digitValue, rest) := by
  have hspan := spanDigits_append
    (fun c hc => isDigit_of_mem_toDigits (b := 10) (n := k) (by decide) (by decide) hc) hr
  rw [readWhole, hspan]
  rcases hd : toDigits 10 k with _ | ⟨c, _ | ⟨c', cs⟩⟩
  · exact absurd hd (ne_nil_of_length_pos length_toDigits_pos)
  · rcases hv : digitValue c with _ | n <;> simp [hv]
  · have hpos : 0 < k := by
      by_contra hzero
      obtain rfl : k = 0 := by omega
      simp at hd
    have hne := digitValue_head_toDigits hpos hd
    rcases hv : digitValue c with _ | n
    · exact absurd hv hne
    · simp [hv]

lemma readNumber_int (n : ℤ) (hr : Ends rest) :
    readNumber ((Number.int n).chars ++ rest) = some (.ofInt n, rest) := by
  have hfraction : readFraction rest = some ([], rest) := by
    rcases rest with _ | ⟨c, rest⟩
    · rfl
    · unfold readFraction
      split
      · rename_i h
        exact absurd (cons.inj h).1 hr.2.1
      · rfl
  have hexponent : readExponent rest = some (none, rest) := by
    rcases rest with _ | ⟨c, rest⟩
    · rfl
    · simp [readExponent, hr.2.2.1, hr.2.2.2]
  have hwhole := readWhole_toDigits n.natAbs hr
  by_cases hn : n < 0
  · simp [readNumber, Number.chars, hn, hwhole, hfraction, hexponent, ofInt]
  · obtain ⟨c, cs, hd⟩ := exists_cons_of_length_pos
      (length_toDigits_pos (b := 10) (n := n.natAbs))
    have hdigit : c.isDigit = true :=
      isDigit_of_mem_toDigits (by decide) (by decide) (hd ▸ mem_cons_self)
    have hsign : c ≠ '-' := by
      rintro rfl
      revert hdigit
      decide
    have hchars : (Number.int n).chars = c :: cs := by rw [Number.chars, if_neg hn, hd]
    have hlit : ofInt n = ⟨false, (c :: cs).map digitValue, [], none⟩ := by
      rw [ofInt, hd, decide_eq_false hn]
    rw [hd] at hwhole
    rw [hchars, hlit, readNumber, hwhole]
    · simp [hfraction, hexponent]
    · intro cs' h
      exact hsign (cons.inj h).1

end Raw

end Json

namespace Number

lemma gather_eq (ds : List ℕ) (s : ℕ) (h : Text.ofDigits s ds ≤ maxSignificand) :
    gather s ds = (Text.ofDigits s ds, []) := by
  induction ds generalizing s with
  | nil => rfl
  | cons d ds ih =>
    have hle : ∀ (ds : List ℕ) (a : ℕ), a ≤ Text.ofDigits a ds := by
      intro ds
      induction ds with
      | nil => exact fun a => le_rfl
      | cons d ds ih => exact fun a => le_trans (by omega) (ih (a * 10 + d))
    have hd : s * 10 + d ≤ maxSignificand := (hle ds _).trans h
    rw [gather, if_pos hd]
    exact ih _ h

lemma ofDigits_toDigits (k : ℕ) :
    Text.ofDigits 0 ((toDigits 10 k).map digitValue) = k := by
  have h := ofDigitChars_toDigits (b := 10) (n := k) (by decide) (by decide)
  rw [ofDigitChars] at h
  rw [Text.ofDigits, foldl_map]
  simpa [digitValue, mul_comm] using h

lemma ofLiteral?_ofInt {n : ℤ} (hn : -2 ^ 63 ≤ n ∧ n < 2 ^ 64) :
    ofLiteral? (.ofInt n) = some (.int n) := by
  have hmax : Text.ofDigits 0 ((toDigits 10 n.natAbs).map digitValue) ≤ maxSignificand := by
    rw [ofDigits_toDigits, maxSignificand]
    omega
  have hgather := gather_eq _ _ hmax
  rw [ofDigits_toDigits] at hgather
  by_cases hneg : n < 0
  · have hsize : ¬ (n = 0 ∨ 9223372036854775808 < n.natAbs) := by omega
    simp [ofLiteral?, ofInt, hgather, hneg, hsize, abs_of_neg hneg]
  · simp [ofLiteral?, ofInt, hgather, hneg]
    omega

end Number

/-! ### Texts -/

namespace Json.Raw

lemma hexDigit?_digitChar {d : ℕ} (hd : d < 16) : hexDigit? (digitChar d) = some d := by
  interval_cases d <;> decide

/-- A character is written in a way that is read back as the character. -/
lemma readUnits_escapeChar (c : Char) {cs rest : Chars} {us : List Unit16}
    (h : readUnits cs = some (us, rest)) :
    ∃ u, readUnits (escapeChar c ++ cs) = some (u :: us, rest) ∧
      joinUnits (u :: us) = (joinUnits us).map (c :: ·) := by
  unfold escapeChar
  split
  case h_8 hquote hslash _ _ _ _ _ =>
    split
    · rename_i hc
      have hhigh := hexDigit?_digitChar (d := c.toNat / 16) (by omega)
      have hlow := hexDigit?_digitChar (d := c.toNat % 16) (by omega)
      have hzero : hexDigit? '0' = some 0 := by decide
      have hunit : hex4? '0' '0' (digitChar (c.toNat / 16)) (digitChar (c.toNat % 16)) =
          some c.toNat := by
        simp only [hex4?, hhigh, hlow, hzero, Option.pure_def, Option.bind_eq_bind,
          Option.bind_some]
        congr 1
        omega
      refine ⟨.unit c.toNat, by simp [readUnits, hunit, h], ?_⟩
      have hhalf : ¬ 0xD800 ≤ c.toNat ∧ ¬ 0xDC00 ≤ c.toNat := by omega
      rw [joinUnits.eq_def]
      simp [hhalf, Char.ofNat_toNat]
    · rename_i hc
      refine ⟨.char c, ?_, rfl⟩
      rw [singleton_append, readUnits]
      · simpa [hc, h] using hslash
      · exact hquote
      · exact fun a b c d rest hc _ => hslash hc
      · exact fun e rest hc _ => hslash hc
  all_goals exact ⟨.char _, by simp [readUnits, simpleEscape?, h], rfl⟩

lemma readString_quoted (s : String) (rest : Chars) :
    readString (s.toList.flatMap escapeChar ++ '"' :: rest) = some (some s, rest) := by
  have hunits : ∀ cs : Chars, ∃ us,
      readUnits (cs.flatMap escapeChar ++ '"' :: rest) = some (us, rest) ∧
        joinUnits us = some cs := by
    intro cs
    induction cs with
    | nil => exact ⟨[], by simp [readUnits], rfl⟩
    | cons c cs ih =>
      obtain ⟨us, hus, hjoin⟩ := ih
      obtain ⟨u, hu, hcons⟩ := readUnits_escapeChar c hus
      refine ⟨u :: us, ?_, by rw [hcons, hjoin, Option.map_some]⟩
      rw [flatMap_cons, append_assoc, hu]
  obtain ⟨us, hus, hjoin⟩ := hunits s.toList
  simp [readString, hus, hjoin]

end Json.Raw

/-! ### Documents -/

namespace Value

mutual

/-- A value that holds no floating point number. -/
def Whole : Value → Prop
  | .number (.float _) => False
  | .list vs => WholeItems vs
  | .record ms => WholeMembers ms
  | _ => True

def WholeItems : List Value → Prop
  | [] => True
  | v :: vs => v.Whole ∧ WholeItems vs

def WholeMembers : Members → Prop
  | [] => True
  | (_, v) :: ms => v.Whole ∧ WholeMembers ms

end

mutual

/-- The raw document of a value without floating point numbers. -/
def raw : Value → Raw
  | .null | .number (.float _) => .null
  | .bool b => .bool b
  | .number (.int n) => .number (.ofInt n)
  | .text s => .string (some s)
  | .list vs => .array (rawItems vs)
  | .record ms => .object (rawMembers ms)

def rawItems : List Value → List Raw
  | [] => []
  | v :: vs => v.raw :: rawItems vs

def rawMembers : Members → List (Option String × Raw)
  | [] => []
  | (n, v) :: ms => (some n, v.raw) :: rawMembers ms

end

end Value

namespace Json.Raw

lemma skip_cons {c : Char} (hc : isSpace c = false) (cs : Chars) : skip (c :: cs) = c :: cs := by
  simp [skip, hc]

lemma exists_head_int (n : ℤ) : ∃ c cs, (Number.int n).chars = c :: cs ∧
    ∀ d : Char, d.isDigit = false → d ≠ '-' → c ≠ d := by
  by_cases hn : n < 0
  · exact ⟨_, _, by rw [Number.chars, if_pos hn], fun d _ hd => hd.symm⟩
  · obtain ⟨c, cs, hd⟩ := exists_cons_of_length_pos
      (length_toDigits_pos (b := 10) (n := n.natAbs))
    refine ⟨c, cs, by rw [Number.chars, if_neg hn, hd], ?_⟩
    have hdigit : c.isDigit = true :=
      isDigit_of_mem_toDigits (by decide) (by decide) (hd ▸ mem_cons_self)
    rintro d hd' - rfl
    simp [hdigit] at hd'

variable {v : Value} {ms : Members}

/-- No value begins with white space, nor with what ends a list. -/
lemma exists_head_chars (hv : v.Whole) :
    ∃ c cs, v.chars = c :: cs ∧ isSpace c = false ∧ c ≠ ']' := by
  rcases v with _ | b | n | s | vs | ms
  · exact ⟨_, _, rfl, by decide, by decide⟩
  · cases b <;> exact ⟨_, _, rfl, by decide, by decide⟩
  · rcases n with n | x
    · obtain ⟨c, cs, hcs, hne⟩ := exists_head_int n
      refine ⟨c, cs, hcs, ?_, hne ']' (by decide) (by decide)⟩
      simp [isSpace, hne ' ' (by decide) (by decide), hne '\t' (by decide) (by decide),
        hne '\n' (by decide) (by decide), hne '\r' (by decide) (by decide)]
    · exact hv.elim
  · exact ⟨_, _, rfl, by decide, by decide⟩
  · rcases vs with _ | ⟨v, vs⟩ <;> exact ⟨_, _, rfl, by decide, by decide⟩
  · rcases ms with _ | ⟨⟨n, v⟩, ms⟩ <;> exact ⟨_, _, rfl, by decide, by decide⟩

/-- The text of a value is read as its raw document. -/
def Reads (v : Value) : Prop :=
  ∀ (rest : Chars) (fuel : ℕ), Ends rest → 2 * v.chars.length ≤ fuel →
    readValue fuel (v.chars ++ rest) = some (v.raw, rest)

/-- The text of a list is read from its first item on. -/
def ReadsItems (v : Value) (vs : List Value) : Prop :=
  ∀ (rest : Chars) (fuel : ℕ), 2 * (v.chars ++ Value.itemChars vs).length + 1 ≤ fuel →
    readItems fuel (v.chars ++ (Value.itemChars vs ++ ']' :: rest)) =
      some (v.raw :: Value.rawItems vs, rest)

/-- The text of an object is read from its first member on. -/
def ReadsMembers (n : String) (v : Value) (ms : Members) : Prop :=
  ∀ (rest : Chars) (fuel : ℕ),
    2 * (Value.quoted n ++ v.chars ++ Value.memberChars ms).length + 1 ≤ fuel →
    readMembers fuel
      (Value.quoted n ++ ':' :: (v.chars ++ (Value.memberChars ms ++ '\x7d' :: rest))) =
      some ((some n, v.raw) :: Value.rawMembers ms, rest)

lemma ends_cons {c : Char} (hc : c = ',' ∨ c = ']' ∨ c = '\x7d') (rest : Chars) :
    Ends (c :: rest) := by
  rcases hc with rfl | rfl | rfl <;> exact ⟨by decide, by decide, by decide, by decide⟩

attribute [local simp] readValue readItems readMembers

lemma reads_int (n : ℤ) : Reads (.number (.int n)) := by
  intro rest fuel hr hf
  have hread := readNumber_int n hr
  obtain ⟨c, cs, hcs, hne⟩ := exists_head_int n
  obtain ⟨c', cs', hcs', hspace, -⟩ := exists_head_chars (v := .number (.int n)) trivial
  change (Number.int n).chars = c' :: cs' at hcs'
  change 2 * (Number.int n).chars.length ≤ fuel at hf
  change readValue fuel ((Number.int n).chars ++ rest) = some (.number (.ofInt n), rest)
  rw [hcs] at hcs' hread hf ⊢
  obtain ⟨rfl, rfl⟩ := cons.inj hcs'
  obtain ⟨fuel, rfl⟩ := Nat.exists_eq_add_of_le' (by simp at hf; omega : 1 ≤ fuel)
  simpa [skip, hspace, hne 'n' (by decide) (by decide), hne 't' (by decide) (by decide),
    hne 'f' (by decide) (by decide), hne '"' (by decide) (by decide),
    hne '[' (by decide) (by decide), hne '\x7b' (by decide) (by decide)] using hread

lemma reads_text (s : String) : Reads (.text s) := by
  intro rest fuel _ hf
  change 2 * (quoted s).length ≤ fuel at hf
  change readValue fuel (quoted s ++ rest) = some (.string (some s), rest)
  obtain ⟨fuel, rfl⟩ := Nat.exists_eq_add_of_le' (by simp [quoted] at hf; omega : 1 ≤ fuel)
  have hread := readString_quoted s rest
  simp [quoted, skip, isSpace, hread]

lemma reads_list {vs : List Value} (hv : v.Whole) (h : ReadsItems v vs) :
    Reads (.list (v :: vs)) := by
  intro rest fuel _ hf
  change 2 * ('[' :: v.chars ++ itemChars vs ++ [']']).length ≤ fuel at hf
  obtain ⟨c, cs, hcs, hspace, hne⟩ := exists_head_chars hv
  obtain ⟨fuel, rfl⟩ := Nat.exists_eq_add_of_le' (by simp at hf; omega : 1 ≤ fuel)
  have hread := h rest fuel (by simp at hf ⊢; omega)
  have htext : (list (v :: vs)).chars ++ rest =
      '[' :: c :: (cs ++ (itemChars vs ++ ']' :: rest)) := by
    simp [chars, hcs]
  have hopen : isSpace '[' = false := by decide
  rw [hcs, cons_append] at hread
  rw [htext]
  simp [skip_cons hopen, skip_cons hspace, hne, hread, raw, rawItems]

lemma readsItems_nil (hv : Reads v) : ReadsItems v [] := by
  intro rest fuel hf
  obtain ⟨fuel, rfl⟩ := Nat.exists_eq_add_of_le' (by omega : 1 ≤ fuel)
  have hread := hv (']' :: rest) fuel (ends_cons (by simp) rest) (by simp [itemChars] at hf; omega)
  simp [itemChars, hread, skip_cons, isSpace, rawItems]

lemma readsItems_cons {w : Value} {ws : List Value} (hv : Reads v) (h : ReadsItems w ws) :
    ReadsItems v (w :: ws) := by
  intro rest fuel hf
  obtain ⟨fuel, rfl⟩ := Nat.exists_eq_add_of_le' (by omega : 1 ≤ fuel)
  simp only [itemChars, length_append, length_cons] at hf
  have hread := hv (',' :: (w.chars ++ (itemChars ws ++ ']' :: rest))) fuel
    (ends_cons (by simp) _) (by omega)
  have hnext := h rest fuel (by simp; omega)
  simp [itemChars, hread, hnext, skip_cons, isSpace, rawItems]

lemma reads_record {n : String} (h : ReadsMembers n v ms) : Reads (.record ((n, v) :: ms)) := by
  intro rest fuel _ hf
  simp only [chars, length_append, length_cons, cons_append] at hf
  obtain ⟨fuel, rfl⟩ := Nat.exists_eq_add_of_le' (by omega : 1 ≤ fuel)
  have hread := h rest fuel (by simp at hf ⊢; omega)
  simp only [quoted, cons_append] at hread
  simp [chars, quoted, skip_cons, isSpace, raw, rawMembers] at hread ⊢
  simp [hread]

lemma readsMembers_nil (n : String) (hv : Reads v) : ReadsMembers n v [] := by
  intro rest fuel hf
  simp only [memberChars, append_nil, length_append] at hf
  obtain ⟨fuel, rfl⟩ := Nat.exists_eq_add_of_le' (by omega : 1 ≤ fuel)
  have hname := readString_quoted n (':' :: (v.chars ++ '\x7d' :: rest))
  have hread := hv ('\x7d' :: rest) fuel (ends_cons (by simp) rest) (by omega)
  simp [quoted, memberChars, hname, hread, skip_cons, isSpace, rawMembers]

lemma readsMembers_cons (n : String) (hv : Reads v) {k : String} {w : Value}
    (h : ReadsMembers k w ms) : ReadsMembers n v ((k, w) :: ms) := by
  intro rest fuel hf
  simp only [memberChars, length_append, length_cons] at hf
  obtain ⟨fuel, rfl⟩ := Nat.exists_eq_add_of_le' (by omega : 1 ≤ fuel)
  set tail := quoted k ++ ':' :: (w.chars ++ (memberChars ms ++ '\x7d' :: rest))
  have hname := readString_quoted n (':' :: (v.chars ++ ',' :: tail))
  have hread := hv (',' :: tail) fuel (ends_cons (by simp) _) (by omega)
  have hnext : readMembers fuel tail = some ((some k, w.raw) :: rawMembers ms, rest) :=
    h rest fuel (by simp; omega)
  have htext : quoted n ++ ':' :: (v.chars ++
      (memberChars ((k, w) :: ms) ++ '\x7d' :: rest)) =
      '"' :: (n.toList.flatMap escapeChar ++ '"' :: ':' :: (v.chars ++ ',' :: tail)) := by
    simp [quoted, memberChars, tail]
  rw [htext]
  simp [hname, hread, hnext, skip_cons, isSpace, rawMembers]

mutual

/-- Whatever value is written, what is read is its raw document. -/
theorem reads : ∀ v : Value, v.Whole → Reads v
  | .null, _ | .list [], _ | .record [], _ => fun rest fuel _ hf => by
    obtain ⟨fuel, rfl⟩ := Nat.exists_eq_add_of_le' (Nat.le_trans (by decide) hf : 1 ≤ fuel)
    rfl
  | .bool b, _ => fun rest fuel _ hf => by
    obtain ⟨fuel, rfl⟩ :=
      Nat.exists_eq_add_of_le' (Nat.le_trans (by cases b <;> decide) hf : 1 ≤ fuel)
    cases b <;> rfl
  | .number (.int n), _ => reads_int n
  | .text s, _ => reads_text s
  | .list (v :: vs), hv => reads_list hv.1 (readsItems vs hv.2 v (reads v hv.1))
  | .record ((n, v) :: ms), hv => reads_record (readsMembers ms hv.2 n v (reads v hv.1))

theorem readsItems : ∀ vs : List Value, WholeItems vs → ∀ v, Reads v → ReadsItems v vs
  | [], _, _, hv => readsItems_nil hv
  | w :: ws, hws, _, hv => readsItems_cons hv (readsItems ws hws.2 w (reads w hws.1))

theorem readsMembers : ∀ ms : Members, WholeMembers ms → ∀ n v, Reads v →
    ReadsMembers n v ms
  | [], _, n, _, hv => readsMembers_nil n hv
  | (k, w) :: ms, hms, n, _, hv =>
    readsMembers_cons n hv (readsMembers ms hms.2 k w (reads w hms.1))

end

lemma parse?_json (hv : v.Whole) : Raw.parse? v.json = some v.raw := by
  have hread := reads v hv [] (2 * v.chars.length + 2) trivial (by omega)
  rw [append_nil] at hread
  have hparse : parseChars? v.chars = some v.raw := by
    rw [parseChars?, hread]
    rfl
  rw [Raw.parse?, json, String.toList_ofList, hparse]

end Json.Raw

end JobShell
