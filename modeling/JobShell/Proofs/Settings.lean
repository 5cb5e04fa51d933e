import JobShell.Config
import JobShell.Proofs.Text
import Mathlib.Data.List.Induction

/-!
Where a setting comes from.

Each setting has a key, and a text that can be read as a value for it. Main statement: a setting is
what an override for its key says, or else the last line of the file that says something valid for
its key, or else its default, whatever is said for other keys.
-/

namespace JobShell.Config

open Text List Option

/-! ### Lines -/

def IsQuote (c : Char) : Prop := c = '"' ∨ c = '\''

/-- How a value is written: between two equal quotes, or as it is. -/
def Written (value w : Chars) : Prop :=
  (∃ q, IsQuote q ∧ w = q :: (value ++ [q])) ∨ w = value ∧ ∀ q u, IsQuote q → w ≠ q :: (u ++ [q])

/-- A line gives a key a value. What is left of it without white space is no comment, and after
`export`, if that comes first, it has the key before its first `=` and the value after that. -/
def Assigns (line : Chars) (key value : String) : Prop :=
  (trimList line).head? ≠ some '#' ∧ ∃ k v, '=' ∉ k ∧
    (trimList line = exportWord ++ (k ++ '=' :: v) ∨
      ¬ exportWord <+: trimList line ∧ trimList line = k ++ '=' :: v) ∧
    trimList k = key.toList ∧ Written value.toList (trimList v)

lemma Written.unique {u v w : Chars} (hu : Written u w) (hv : Written v w) : u = v := by
  rcases hu with ⟨q, hq, rfl⟩ | ⟨rfl, hu⟩ <;> rcases hv with ⟨p, hp, h⟩ | ⟨rfl, hv⟩
  · simp_all
  · exact absurd rfl (hv q u hq)
  · exact absurd h (hu p v hp)
  · rfl

lemma written_unquote (s : String) : Written (unquote s).toList (trimList s.toList) := by
  unfold unquote
  rcases trimList s.toList with _ | ⟨q, rest⟩
  · exact Or.inr ⟨rfl, nofun⟩
  simp only [getLast?_cons]
  split_ifs with hq
  · obtain ⟨hlen, hlast, hq⟩ := hq
    rcases eq_nil_or_concat rest with rfl | ⟨u, x, rfl⟩
    · simp at hlen
    · obtain rfl : q = x := by simpa using hlast
      exact Or.inl ⟨q, hq, by simp⟩
  · refine Or.inr ⟨by simp, fun p u hp h => hq ?_⟩
    obtain ⟨rfl, rfl⟩ := cons_eq_cons.mp h
    exact ⟨by simp, by simp, hp⟩

lemma assignment?_eq_some {line : Chars} {key value : String} :
    assignment? line = some (key, value) ↔ Assigns line key value := by
  unfold assignment? Assigns
  generalize trimList line = cs
  have hbare : ∀ {r : Chars}, (cs = exportWord ++ r ∨ ¬ exportWord <+: cs ∧ cs = r) ↔
      (if exportWord.isPrefixOf cs then cs.drop exportWord.length else cs) = r := by
    intro r
    simp only [ isPrefixOf_iff_prefix]
    split_ifs with hword
    · obtain ⟨t, rfl⟩ := hword
      simp
    · have hne : cs ≠ exportWord ++ r := fun h => hword ⟨r, h.symm⟩
      simp [hword, hne]
  simp only [hbare]
  constructor
  · intro h
    obtain ⟨hskip, h⟩ := ite_none_left_eq_some.mp h
    obtain ⟨⟨k, v⟩, hs, hkv⟩ := map_eq_some_iff.mp h
    obtain ⟨rfl, rfl⟩ := Prod.mk.inj hkv
    obtain ⟨hs, hk⟩ := splitFirst_eq_some.mp hs
    refine ⟨fun hc => hskip (Or.inr hc), k, v, hk, hs, by simp, ?_⟩
    simpa using written_unquote (String.ofList v)
  · rintro ⟨hhash, k, v, hk, hkv, hkey, hw⟩
    have hne : cs ≠ [] := by
      rintro rfl
      simp at hkv
    have hvalue : unquote (String.ofList v) = value := by
      have hu := written_unquote (String.ofList v)
      rw [String.toList_ofList] at hu
      exact String.toList_injective (hu.unique hw)
    rw [if_neg (by simp [hne, hhash]), splitFirst_eq_some.mpr ⟨hkv, hk⟩, map_some, hvalue, hkey,
      String.ofList_toList]

/-! ### Settings -/

def status? (value : String) : Option Int := int32? (trim value)

def separators? (value : String) : Option String := some (String.ofList (unescape value.toList))

def level? (value : String) : Option (Option String) :=
  if trim value = "" then none else some (some (trim value))

/-- All that a key and its value do to the fields. -/
lemma apply_eq (c : Config) (key value : String) : c.apply key value =
    { c with
      failedStatus :=
        if key = "JSH_FAILED_STATUS" then (status? value).getD c.failedStatus else c.failedStatus
      separators := if key = "JSH_IFS" then (separators? value).getD c.separators else c.separators
      inheritTerminal :=
        if key = "JSH_INHERIT_TERMINAL" then (flag? value).getD c.inheritTerminal
        else c.inheritTerminal
      logLevel := if key = "JSH_LOG" then (level? value).getD c.logLevel else c.logLevel } := by
  unfold apply
  split
  · rcases hs : int32? (trim value) with _ | n <;> simp [status?, hs]
  · simp [separators?]
  · rcases hf : flag? value with _ | b <;> simp
  · by_cases hl : trim value = "" <;> simp [level?, hl]
  · simp_all

/-- A setting: its key if it has one, how a value for it is read, and the field it stands in. -/
structure Setting (α : Type) where
  key : Option String
  read : String → Option α
  field : Config → α
  mem_keys : ∀ k ∈ key, k ∈ keys := by simp [keys]
  field_apply (c : Config) (k value : String) : field (c.apply k value) =
    if key = some k then (read value).getD (field c) else field c := by simp [apply_eq, eq_comm]

namespace Setting

def status : Setting Int where
  key := "JSH_FAILED_STATUS"
  read := status?
  field := failedStatus

def ifs : Setting String where
  key := "JSH_IFS"
  read := separators?
  field := separators

def inherits : Setting Bool where
  key := "JSH_INHERIT_TERMINAL"
  read := flag?
  field := inheritTerminal

def log : Setting (Option String) where
  key := "JSH_LOG"
  read := level?
  field := logLevel

/-- Job control is not set by any key. -/
def keyless : Setting Bool where
  key := none
  read _ := none
  field := jobControl

variable {α : Type} (s : Setting α) (c : Config) (lookup : String → Option String)

/-- What a line says that gives the key of the setting a valid value. -/
def said? (line : Chars) : Option α :=
  (assignment? line).bind fun (key, value) => if s.key = some key then s.read value else none

/-- What a valid override says. -/
def override? : Option α := (s.key.bind lookup).bind s.read

/-- What the setting comes to: a valid override, or else the last line that says something valid, or
else the default. -/
def decided (text : String) : α :=
  ((s.override? lookup).or ((pieces (· == '\n') text.toList).filterMap s.said?).getLast?).getD
    (s.field {})

lemma said?_eq_some {line : Chars} {v : α} : s.said? line = some v ↔
    ∃ key value, s.key = some key ∧ Assigns line key value ∧ s.read value = some v := by
  simp only [said?, bind_eq_some_iff, ite_none_right_eq_some, Prod.exists, assignment?_eq_some]
  exact exists₂_congr fun key value => and_left_comm

lemma field_applyLine (line : Chars) :
    s.field (c.applyLine line) = (s.said? line).getD (s.field c) := by
  unfold applyLine said?
  rcases assignment? line with _ | ⟨key, value⟩
  · rfl
  · simp only [s.field_apply, bind_some]
    split_ifs <;> rfl

lemma field_parse (text : String) : s.field (parse text) =
    ((pieces (· == '\n') text.toList).filterMap s.said?).getLast?.getD (s.field {}) := by
  unfold parse
  induction pieces (· == '\n') text.toList using reverseRecOn with
  | nil => rfl
  | append_singleton lines line ih =>
    rw [foldl_append, foldl_cons, foldl_nil, field_applyLine, ih, filterMap_append]
    cases hl : s.said? line <;> simp [hl]

lemma field_withOverrides :
    s.field (c.withOverrides lookup) = (s.override? lookup).getD (s.field c) := by
  have hone : ∀ (c : Config) key, s.field ((lookup key).elim c (c.apply key)) =
      if s.key = some key then ((lookup key).bind s.read).getD (s.field c) else s.field c := by
    intro c key
    rcases lookup key with _ | value
    · simp
    · exact s.field_apply c key value
  rcases hk : s.key with _ | key
  · simp [withOverrides, keys, hone, override?, hk]
  · have hmem := s.mem_keys key hk
    simp only [keys, mem_cons, not_mem_nil, or_false] at hmem
    rcases hmem with rfl | rfl | rfl | rfl <;> simp [withOverrides, keys, hone, override?, hk]

lemma field_eq_decided (text : String) :
    s.field ((parse text).withOverrides lookup) = s.decided lookup text := by
  rw [field_withOverrides, field_parse, decided]
  cases s.override? lookup <;> rfl

end Setting

open Setting

/-- The settings are all there is. -/
lemma eq_of_fields {c d : Config} (h : ∀ {α : Type} (s : Setting α), s.field c = s.field d) :
    c = d := by
  cases c
  cases d
  rw [Config.mk.injEq]
  exact ⟨h status, h ifs, h inherits, h keyless, h log⟩

/-- Each setting is what its own override, its own lines or its default say, in this order, and a
line says something if it gives the key a valid value. The overrides change nothing when they are
applied again, and neither does a line that says nothing for any setting, such as a comment. -/
theorem settings_precedence (text : String) (lookup : String → Option String) :
    let c := (parse text).withOverrides lookup
    c.failedStatus = status.decided lookup text ∧ c.separators = ifs.decided lookup text ∧
    c.inheritTerminal = inherits.decided lookup text ∧ c.logLevel = log.decided lookup text ∧
    c.jobControl = false ∧ c.withOverrides lookup = c ∧
    (∀ {α : Type} (s : Setting α) line v, s.said? line = some v ↔
      ∃ key value, s.key = some key ∧ Assigns line key value ∧ s.read value = some v) ∧
    ∀ line, (∀ {α : Type} (s : Setting α), s.said? line = none) → ∀ c : Config,
      c.applyLine line = c := by
  refine ⟨status.field_eq_decided lookup text, ifs.field_eq_decided lookup text,
    inherits.field_eq_decided lookup text, log.field_eq_decided lookup text, ?_,
    eq_of_fields fun s => ?_, fun s line v => s.said?_eq_some,
    fun line h c => eq_of_fields fun s => ?_⟩
  · have hnone : ∀ line, keyless.said? line = none := fun line =>
      eq_none_iff_forall_ne_some.mpr fun v hv => by simpa [keyless] using (said?_eq_some _).mp hv
    refine (keyless.field_eq_decided lookup text).trans ?_
    rw [decided, filterMap_eq_nil_iff.mpr fun line _ => hnone line]
    rfl
  · rw [field_withOverrides, field_withOverrides]
    cases s.override? lookup <;> rfl
  · rw [field_applyLine, h s, getD_none]

end JobShell.Config
