import JobShell.Proofs.JobTable
import JobShell.Proofs.Json

/-!
What a job is called.

A user names a job by its number, by its age, or by a piece of its command, and the forms overlap: a
piece of a command may look like a number, and a number may have a sign that means something else
when it stands alone. Main statement: each text is read in one way, and names a job of the table or
none.
-/

namespace JobShell

open List Text Nat

namespace Text

variable {cs : Chars} {s : String} {n : ℕ}

/-- A text that stands for a count: digits, perhaps after `+`, with a value of at most 64 bits. -/
def Counts (s : String) (n : ℕ) : Prop :=
  ∃ digits : Chars, digits ≠ [] ∧ (∀ c ∈ digits, c.isDigit = true) ∧
    Nat.ofDigitChars 10 digits 0 = n ∧ n < 2 ^ 64 ∧
    (s.toList = digits ∨ s.toList = '+' :: digits)

lemma isDigit_of_digitOf? {c : Char} {d : ℕ} (h : digitOf? c = some d) : c.isDigit = true := by
  unfold digitOf? at h
  split at h
  · rename_i hc
    simpa [Char.isDigit, Char.le_def] using hc
  · cases h

lemma mapM_digitOf? (hcs : ∀ c ∈ cs, c.isDigit = true) :
    cs.mapM digitOf? = some (cs.map Json.digitValue) := by
  induction cs with
  | nil => rfl
  | cons c cs ih =>
    have hc := Json.digitOf?_eq_some (hcs c mem_cons_self)
    simp [mapM_cons, hc, ih fun c hm => hcs c (mem_cons_of_mem _ hm)]

lemma all_isDigit_of_mapM {ds : List ℕ} (h : cs.mapM digitOf? = some ds) :
    ∀ c ∈ cs, c.isDigit = true := by
  induction cs generalizing ds with
  | nil => nofun
  | cons c cs ih =>
    rw [mapM_cons] at h
    obtain ⟨d, hd, h⟩ := Option.bind_eq_some_iff.mp h
    obtain ⟨ds', hds, -⟩ := Option.bind_eq_some_iff.mp h
    intro x hx
    rcases mem_cons.mp hx with rfl | hx
    · exact isDigit_of_digitOf? hd
    · exact ih hds x hx

lemma ofDigits_digitValue (cs : Chars) (acc : ℕ) :
    ofDigits acc (cs.map Json.digitValue) = ofDigitChars 10 cs acc := by
  induction cs generalizing acc with
  | nil => rfl
  | cons c cs ih =>
    rw [ofDigitChars_cons, ← ih, mul_comm 10 acc]
    rfl

lemma digits?_eq_some_iff : digits? cs = some n ↔
    cs ≠ [] ∧ (∀ c ∈ cs, c.isDigit = true) ∧ ofDigitChars 10 cs 0 = n := by
  rcases cs with _ | ⟨c, cs⟩
  · simp [digits?]
  constructor
  · intro h
    obtain ⟨ds, hds, hn⟩ := Option.map_eq_some_iff.mp h
    have hall := all_isDigit_of_mapM hds
    rw [mapM_digitOf? hall] at hds
    cases hds
    exact ⟨cons_ne_nil _ _, hall, by rw [← hn, ofDigits_digitValue]⟩
  · rintro ⟨-, hall, hn⟩
    exact Option.map_eq_some_iff.mpr ⟨_, mapM_digitOf? hall, by rw [ofDigits_digitValue, hn]⟩

lemma count?_eq_some_iff : count? s = some n ↔ Counts s n := by
  have hread : ∀ cs, (digits? cs).filter (· < 2 ^ 64) = some n ↔
      cs ≠ [] ∧ (∀ c ∈ cs, c.isDigit = true) ∧ ofDigitChars 10 cs 0 = n ∧ n < 2 ^ 64 := by
    intro cs
    rw [Option.filter_eq_some_iff, digits?_eq_some_iff, decide_eq_true_eq, and_assoc, and_assoc]
  have hplus : ∀ {ds : Chars}, (∀ c ∈ '+' :: ds, c.isDigit = true) → False :=
    fun h => absurd (h '+' mem_cons_self) (by decide)
  unfold count? Counts
  split
  · rename_i rest hs
    rw [hread]
    constructor
    · rintro ⟨hne, hall, hn, hlt⟩
      exact ⟨rest, hne, hall, hn, hlt, .inr hs⟩
    · rintro ⟨ds, hne, hall, hn, hlt, hds | hds⟩
      · obtain rfl : ds = '+' :: rest := hds.symm.trans hs
        exact (hplus hall).elim
      · obtain rfl : rest = ds := (List.cons.inj (hs.symm.trans hds)).2
        exact ⟨hne, hall, hn, hlt⟩
  · rename_i hs
    rw [hread]
    constructor
    · rintro ⟨hne, hall, hn, hlt⟩
      exact ⟨s.toList, hne, hall, hn, hlt, .inl rfl⟩
    · rintro ⟨ds, hne, hall, hn, hlt, hds | hds⟩
      · exact hds ▸ ⟨hne, hall, hn, hlt⟩
      · exact (hs ds hds).elim

lemma count?_eq_none_iff : count? s = none ↔ ∀ n, ¬ Counts s n := by
  simp only [← count?_eq_some_iff, Option.eq_none_iff_forall_ne_some, ne_eq]

lemma counts_toString (h : n < 2 ^ 64) : Counts (toString n) n := by
  have hlist : (toString n).toList = toDigits 10 n := toList_repr
  refine ⟨toDigits 10 n, ne_nil_of_length_pos length_toDigits_pos,
    fun c hc => isDigit_of_mem_toDigits (by decide) (by decide) hc,
    ofDigitChars_toDigits (by decide) (by decide), h, .inl hlist⟩

/-- No sign stands for a number by itself, nor does nothing at all. -/
lemma not_counts_of_mem (h : s ∈ ["", "%", "+", "-"]) : ¬ Counts s n := by
  rw [← count?_eq_some_iff]
  revert h
  simp only [mem_cons, not_mem_nil, or_false]
  rintro (rfl | rfl | rfl | rfl) <;> exact nofun

lemma Counts.head_cases {c : Char} (h : Counts s n) (hs : s.toList.head? = some c) :
    c = '+' ∨ c.isDigit = true := by
  obtain ⟨ds, hne, hall, -, -, hds | hds⟩ := h
  · exact .inr (hall c (mem_of_mem_head? (hds ▸ hs)))
  · rw [hds] at hs
    exact .inl (Option.some.inj hs).symm

end Text

namespace JobTable

variable {t : JobTable} {id n : ℕ} {text s : String} {p : Chars → Bool}

lemma occursIn_iff {needle cs : Chars} : occursIn needle cs = true ↔ needle <:+: cs := by
  induction cs with
  | nil => simp [occursIn]
  | cons c cs ih =>
    rw [occursIn, Bool.or_eq_true, ih, isPrefixOf_iff_prefix, infix_cons_iff]

/-- A number is that of the only job of the table whose command has a property. -/
def Only (t : JobTable) (P : Chars → Prop) (id : ℕ) : Prop :=
  ∀ n, (∃ job, t.get? n = some job ∧ P job.command.toList) ↔ n = id

lemma Orderly.nodup_entries (h : t.Orderly) : (t.entries.map Prod.fst).Nodup := by
  have hkeys : t.index.map Prod.fst = t.entries.map Prod.fst := by
    rw [index, map_map]
    rfl
  exact hkeys ▸ h.nodup_index

lemma Orderly.command_iff (h : t.Orderly) {P : Chars → Prop} :
    (∃ job, t.get? n = some job ∧ P job.command.toList) ↔
      ∃ x, (n, x) ∈ t.entries ∧ P x.command.toList := by
  have hentry : ∀ x, t.entry? n = some x ↔ (n, x) ∈ t.entries :=
    fun x => lookup_eq_some_iff_mem h.nodup_entries
  constructor
  · rintro ⟨job, hjob, hp⟩
    obtain ⟨x, hx, rfl⟩ := Option.map_eq_some_iff.mp hjob
    exact ⟨x, (hentry x).mp hx, hp⟩
  · rintro ⟨x, hx, hp⟩
    exact ⟨t.infoOf n x, Option.map_eq_some_iff.mpr ⟨x, (hentry x).mpr hx, rfl⟩, hp⟩

/-- The search for a command finds a job only if there is no other. -/
lemma Orderly.unique?_eq_some_iff (h : t.Orderly) :
    t.unique? p = some id ↔ t.Only (fun cs => p cs = true) id := by
  have honly : t.Only (fun cs => p cs = true) id ↔
      ∀ n, (∃ x, (n, x) ∈ t.entries.filter fun q => p q.2.command.toList) ↔ n = id := by
    refine forall_congr' fun n => ?_
    rw [h.command_iff (P := fun cs => p cs = true)]
    simp only [mem_filter]
  have hnd : ((t.entries.filter fun q => p q.2.command.toList).map Prod.fst).Nodup :=
    h.nodup_entries.sublist (filter_sublist.map _)
  rw [honly]
  unfold unique?
  generalize (t.entries.filter fun q => p q.2.command.toList) = found at hnd ⊢
  rcases found with _ | ⟨⟨m, x⟩, _ | ⟨⟨k, y⟩, rest⟩⟩
  · simp
  · simp [eq_comm]
  · simp only [reduceCtorEq, false_iff]
    intro hall
    have hm : m = id := (hall m).mp ⟨x, mem_cons_self⟩
    have hk : k = id := (hall k).mp ⟨y, mem_cons_of_mem _ mem_cons_self⟩
    have hne := (nodup_cons.mp hnd).1
    rw [hm, ← hk] at hne
    exact hne mem_cons_self

lemma Orderly.unique?_eq_none (h : t.Orderly)
    (hnone : ∀ id, ¬ t.Only (fun cs => p cs = true) id) : t.unique? p = none := by
  rw [Option.eq_none_iff_forall_ne_some]
  exact fun id hid => hnone id (h.unique?_eq_some_iff.mp hid)

/-- A search for the only job with a property says which one it is, or refuses the whole text. -/
def Finds (t : JobTable) (text : String) (P : Chars → Prop) : Prop :=
  (∀ id, t.resolve text = .ok id ↔ t.Only P id) ∧
    ((∀ id, ¬ t.Only P id) → t.resolve text = .error (.invalidJobSpec text))

/-! ### The forms of a text -/

/-- What was asked for, or else the whole text is refused. -/
def orInvalid (text : String) (found : Option ℕ) : Except Fault ℕ :=
  found.elim (.error (.invalidJobSpec text)) .ok

lemma orInvalid_eq (text : String) (found : Option ℕ) :
    (match found with
      | some id => Except.ok id
      | none => .error (.invalidJobSpec text)) = orInvalid text found := by
  cases found <;> rfl

lemma existing_eq (t : JobTable) (n : ℕ) : t.existing n =
    if t.contains n = true then .ok n else .error (.unknownJob n) := rfl

lemma toList_percent (s : String) : ("%" ++ s).toList = '%' :: s.toList := by
  rw [String.toList_append]
  rfl

lemma resolve_plain (h : text.toList.head? ≠ some '%') : t.resolve text =
    (count? text).elim (.error (.invalidJobSpec text)) t.existing := by
  unfold resolve
  split
  · rename_i hs
    exact absurd (by rw [hs]; rfl) h
  · cases count? text <;> rfl

lemma resolve_current (h : s ∈ ["", "%", "+"]) :
    t.resolve ("%" ++ s) = orInvalid ("%" ++ s) t.current? := by
  have hs : s = "" ∨ s = "%" ∨ s = "+" := by simpa using h
  unfold resolve
  rw [toList_percent]
  rcases hs with rfl | rfl | rfl <;> exact orInvalid_eq _ _

lemma resolve_previous : t.resolve "%-" = orInvalid "%-" t.previous? := orInvalid_eq _ _

lemma resolve_containing (s : String) : t.resolve ("%?" ++ s) = orInvalid ("%?" ++ s)
    (if s = "" then none else t.unique? (occursIn s.toList)) := by
  have hs : ("%?" ++ s).toList = '%' :: '?' :: s.toList := by
    rw [String.toList_append]
    rfl
  have hempty : s.toList.isEmpty = true ↔ s = "" := by simp
  unfold resolve
  rw [hs]
  simp only [hempty]
  exact orInvalid_eq _ _

lemma resolve_other (h : s ∉ ["", "%", "+", "-"]) (hq : s.toList.head? ≠ some '?') :
    t.resolve ("%" ++ s) = (count? s).elim
      (orInvalid ("%" ++ s) (t.unique? s.toList.isPrefixOf)) t.existing := by
  have hne : ∀ r : String, r ∈ ["", "%", "+", "-"] → s.toList ≠ r.toList := by
    intro r hr he
    exact h (String.toList_injective he ▸ hr)
  unfold resolve
  rw [toList_percent]
  split
  · rename_i rest hrest
    obtain rfl : s.toList = rest := (List.cons.inj hrest).2
    split
    · rename_i hs
      exact absurd hs (hne "" (by simp))
    · rename_i hs
      exact absurd hs (hne "%" (by simp))
    · rename_i hs
      exact absurd hs (hne "+" (by simp))
    · rename_i hs
      exact absurd hs (hne "-" (by simp))
    · rename_i hs
      exact absurd (by rw [hs]; rfl) hq
    · rw [String.ofList_toList]
      cases count? s with
      | some id => rfl
      | none => exact orInvalid_eq _ _
  · rename_i hrest
    exact absurd rfl (hrest s.toList)

lemma text_cases (text : String) : text.toList.head? ≠ some '%' ∨
    ∃ s, text = "%" ++ s ∧ (s ∈ ["", "%", "+"] ∨ s = "-" ∨ (∃ r, s = "?" ++ r) ∨
      s ∉ ["", "%", "+", "-"] ∧ s.toList.head? ≠ some '?') := by
  by_cases hp : text.toList.head? = some '%'
  · obtain ⟨cs, hcs⟩ := head?_eq_some_iff.mp hp
    refine .inr ⟨String.ofList cs, String.toList_injective (by simp [hcs]), ?_⟩
    by_cases hq : cs.head? = some '?'
    · obtain ⟨ds, rfl⟩ := head?_eq_some_iff.mp hq
      refine .inr (.inr (.inl ⟨String.ofList ds, String.toList_injective ?_⟩))
      simp [String.toList_append]
    · by_cases hs : String.ofList cs ∈ ["", "%", "+", "-"]
      · have hs' : String.ofList cs ∈ ["", "%", "+"] ∨ String.ofList cs = "-" := by
          simpa [or_assoc] using hs
        tauto
      · exact .inr (.inr (.inr ⟨hs, by simpa using hq⟩))
  · exact .inl hp

lemma orInvalid_eq_ok {found : Option ℕ} (h : orInvalid text found = .ok id) : found = some id := by
  cases found with
  | none => cases h
  | some m =>
    cases h
    rfl

lemma contains_of_existing (h : t.existing n = .ok id) : t.contains id = true := by
  rw [existing_eq] at h
  split at h
  · rename_i hc
    cases h
    exact hc
  · cases h

lemma Orderly.contains_of_unique? (h : t.Orderly)
    (hu : t.unique? p = some id) : t.contains id = true := by
  have hid := (h.unique?_eq_some_iff.mp hu id).mpr rfl
  obtain ⟨x, hx, -⟩ := (h.command_iff (P := fun cs => p cs = true)).mp hid
  exact contains_iff.mpr ⟨x, hx⟩

lemma Orderly.contains_of_resolve (h : t.Orderly) (hr : t.resolve text = .ok id) :
    t.contains id = true := by
  have hage : ∀ {k}, t.byAge[k]? = some id → t.contains id = true :=
    fun hk => mem_byAge.mp (mem_of_getElem? hk)
  rcases text_cases text with hp | ⟨s, rfl, hs | rfl | ⟨r, rfl⟩ | ⟨hs, hq⟩⟩
  · rw [resolve_plain hp] at hr
    cases hc : count? text with
    | none => simp [hc] at hr
    | some n => exact contains_of_existing (by simpa [hc] using hr)
  · rw [resolve_current hs] at hr
    exact hage (orInvalid_eq_ok hr)
  · exact hage (orInvalid_eq_ok (resolve_previous.symm.trans hr))
  · have htext : "%" ++ ("?" ++ r) = "%?" ++ r := by rw [← String.append_assoc]; rfl
    rw [htext, resolve_containing] at hr
    have hfound := orInvalid_eq_ok hr
    split at hfound
    · cases hfound
    · exact h.contains_of_unique? hfound
  · rw [resolve_other hs hq] at hr
    cases hc : count? s with
    | none => exact h.contains_of_unique? (orInvalid_eq_ok (by simpa [hc] using hr))
    | some n => exact contains_of_existing (by simpa [hc] using hr)

lemma resolve_number (hc : Counts s n) (ht : text = s ∨ text = "%" ++ s) :
    t.resolve text = if t.contains n = true then .ok n else .error (.unknownJob n) := by
  have hcount := count?_eq_some_iff.mpr hc
  have hhead : ∀ c, s.toList.head? = some c → c = '+' ∨ c.isDigit = true := fun c => hc.head_cases
  rcases ht with rfl | rfl
  · have hp : text.toList.head? ≠ some '%' := fun h => absurd (hhead _ h) (by decide)
    rw [resolve_plain hp, hcount]
    exact existing_eq t n
  · have hq : s.toList.head? ≠ some '?' := fun h => absurd (hhead _ h) (by decide)
    rw [resolve_other (fun hs => not_counts_of_mem hs hc) hq, hcount]
    exact existing_eq t n

/-- What is searched for is found if it is there once, and else the whole text is refused. -/
lemma Orderly.finds (h : t.Orderly) {P : Chars → Prop}
    (hp : ∀ cs, p cs = true ↔ P cs) (hr : t.resolve text = orInvalid text (t.unique? p)) :
    t.Finds text P := by
  have hP : (fun cs => p cs = true) = P := funext fun cs => propext (hp cs)
  subst hP
  refine ⟨fun id => ?_, fun hnone => ?_⟩
  · rw [← h.unique?_eq_some_iff, hr]
    exact ⟨orInvalid_eq_ok, fun hu => by rw [hu]; rfl⟩
  · rw [hr, h.unique?_eq_none hnone]
    rfl

/-- After any edits of an empty table, and for any text: it names a job only if that job is there; a
number, with or without `%`, names the job that has it, and if there is none it is refused as that
number; `%`, `%%` and `%+` name the job that was added last and `%-` the one before it; `%?s` names
the only job whose command contains `s`, and any other `%s` the only one whose command begins with
`s`. All other texts are refused as a whole, and so are those that name no job or more than one. -/
theorem resolves_exactly (edits : List Edit) (text : String) :
    let t := after edits
    let live := live edits
    (∀ id, t.resolve text = .ok id → id ∈ live) ∧
    (∀ n ∈ live, n < 2 ^ 64 → text = toString n ∨ text = "%" ++ toString n →
      t.resolve text = .ok n) ∧
    (∀ s n, Text.Counts s n → text = s ∨ text = "%" ++ s →
      t.resolve text = if n ∈ live then .ok n else .error (.unknownJob n)) ∧
    (text ∈ ["%", "%%", "%+"] →
      t.resolve text = live.head?.elim (.error (.invalidJobSpec text)) .ok) ∧
    (text = "%-" → t.resolve text = live[1]?.elim (.error (.invalidJobSpec text)) .ok) ∧
    (∀ s ≠ "", text = "%?" ++ s → t.Finds text (s.toList <:+: ·)) ∧
    (∀ s ∉ ["", "%", "+", "-"], s.toList.head? ≠ some '?' → (∀ n, ¬ Text.Counts s n) →
      text = "%" ++ s → t.Finds text (s.toList <+: ·)) ∧
    (text = "%?" ∨ (text.toList.head? ≠ some '%' ∧ ∀ n, ¬ Text.Counts text n) →
      t.resolve text = .error (.invalidJobSpec text)) := by
  obtain ⟨h, -⟩ := orderly_after edits
  have hnumber : ∀ s n, Counts s n → text = s ∨ text = "%" ++ s →
      (after edits).resolve text = if n ∈ live edits then .ok n else .error (.unknownJob n) := by
    intro s n hc ht
    rw [resolve_number hc ht]
    simp only [contains_after]
  refine ⟨fun id hid => contains_after.mp (h.contains_of_resolve hid), fun n hn hlt ht => ?_,
    hnumber, fun ht => ?_, ?_, fun s hs ht => ?_, fun s hs hq hc ht => ?_, ?_⟩
  · rw [hnumber _ n (counts_toString hlt) ht, if_pos hn]
  · have hs : ∃ s ∈ ["", "%", "+"], text = "%" ++ s := by
      have ht' : text = "%" ∨ text = "%%" ∨ text = "%+" := by simpa using ht
      rcases ht' with rfl | rfl | rfl
      · exact ⟨"", by simp, rfl⟩
      · exact ⟨"%", by simp, rfl⟩
      · exact ⟨"+", by simp, rfl⟩
    obtain ⟨s, hs, rfl⟩ := hs
    rw [resolve_current hs, current?_after]
    rfl
  · rintro rfl
    rw [resolve_previous, previous?_after]
    rfl
  · subst ht
    refine h.finds (fun cs => occursIn_iff) ?_
    rw [resolve_containing, if_neg hs]
  · subst ht
    refine h.finds (fun cs => isPrefixOf_iff_prefix) ?_
    rw [resolve_other hs hq, count?_eq_none_iff.mpr hc]
    rfl
  · rintro (rfl | ⟨hp, hc⟩)
    · exact resolve_containing ""
    · rw [resolve_plain hp, count?_eq_none_iff.mpr hc]
      rfl

/-- A piece of a command may look like a number with a sign. -/
example : let t := after [.add 10 "sleep 5" false, .add 11 "+5 it" false]
    t.resolve "%+2" = .ok 2 ∧ t.resolve "%+5" = .error (.unknownJob 5) ∧ t.resolve "%?5" =
      .error (.invalidJobSpec "%?5") ∧ t.resolve "%+5 " = .ok 2 := by
  cbv

end JobTable

end JobShell
