import JobShell.Proofs.Json
import JobShell.Tree.Codec

/-!
Command trees are read back as they were written.

The reader goes through a document as the writer does: field by field and alternative by
alternative, with as much depth left as the part it comes to has. Main statement: the text of a
script is read as that script, as long as the text nests as deep as a reader allows at most and the
descriptors have 32 bits.
-/

namespace JobShell

open Json List Option Value

namespace Value

mutual

/-- How deep lists and records nest. -/
def depth : Value → ℕ
  | .list vs => itemsDepth vs + 1
  | .record ms => membersDepth ms + 1
  | _ => 0

def itemsDepth : List Value → ℕ
  | [] => 0
  | v :: vs => max v.depth (itemsDepth vs)

def membersDepth : Members → ℕ
  | [] => 0
  | (_, v) :: ms => max v.depth (membersDepth ms)

end

mutual

/-- The whole numbers in a value. -/
def integers : Value → List ℤ
  | .number (.int n) => [n]
  | .list vs => itemsIntegers vs
  | .record ms => membersIntegers ms
  | _ => []

def itemsIntegers : List Value → List ℤ
  | [] => []
  | v :: vs => v.integers ++ itemsIntegers vs

def membersIntegers : Members → List ℤ
  | [] => []
  | (_, v) :: ms => v.integers ++ membersIntegers ms

end

lemma membersDepth_eq (ms : Members) :
    membersDepth ms = itemsDepth (ms.map Prod.snd) := by
  induction ms with
  | nil => rfl
  | cons p ms ih => rw [membersDepth, ih, map_cons, itemsDepth]

lemma membersIntegers_eq (ms : Members) :
    membersIntegers ms = itemsIntegers (ms.map Prod.snd) := by
  induction ms with
  | nil => rfl
  | cons p ms ih => rw [membersIntegers, ih, map_cons, itemsIntegers]

end Value

namespace Tree

/-! ### Fields -/

variable {ms : Members} {d : ℕ} {body : List Item} {branch : Option (List Item)}
  {name : Option Word}

lemma Fields.find_of_mem (hn : (ms.map Prod.fst).Nodup) {p : String × Value} (hp : p ∈ ms) :
    Fields.find (rawMembers ms) p.1 = some (some p.2.raw) := by
  have hnone : ∀ {ms : Members} {n : String}, n ∉ ms.map Prod.fst →
      (rawMembers ms).filter (·.1 == some n) = [] := by
    intro ms n hn
    induction ms with
    | nil => rfl
    | cons q ms ih =>
      rw [map_cons, mem_cons, not_or] at hn
      rw [rawMembers, filter_cons_of_neg (by simpa using Ne.symm hn.1), ih hn.2]
  have hone : (rawMembers ms).filter (·.1 == some p.1) = [(some p.1, p.2.raw)] := by
    induction ms with
    | nil => cases hp
    | cons q ms ih =>
      obtain ⟨hq, hn⟩ := nodup_cons.mp hn
      rw [rawMembers]
      rcases mem_cons.mp hp with rfl | hp
      · rw [filter_cons_of_pos (by simp), hnone hq]
      · have hne : q.1 ≠ p.1 := fun he => hq (he ▸ mem_map_of_mem hp)
        rw [filter_cons_of_neg (by simpa using hne), ih hn hp]
  rw [Fields.find, hone]

/-- The fields of a structure that is written in full are found in their places. -/
lemma Fields.ofRaw?_record {names : List String} (hm : ms.map Prod.fst = names) (hn : names.Nodup) :
    Fields.ofRaw? names (record ms).raw = some (ms.map (some ·.2.raw)) := by
  subst hm
  have hnamed : (rawMembers ms).all (·.1.isSome) = true := by
    clear hn
    induction ms with
    | nil => rfl
    | cons p ms ih => exact ih
  have hfound : ∀ ps ⊆ ms, (ps.map Prod.fst).mapM (Fields.find (rawMembers ms)) =
      some (ps.map (some ·.2.raw)) := by
    intro ps hps
    induction ps with
    | nil => rfl
    | cons p ps ih =>
      obtain ⟨hp, hps⟩ := cons_subset.mp hps
      simp [mapM_cons, Fields.find_of_mem hn hp, ih hps]
  rw [raw, Fields.ofRaw?, if_pos hnamed]
  exact hfound ms (List.Subset.refl ms)

lemma raw_alternative (tag : String) (v : Value) :
    (record [(tag, v)]).raw = .object [(some tag, v.raw)] := rfl

/-! ### What a reader has to allow for -/

/-- A document can be read at a depth: it nests no deeper, and its numbers have 32 bits. -/
structure Fits (v : Value) (d : ℕ) : Prop where
  depth : v.depth ≤ d
  int32 : ∀ n ∈ v.integers, -2 ^ 31 ≤ n ∧ n < 2 ^ 31

lemma Fits.list {vs : List Value} (h : Fits (.list vs) d) :
    ∃ d', d = d' + 1 ∧ ∀ v ∈ vs, Fits v d' := by
  have hdepth : ∀ {vs : List Value} {d : ℕ}, itemsDepth vs ≤ d → ∀ v ∈ vs, v.depth ≤ d := by
    intro vs d hd
    induction vs with
    | nil => simp
    | cons v vs ih =>
      rw [itemsDepth, max_le_iff] at hd
      exact forall_mem_cons.mpr ⟨hd.1, ih hd.2⟩
  have hints : ∀ {vs : List Value}, ∀ v ∈ vs, ∀ n ∈ v.integers, n ∈ itemsIntegers vs := by
    intro vs
    induction vs with
    | nil => simp
    | cons v vs ih =>
      refine forall_mem_cons.mpr ⟨fun n hn => mem_append_left _ hn, fun w hw n hn => ?_⟩
      exact mem_append_right _ (ih w hw n hn)
  obtain ⟨d', rfl⟩ := Nat.exists_eq_add_of_le' (Nat.le_trans (Nat.le_add_left 1 _) h.depth)
  exact ⟨d', rfl, fun v hv => ⟨hdepth (Nat.le_of_succ_le_succ h.depth) v hv,
    fun n hn => h.int32 n (hints v hv n hn)⟩⟩

lemma Fits.record (h : Fits (.record ms) d) :
    ∃ d', d = d' + 1 ∧ ms.Forall (Fits ·.2 d') := by
  have hlist : Fits (.list (ms.map Prod.snd)) d := by
    refine ⟨?_, ?_⟩
    · rw [Value.depth, ← Value.membersDepth_eq]
      exact h.depth
    · rw [integers, ← membersIntegers_eq]
      exact h.int32
  obtain ⟨d', rfl, hall⟩ := hlist.list
  exact ⟨d', rfl, forall_iff_forall_mem.mpr fun p hp => hall p.2 (mem_map_of_mem hp)⟩

/-- What is written of a part of a tree has whole numbers only, and is read back at each depth that
it fits. -/
structure Back {α : Type} (value : α → Value) (ofRaw? : ℕ → Raw → Option α) (a : α) : Prop where
  whole : (value a).Whole
  read : ∀ d, Fits (value a) d → ofRaw? d (value a).raw = some a

/-- The same of a list of parts. -/
structure Backs {α : Type} (values : List α → List Value) (ofRaw? : ℕ → Raw → Option α)
    (as : List α) : Prop where
  whole : Value.WholeItems (values as)
  read : ∀ d, (∀ v ∈ values as, Fits v d) → list? (ofRaw? d) (Value.list (values as)).raw = some as

section

variable {α : Type} {value : α → Value} {values : List α → List Value}
  {ofRaw? : ℕ → Raw → Option α}

lemma Backs.nil (hv : values [] = []) : Backs values ofRaw? [] := by
  refine ⟨?_, fun d _ => ?_⟩ <;> rw [hv]
  · trivial
  · rfl

lemma Backs.cons {a : α} {as : List α} (hv : values (a :: as) = value a :: values as)
    (ha : Back value ofRaw? a) (has : Backs values ofRaw? as) : Backs values ofRaw? (a :: as) := by
  refine ⟨?_, fun d hf => ?_⟩
  · rw [hv]
    exact ⟨ha.whole, has.whole⟩
  · rw [hv] at hf ⊢
    have hhead := ha.read d (hf _ mem_cons_self)
    have htail := has.read d fun v hv => hf v (mem_cons_of_mem _ hv)
    rw [raw, list?] at htail ⊢
    simp [rawItems, mapM_cons, hhead, htail]

end

abbrev WordBack := Back Word.value Word.ofRaw?
abbrev NodeBack := Back Node.value Node.ofRaw?
abbrev WordsBack := Backs wordValues Word.ofRaw?
abbrev ItemsBack := Backs itemValues Item.ofRaw?

lemma read_flag (b : Bool) : flagOr? (some (bool b).raw) = some b := rfl

lemma read_text (s : String) : text? (text s).raw = some s := rfl

lemma read_op (op : RedirectOp) (d : ℕ) : redirectOp? d (text op.symbol).raw = some op := by
  cases op <;> rfl

/-! ### One lemma a kind of part -/

lemma back_word {parts : List Part} (h : Backs partValues Part.ofRaw? parts) :
    WordBack ⟨parts⟩ := by
  refine ⟨⟨h.whole, trivial⟩, fun d hf => ?_⟩
  obtain ⟨d, rfl, hparts⟩ := hf.record
  obtain ⟨d, rfl, hps⟩ := Fits.list hparts
  simp [Word.value, Word.ofRaw?, Fields.ofRaw?_record, h.read d hps]

lemma back_text {part : String → Part} {tag : String}
    (hv : ∀ s, (part s).value = .record [(tag, .text s)])
    (hr : ∀ d s, Part.ofRaw? (d + 1) (.object [(some tag, .string (some s))]) = some (part s))
    (s : String) : Back Part.value Part.ofRaw? (part s) := by
  refine ⟨by rw [hv]; exact ⟨trivial, trivial⟩, fun d hf => ?_⟩
  rw [hv] at hf ⊢
  obtain ⟨d, rfl, -⟩ := hf.record
  exact hr d s

lemma back_output (h : ItemsBack body) : Back Part.value Part.ofRaw? (.output body) := by
  refine ⟨⟨h.whole, trivial⟩, fun d hf => ?_⟩
  obtain ⟨d, rfl, hbody⟩ := hf.record
  obtain ⟨d, rfl, hbs⟩ := Fits.list hbody
  simp [Part.value, Part.ofRaw?, raw_alternative, h.read d hbs]

lemma back_item {node : Node} {background : Bool} (h : NodeBack node) :
    Back Item.value Item.ofRaw? ⟨node, background⟩ := by
  refine ⟨⟨h.whole, trivial, trivial⟩, fun d hf => ?_⟩
  obtain ⟨d, rfl, hnode, -⟩ := hf.record
  simp [Item.value, Item.ofRaw?, Fields.ofRaw?_record, h.read d hnode, read_flag]

lemma whole_branch (h : ∀ is ∈ branch, ItemsBack is) : (branchValue branch).Whole := by
  cases branch with
  | none => trivial
  | some is => exact (h is rfl).whole

lemma read_branch (h : ∀ is ∈ branch, ItemsBack is) (hf : Fits (branchValue branch) (d + 1)) :
    nullable? (list? (Item.ofRaw? d)) (some (branchValue branch).raw) = some branch := by
  cases branch with
  | none => rfl
  | some is =>
    obtain ⟨d, ⟨⟩, his⟩ := Fits.list hf
    have hread := (h is rfl).read d his
    rw [branchValue]
    simpa [nullable?, raw] using hread

lemma whole_name (h : ∀ w ∈ name, WordBack w) : (nameValue name).Whole := by
  cases name with
  | none => trivial
  | some w => exact (h w rfl).whole

lemma read_name (h : ∀ w ∈ name, WordBack w) (hf : Fits (nameValue name) d) :
    nullable? (Word.ofRaw? d) (some (nameValue name).raw) = some name := by
  cases name with
  | none => rfl
  | some w =>
    obtain ⟨parts⟩ := w
    have hread := (h ⟨parts⟩ rfl).read d hf
    rw [nameValue, nullable?, hread]
    · rfl
    · exact fun hnull => by cases hnull

lemma whole_fd (fd : Option ℤ) : (fdValue fd).Whole := by
  cases fd <;> trivial

lemma read_fd {fd : Option ℤ} (hf : Fits (fdValue fd) d) :
    nullable? int32? (some (fdValue fd).raw) = some fd := by
  cases fd with
  | none => rfl
  | some n =>
    have hn := hf.int32 n (mem_singleton.mpr rfl)
    have hnumber := Number.ofLiteral?_ofInt (n := n) (by omega)
    have hraw : (fdValue (some n)).raw = .number (.ofInt n) := rfl
    simp only [hraw, nullable?, int32?, hnumber, if_pos hn, map_some]

lemma back_redirect {op : RedirectOp} {fd : Option ℤ} {target : Word} (h : WordBack target) :
    Back Redirect.value Redirect.ofRaw? ⟨op, fd, target⟩ := by
  refine ⟨⟨trivial, whole_fd fd, h.whole, trivial⟩, fun d hf => ?_⟩
  obtain ⟨d, rfl, -, hfd, htarget⟩ := hf.record
  simp [Redirect.value, Redirect.ofRaw?, Fields.ofRaw?_record, read_op, read_fd hfd,
    h.read d htarget]

lemma back_arm {patterns : List Word} (hp : WordsBack patterns) (hb : ItemsBack body) :
    Back Arm.value Arm.ofRaw? ⟨patterns, body⟩ := by
  refine ⟨⟨hp.whole, hb.whole, trivial⟩, fun d hf => ?_⟩
  obtain ⟨d, rfl, hpatterns, hbody⟩ := hf.record
  obtain ⟨d, rfl, hps⟩ := Fits.list hpatterns
  obtain ⟨d, ⟨⟩, hbs⟩ := Fits.list hbody
  simp [Arm.value, Arm.ofRaw?, Fields.ofRaw?_record, listOr?, hp.read d hps, hb.read d hbs]

lemma back_simple {assignments args : List Word} {redirects : List Redirect}
    (ha : WordsBack assignments) (hn : ∀ w ∈ name, WordBack w) (hw : WordsBack args)
    (hr : Backs redirectValues Redirect.ofRaw? redirects) :
    Back Simple.value Simple.ofRaw? ⟨assignments, name, args, redirects⟩ := by
  refine ⟨⟨ha.whole, whole_name hn, hw.whole, hr.whole, trivial⟩, fun d hf => ?_⟩
  obtain ⟨d, rfl, hassignments, hname, hargs, hredirects⟩ := hf.record
  obtain ⟨d, rfl, has⟩ := Fits.list hassignments
  obtain ⟨d, ⟨⟩, hws⟩ := Fits.list hargs
  obtain ⟨d, ⟨⟩, hrs⟩ := Fits.list hredirects
  simp [Simple.value, Simple.ofRaw?, Fields.ofRaw?_record, listOr?, ha.read d has,
    read_name hn hname, hw.read d hws, hr.read d hrs]

/-! ### Nodes, one lemma an alternative -/

attribute [local simp] Node.value Node.ofRaw?

lemma back_command {c : Simple} (h : Back Simple.value Simple.ofRaw? c) :
    NodeBack (.command c) := by
  refine ⟨⟨h.whole, trivial⟩, fun d hf => ?_⟩
  obtain ⟨d, rfl, hc⟩ := hf.record
  simp [raw_alternative, h.read d hc]

lemma back_pipeline {cs : List Simple} {negated : Bool} (h : Backs simpleValues Simple.ofRaw? cs) :
    NodeBack (.pipeline cs negated) := by
  refine ⟨⟨⟨h.whole, trivial, trivial⟩, trivial⟩, fun d hf => ?_⟩
  obtain ⟨d, rfl, hinner⟩ := hf.record
  obtain ⟨d, rfl, hcommands, -⟩ := Fits.record hinner
  obtain ⟨d, rfl, hcs⟩ := Fits.list hcommands
  simp [raw_alternative, Fields.ofRaw?_record, h.read d hcs, read_flag]

lemma back_logical {op : Connective} {left right : Node} (hl : NodeBack left)
    (hr : NodeBack right) : NodeBack (.logical op left right) := by
  have hop : op.value.Whole ∧ ∀ d, connective? d op.value.raw = some op := by
    cases op <;> exact ⟨trivial, fun _ => rfl⟩
  refine ⟨⟨⟨hop.1, hl.whole, hr.whole, trivial⟩, trivial⟩, fun d hf => ?_⟩
  obtain ⟨d, rfl, hinner⟩ := hf.record
  obtain ⟨d, rfl, -, hleft, hright⟩ := Fits.record hinner
  simp [raw_alternative, Fields.ofRaw?_record, hop.2, hl.read d hleft, hr.read d hright]

lemma back_conditional {condition : List Item} {onSuccess onFailure : Option (List Item)}
    (hc : ItemsBack condition) (hs : ∀ is ∈ onSuccess, ItemsBack is)
    (hl : ∀ is ∈ onFailure, ItemsBack is) :
    NodeBack (.conditional condition onSuccess onFailure) := by
  refine ⟨⟨⟨hc.whole, whole_branch hs, whole_branch hl, trivial⟩, trivial⟩, fun d hf => ?_⟩
  obtain ⟨d, rfl, hinner⟩ := hf.record
  obtain ⟨d, rfl, hcondition, hsuccess, hfailure⟩ := Fits.record hinner
  obtain ⟨d, rfl, hcs⟩ := Fits.list hcondition
  simp [raw_alternative, Fields.ofRaw?_record, hc.read d hcs,
    read_branch hs hsuccess, read_branch hl hfailure]

lemma back_loop {name : String} {words : List Word} (hw : WordsBack words) (hb : ItemsBack body) :
    NodeBack (.loop name words body) := by
  refine ⟨⟨⟨trivial, hw.whole, hb.whole, trivial⟩, trivial⟩, fun d hf => ?_⟩
  obtain ⟨d, rfl, hinner⟩ := hf.record
  obtain ⟨d, rfl, -, hwords, hbody⟩ := Fits.record hinner
  obtain ⟨d, rfl, hws⟩ := Fits.list hwords
  obtain ⟨d, ⟨⟩, hbs⟩ := Fits.list hbody
  simp [raw_alternative, Fields.ofRaw?_record, read_text, hw.read d hws, hb.read d hbs]

lemma back_choice {subject : Word} {arms : List Arm} (hs : WordBack subject)
    (ha : Backs armValues Arm.ofRaw? arms) : NodeBack (.choice subject arms) := by
  refine ⟨⟨⟨hs.whole, ha.whole, trivial⟩, trivial⟩, fun d hf => ?_⟩
  obtain ⟨d, rfl, hinner⟩ := hf.record
  obtain ⟨d, rfl, hsubject, harms⟩ := Fits.record hinner
  obtain ⟨d, rfl, has⟩ := Fits.list harms
  simp [raw_alternative, Fields.ofRaw?_record, hs.read (d + 1) hsubject, ha.read d has]

lemma back_subshell (h : ItemsBack body) : NodeBack (.subshell body) := by
  refine ⟨⟨h.whole, trivial⟩, fun d hf => ?_⟩
  obtain ⟨d, rfl, hbody⟩ := hf.record
  obtain ⟨d, rfl, hbs⟩ := Fits.list hbody
  simp [raw_alternative, h.read d hbs]

/-! ### Whole trees -/

mutual

lemma Word.back : ∀ w : Word, WordBack w
  | ⟨parts⟩ => back_word (parts_back parts)

lemma parts_back : ∀ ps : List Part, Backs partValues Part.ofRaw? ps
  | [] => .nil rfl
  | p :: ps => .cons rfl p.back (parts_back ps)

lemma Part.back : ∀ p : Part, Back Part.value Part.ofRaw? p
  | .output body => back_output (items_back body)
  | .literal s => back_text (fun _ => rfl) (fun _ _ => rfl) s
  | .param name => back_text (fun _ => rfl) (fun _ _ => rfl) name
  | .glob raw => back_text (fun _ => rfl) (fun _ _ => rfl) raw

lemma Item.back : ∀ i : Item, Back Item.value Item.ofRaw? i
  | ⟨node, _⟩ => back_item node.back

lemma items_back : ∀ is : List Item, ItemsBack is
  | [] => .nil rfl
  | i :: is => .cons rfl i.back (items_back is)

lemma branch_back : ∀ branch : Option (List Item), ∀ is ∈ branch, ItemsBack is
  | none => nofun
  | some is => fun _ hi => some.inj hi ▸ items_back is

lemma Node.back : ∀ n : Node, NodeBack n
  | .command c => back_command c.back
  | .pipeline cs _ => back_pipeline (simples_back cs)
  | .logical _ left right => back_logical left.back right.back
  | .conditional condition onSuccess onFailure =>
    back_conditional (items_back condition) (branch_back onSuccess) (branch_back onFailure)
  | .loop _ words body => back_loop (words_back words) (items_back body)
  | .choice subject arms => back_choice subject.back (arms_back arms)
  | .subshell body => back_subshell (items_back body)

lemma Simple.back : ∀ c : Simple, Back Simple.value Simple.ofRaw? c
  | ⟨assignments, name, args, redirects⟩ =>
    back_simple (words_back assignments) (name_back name) (words_back args)
      (redirects_back redirects)

lemma simples_back : ∀ cs : List Simple, Backs simpleValues Simple.ofRaw? cs
  | [] => .nil rfl
  | c :: cs => .cons rfl c.back (simples_back cs)

lemma name_back : ∀ name : Option Word, ∀ w ∈ name, WordBack w
  | none => nofun
  | some w => fun _ hw => some.inj hw ▸ w.back

lemma words_back : ∀ ws : List Word, WordsBack ws
  | [] => .nil rfl
  | w :: ws => .cons rfl w.back (words_back ws)

lemma Redirect.back : ∀ r : Redirect, Back Redirect.value Redirect.ofRaw? r
  | ⟨_, _, target⟩ => back_redirect target.back

lemma redirects_back : ∀ rs : List Redirect, Backs redirectValues Redirect.ofRaw? rs
  | [] => .nil rfl
  | r :: rs => .cons rfl r.back (redirects_back rs)

lemma Arm.back : ∀ a : Arm, Back Arm.value Arm.ofRaw? a
  | ⟨patterns, body⟩ => back_arm (words_back patterns) (items_back body)

lemma arms_back : ∀ as : List Arm, Backs armValues Arm.ofRaw? as
  | [] => .nil rfl
  | a :: as => .cons rfl a.back (arms_back as)

end

lemma Script.back (s : Script) : Back Script.value Script.ofRaw? s := by
  have h := items_back s.items
  refine ⟨⟨h.whole, trivial⟩, fun d hf => ?_⟩
  obtain ⟨d, rfl, hitems⟩ := hf.record
  obtain ⟨d, rfl, his⟩ := Fits.list hitems
  simp [Script.value, Script.ofRaw?, Fields.ofRaw?_record, h.read d his]

/-- Reading the text of a script gives that script, unless the text nests too deep for a reader. Its
only numbers are descriptors, which have 32 bits. -/
theorem Script.parse?_json_eq_some (s : Script) (hdepth : s.value.depth ≤ Value.maxDepth)
    (hfd : ∀ n ∈ s.value.integers, -2 ^ 31 ≤ n ∧ n < 2 ^ 31) : Script.parse? s.json = some s := by
  have hread : ofRaw? maxDepth s.value.raw = some s := s.back.read _ ⟨hdepth, hfd⟩
  rw [Script.parse?, Script.json, Json.Raw.parse?_json s.back.whole, bind_some, hread]

/-- A word of all kinds of parts, with characters that need escapes. -/
def tourWord : Word := ⟨[.literal "A=\"\\\n\x1f", .param "x\u0000", .glob "*é", .output []]⟩

def tourCommand : Simple :=
  ⟨[tourWord], some tourWord, [⟨[]⟩],
    [⟨.append, some (-2 ^ 31), tourWord⟩, ⟨.dupInput, none, ⟨[]⟩⟩]⟩

/-- A script with all kinds of nodes. -/
def tour : Script :=
  let bare : Simple := ⟨[], none, [], []⟩
  ⟨[⟨.conditional [⟨.pipeline [bare, bare] true, false⟩] none (some [⟨.subshell [], false⟩]), true⟩,
    ⟨.loop "🐚" [tourWord] [⟨.choice tourWord [⟨[tourWord], []⟩], false⟩], false⟩,
    ⟨.logical .or (.command tourCommand) (.command bare), false⟩]⟩

theorem parse?_json_tour : tour.value.depth = 16 ∧ tour.value.integers = [-2 ^ 31] ∧
    Script.parse? tour.json = some tour :=
  have hdepth : tour.value.depth = 16 := by decide
  have hints : tour.value.integers = [-2 ^ 31] := by decide
  ⟨hdepth, hints, Script.parse?_json_eq_some tour (hdepth ▸ by decide) (hints ▸ by decide)⟩

end Tree

end JobShell
