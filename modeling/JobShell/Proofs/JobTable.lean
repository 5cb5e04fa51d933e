import JobShell.Proofs.Engine.Registry
import Mathlib.Data.List.Induction
import Mathlib.Data.List.Sort
import Mathlib.Order.Bounds.Basic

/-!
The job table as a list of numbers.

Numbers are given out again, the lowest first, so the order of the numbers and the order in which
jobs were registered soon have nothing to do with each other. Main statement: after any edits the
table is known from a plain list of the numbers in use, the one given out last in front. An edit
puts one number in front of that list, takes one out of it, or leaves it as it is.
-/

namespace JobShell.JobTable

open List Nat

variable {t : JobTable} {n : ℕ}

/-! ### Edits -/

/-- What can be done to a job table. -/
inductive Edit where
  | add (job : JobId) (command : String) (foreground : Bool)
  | update (id : ℕ) (state : JobState) (status : Option Int)
  | remove (id : ℕ)
  | setForeground (id : Option ℕ)

def Edit.apply (t : JobTable) : Edit → JobTable
  | .add job command foreground => (t.add job command foreground).2
  | .update id state status => (t.update id state status).2
  | .remove id => (t.remove id).2
  | .setForeground id => t.setForeground id

/-- The table that edits make of an empty one. -/
def after (edits : List Edit) : JobTable := edits.foldl Edit.apply {}

lemma exists_unused (live : List ℕ) : ∃ n, 1 ≤ n ∧ n ∉ live := by
  obtain ⟨n, hn, hfree⟩ := exists_notin live
  exact ⟨n, (mem_range'_1.mp hn).1, hfree⟩

/-- The smallest number from 1 on that is not in a list. -/
def unused (live : List ℕ) : ℕ := Nat.find (exists_unused live)

lemma isLeast_unused (live : List ℕ) : IsLeast {n | 1 ≤ n ∧ n ∉ live} (unused live) :=
  ⟨Nat.find_spec (exists_unused live), fun _ hm => Nat.find_min' _ hm⟩

/-- What an edit does to the list of the numbers in use. -/
def Edit.follow (live : List ℕ) : Edit → List ℕ
  | .add .. => unused live :: live
  | .update id .terminated _ | .update id .failed _ | .remove id => live.erase id
  | .update .. | .setForeground _ => live

/-- The numbers in use after edits, the one given out last in front. -/
def live (edits : List Edit) : List ℕ := edits.foldl Edit.follow []

/-! ### Tables in order -/

/-- The numbers in use with their ages. -/
def index (t : JobTable) : List (ℕ × ℕ) := t.entries.map fun p => (p.1, p.2.seq)

lemma mem_index_iff : n ∈ t.index.map Prod.fst ↔ t.contains n = true := by
  rw [contains_iff, index, map_map]
  simp

/-- Numbers with ages, the youngest first. -/
def ranked (l : List (ℕ × ℕ)) : List (ℕ × ℕ) := l.mergeSort fun a b => decide (b.2 ≤ a.2)

lemma perm_ranked (l : List (ℕ × ℕ)) : (ranked l).Perm l := mergeSort_perm _ _

lemma pairwise_ranked (l : List (ℕ × ℕ)) : (ranked l).Pairwise (·.2 ≥ ·.2) := by
  have h : (ranked l).Pairwise fun a b => decide (b.2 ≤ a.2) = true :=
    pairwise_mergeSort (by simp; omega) (by simp; omega) l
  exact h.imp fun hab => of_decide_eq_true hab

lemma byAge_eq (t : JobTable) : t.byAge = (ranked t.index).map Prod.fst := by
  have hranked := map_mergeSort (f := fun p : ℕ × Entry => (p.1, p.2.seq))
    (r := fun a b => decide (b.2.seq ≤ a.2.seq)) (s := fun a b => decide (b.2 ≤ a.2))
    (l := t.entries) fun _ _ _ _ => rfl
  rw [byAge, ranked, index, ← hranked, map_map]
  rfl

lemma ranked_eq {l l' : List (ℕ × ℕ)} (hp : l'.Perm l) (hl : l'.Pairwise (·.2 > ·.2)) :
    ranked l = l' := by
  have hages : (l'.map Prod.snd).Nodup :=
    pairwise_map.mpr (hl.imp fun hab => ne_of_gt hab)
  have hperm := (perm_ranked l).trans hp.symm
  refine hperm.eq_of_pairwise (fun a b ha hb hab hba => ?_) (pairwise_ranked l)
    (hl.imp fun hab => le_of_lt hab)
  exact inj_on_of_nodup_map hages (hperm.mem_iff.mp ha) hb (le_antisymm hba hab)

lemma mem_byAge : n ∈ t.byAge ↔ t.contains n = true := by
  rw [← mem_index_iff, byAge_eq]
  exact ((perm_ranked t.index).map Prod.fst).mem_iff

/-- A table as edits leave it. -/
structure Orderly (t : JobTable) : Prop where
  /-- The numbers rise. -/
  sorted : t.index.Pairwise (·.1 < ·.1)
  /-- No two entries are of the same age, and the next one is younger than all of them. -/
  ages : (t.index.map Prod.snd).Nodup
  aged : ∀ p ∈ t.index, p.2 < t.nextSeq
  positive : ∀ p ∈ t.index, 1 ≤ p.1
  unfinished : ∀ p ∈ t.entries, p.2.state.isFinal = false
  foreground : ∀ n ∈ t.foreground, t.contains n = true

namespace Orderly

lemma empty : ({} : JobTable).Orderly := ⟨.nil, .nil, nofun, nofun, nofun, nofun⟩

lemma pairwise_ranked (h : t.Orderly) : (ranked t.index).Pairwise (·.2 > ·.2) := by
  have hne : (ranked t.index).Pairwise (·.2 ≠ ·.2) :=
    pairwise_map.mp (((perm_ranked t.index).map Prod.snd).nodup_iff.mpr h.ages)
  exact ((JobTable.pairwise_ranked t.index).and hne).imp fun hab => by omega

lemma nodup_index (h : t.Orderly) : (t.index.map Prod.fst).Nodup :=
  pairwise_map.mpr (h.sorted.imp fun hlt => ne_of_lt hlt)

lemma nodup_byAge (h : t.Orderly) : t.byAge.Nodup := by
  rw [byAge_eq]
  exact ((perm_ranked t.index).map Prod.fst).nodup_iff.mpr h.nodup_index

end Orderly

/-! ### Adding -/

lemma freshId_eq (t : JobTable) : t.freshId = unused t.byAge := by
  obtain ⟨hpos, hunused⟩ := (isLeast_unused t.byAge).1
  have hfree : t.freshId ∉ t.byAge := by
    rw [mem_byAge, contains_iff]
    rintro ⟨x, hx⟩
    exact notin_freshId x hx
  -- the number that is found is the first free one of those that are tried
  obtain ⟨m, hf⟩ := t.find?_freshId
  have hid : t.freshId = m := by rw [freshId, hf, Option.getD_some]
  rw [hid] at hfree ⊢
  have hm := mem_range'_1.mp (mem_of_find?_eq_some hf)
  refine le_antisymm ?_ ((isLeast_unused _).2 ⟨hm.1, hfree⟩)
  by_contra hlt
  obtain ⟨-, l1, l2, hl, hbefore⟩ := find?_eq_some_iff_append.mp hf
  have hsorted := pairwise_lt_range' (s := 1) (n := t.entries.length + 1)
  have hmem : unused t.byAge ∈ range' 1 (t.entries.length + 1) := mem_range'_1.mpr (by omega)
  rw [hl] at hsorted hmem
  have hafter := pairwise_cons.mp (pairwise_append.mp hsorted).2.1
  rcases mem_append.mp hmem with hmem | hmem
  · exact hunused (mem_byAge.mpr (by simpa using hbefore _ hmem))
  · rcases mem_cons.mp hmem with he | hmem
    · omega
    · have := hafter.1 _ hmem
      omega

lemma pairwise_insertEntry {x : Entry} {l : List (ℕ × Entry)} (hl : l.Pairwise (·.1 < ·.1))
    (hn : ∀ p ∈ l, p.1 ≠ n) : (insertEntry n x l).Pairwise (·.1 < ·.1) := by
  induction l with
  | nil => exact pairwise_singleton _ _
  | cons p l ih =>
    obtain ⟨hp, hl'⟩ := pairwise_cons.mp hl
    have hpn := hn p mem_cons_self
    simp only [insertEntry]
    split
    · rename_i hlt
      refine pairwise_cons.mpr ⟨fun q hq => ?_, hl⟩
      rcases mem_cons.mp hq with rfl | hq
      · exact hlt
      · exact hlt.trans (hp q hq)
    · have hlt : p.1 < n := by omega
      refine pairwise_cons.mpr ⟨fun q hq => ?_, ih hl' fun q hq => hn q (mem_cons_of_mem _ hq)⟩
      rcases mem_cons.mp ((perm_insertEntry x l).mem_iff.mp hq) with rfl | hq
      · exact hlt
      · exact hp q hq

section Add

variable (job : JobId) (command : String) (foreground : Bool)

lemma perm_index_add : (t.add job command foreground).2.index.Perm
    ((t.freshId, t.nextSeq) :: t.index) := (perm_insertEntry _ _).map _

lemma contains_add {m : ℕ} : (t.add job command foreground).2.contains m = true ↔
    m = t.freshId ∨ t.contains m = true := by
  rw [← mem_index_iff, ((perm_index_add job command foreground).map Prod.fst).mem_iff, map_cons,
    mem_cons, mem_index_iff]

lemma Orderly.add (h : t.Orderly) : (t.add job command foreground).2.Orderly := by
  have hp := perm_index_add (t := t) job command foreground
  have hmem : ∀ p ∈ (t.add job command foreground).2.index,
      p = (t.freshId, t.nextSeq) ∨ p ∈ t.index := fun p hm => mem_cons.mp (hp.mem_iff.mp hm)
  refine ⟨?_, ?_, ?_, ?_, ?_, ?_⟩
  · have hne : ∀ p ∈ t.entries, p.1 ≠ t.freshId := by
      rintro ⟨m, x⟩ hm rfl
      exact notin_freshId x hm
    have hsorted : t.entries.Pairwise (·.1 < ·.1) := by
      simpa only [index, pairwise_map] using h.sorted
    exact pairwise_map.mpr (pairwise_insertEntry hsorted hne)
  · refine (hp.map _).nodup_iff.mpr (nodup_cons.mpr ⟨fun hm => ?_, h.ages⟩)
    obtain ⟨p, hp, he⟩ := mem_map.mp hm
    exact Nat.ne_of_lt (h.aged p hp) he
  · intro p hm
    change p.2 < t.nextSeq + 1
    rcases hmem p hm with rfl | hm
    · exact lt_succ_self _
    · exact lt_succ_of_lt (h.aged p hm)
  · intro p hm
    rcases hmem p hm with rfl | hm
    · rw [freshId_eq]
      exact (isLeast_unused _).1.1
    · exact h.positive p hm
  · intro p hm
    rcases mem_cons.mp ((perm_insertEntry _ _).mem_iff.mp hm) with rfl | hm
    · rfl
    · exact h.unfinished p hm
  · intro n hn
    rw [contains_add]
    cases foreground with
    | true => exact .inl (Option.mem_some.mp hn).symm
    | false => exact .inr (h.foreground n hn)

lemma Orderly.byAge_add (h : t.Orderly) :
    (t.add job command foreground).2.byAge = t.freshId :: t.byAge := by
  have hranked : ranked (t.add job command foreground).2.index =
      (t.freshId, t.nextSeq) :: ranked t.index := by
    refine ranked_eq (((perm_ranked _).cons _).trans (perm_index_add job command foreground).symm)
      (pairwise_cons.mpr ⟨fun p hm => ?_, h.pairwise_ranked⟩)
    exact h.aged p ((perm_ranked _).mem_iff.mp hm)
  rw [byAge_eq, hranked, byAge_eq, map_cons]

end Add

/-! ### Taking out -/

lemma index_eraseEntry (t : JobTable) (n : ℕ) :
    (t.eraseEntry n).index = t.index.filter (·.1 != n) := by
  rw [index, eraseEntry, index, filter_map]
  rfl

lemma Orderly.eraseEntry (h : t.Orderly) (n : ℕ) : (t.eraseEntry n).Orderly := by
  have hindex := index_eraseEntry t n
  have hmem : ∀ p ∈ (t.eraseEntry n).index, p ∈ t.index := fun p hp => by
    rw [hindex] at hp
    exact (mem_filter.mp hp).1
  refine ⟨?_, ?_, fun p hp => h.aged p (hmem p hp), fun p hp => h.positive p (hmem p hp),
    fun p hp => h.unfinished p (mem_filter.mp hp).1, fun m hm => ?_⟩
  · rw [hindex]
    exact h.sorted.filter _
  · rw [hindex]
    exact h.ages.sublist (filter_sublist.map _)
  · simp only [JobTable.eraseEntry] at hm
    split at hm
    · cases hm
    · rename_i hne
      have hmn : m ≠ n := by
        rintro rfl
        exact hne hm
      rw [← mem_index_iff, hindex]
      obtain ⟨p, hp, rfl⟩ := mem_map.mp (mem_index_iff.mpr (h.foreground m hm))
      exact mem_map_of_mem (mem_filter.mpr ⟨hp, bne_iff_ne.mpr hmn⟩)

/-- A number that is taken out leaves the others in their order. -/
lemma Orderly.byAge_eraseEntry (h : t.Orderly) (n : ℕ) :
    (t.eraseEntry n).byAge = t.byAge.erase n := by
  have hranked : ranked (t.eraseEntry n).index = (ranked t.index).filter (·.1 != n) := by
    rw [index_eraseEntry]
    exact ranked_eq ((perm_ranked _).filter _) (h.pairwise_ranked.filter _)
  rw [h.nodup_byAge.erase_eq_filter, byAge_eq, hranked, byAge_eq, filter_map]
  rfl

lemma Orderly.eraseEntry_of_not_contains (h : t.Orderly) (hn : t.contains n = false) :
    t.eraseEntry n = t := by
  have hself : t.entries.filter (·.1 != n) = t.entries := by
    refine filter_eq_self.mpr fun p hp => ?_
    rw [bne_iff_ne]
    rintro rfl
    simp [contains_iff.mpr ⟨p.2, hp⟩] at hn
  have hfg : t.foreground ≠ some n := fun he => by simp [h.foreground n he] at hn
  simp [JobTable.eraseEntry, hself, hfg]

/-- Whether or not there is a job of that number, it is gone when it has been taken out. -/
lemma Orderly.takeOut (h : t.Orderly) {t' : JobTable}
    (hin : t.contains n = true → t' = t.eraseEntry n) (hout : t.contains n = false → t' = t) :
    t'.Orderly ∧ t'.byAge = t.byAge.erase n := by
  have ht' : t' = t.eraseEntry n := by
    cases hc : t.contains n with
    | true => exact hin hc
    | false => rw [hout hc, h.eraseEntry_of_not_contains hc]
  rw [ht']
  exact ⟨h.eraseEntry n, h.byAge_eraseEntry n⟩

/-! ### Changing a state -/

section Restate

variable {state : JobState} {status : Option Int}

lemma index_update (hs : state.isFinal = false) : (t.update n state status).2.index = t.index := by
  rw [index, entries_update_open hs, index, assign, map_map]
  refine map_congr_left fun p _ => ?_
  simp only [Function.comp]
  split <;> rfl

lemma nextSeq_update : (t.update n state status).2.nextSeq = t.nextSeq := by
  simp only [update]
  split
  · split
    · rfl
    · split <;> rfl
  · rfl

lemma contains_update (hs : state.isFinal = false) {m : ℕ} :
    (t.update n state status).2.contains m = true ↔ t.contains m = true := by
  rw [← mem_index_iff, index_update hs, mem_index_iff]

lemma Orderly.restate (h : t.Orderly) (n : ℕ) (hs : state.isFinal = false) (status : Option Int) :
    (t.update n state status).2.Orderly := by
  have hindex : (t.update n state status).2.index = t.index := index_update hs
  refine ⟨hindex ▸ h.sorted, hindex ▸ h.ages, ?_, hindex ▸ h.positive, ?_, ?_⟩
  · rw [hindex, nextSeq_update]
    exact h.aged
  · rw [entries_update_open hs]
    exact forall_mem_assign h.unfinished fun _ _ => hs
  · intro m hm
    rw [contains_update hs]
    by_cases hc : t.contains n = true
    · rw [foreground_update hc] at hm
      split at hm
      · cases hm
      · exact h.foreground m hm
    · have hself : (t.update n state status).2 = t := by simp [update, hc]
      exact h.foreground m (hself ▸ hm)

end Restate

lemma Orderly.setForeground (h : t.Orderly) (id : Option ℕ) : (t.setForeground id).Orderly where
  sorted := h.sorted
  ages := h.ages
  aged := h.aged
  positive := h.positive
  unfinished := h.unfinished
  foreground _ hn := (Option.filter_eq_some_iff.mp hn).2

/-! ### Any edits -/

/-- An edit leaves the table in order, and does to its numbers what it does to the plain list. -/
lemma Orderly.edit (h : t.Orderly) (edit : Edit) :
    (edit.apply t).Orderly ∧ (edit.apply t).byAge = edit.follow t.byAge := by
  cases edit with
  | add job command foreground =>
    refine ⟨h.add job command foreground, ?_⟩
    rw [Edit.apply, h.byAge_add, freshId_eq, Edit.follow]
  | update id state status =>
    cases state with
    | terminated | failed =>
      exact h.takeOut (fun hc => by simp [Edit.apply, update, hc, JobState.isFinal])
        fun hc => by simp [Edit.apply, update, hc]
    | _ =>
      refine ⟨h.restate id rfl status, ?_⟩
      rw [Edit.apply, byAge_eq, index_update rfl, ← byAge_eq, Edit.follow] <;> simp
  | remove id =>
    refine h.takeOut (fun hc => ?_) fun hc => ?_
    · obtain ⟨x, hx⟩ := Option.isSome_iff_exists.mp hc
      simp [Edit.apply, remove, get?, hx]
    · have hx : t.entry? id = none := by simpa [contains] using hc
      simp [Edit.apply, remove, get?, hx]
  | setForeground id => exact ⟨h.setForeground id, rfl⟩

lemma orderly_after (edits : List Edit) :
    (after edits).Orderly ∧ (after edits).byAge = live edits := by
  induction edits using reverseRecOn with
  | nil => exact ⟨.empty, by simp [after, byAge, live]⟩
  | append_singleton edits edit ih =>
    have hafter : after (edits ++ [edit]) = edit.apply (after edits) := by
      simp [after, foldl_append]
    have hlive : live (edits ++ [edit]) = edit.follow (live edits) := by
      simp [live, foldl_append]
    rw [hafter, hlive, ← ih.2]
    exact ih.1.edit edit

lemma contains_after {edits : List Edit} : (after edits).contains n = true ↔ n ∈ live edits := by
  rw [← mem_byAge, (orderly_after edits).2]

lemma current?_after (edits : List Edit) : (after edits).current? = (live edits).head? := by
  rw [current?, (orderly_after edits).2, head?_eq_getElem?]

lemma previous?_after (edits : List Edit) : (after edits).previous? = (live edits)[1]? := by
  rw [previous?, (orderly_after edits).2]

lemma nodup_live (edits : List Edit) : (live edits).Nodup := by
  obtain ⟨h, hlive⟩ := orderly_after edits
  exact hlive ▸ h.nodup_byAge

/-- All jobs in the table are listed, in the order of their numbers. -/
lemma list_after (edits : List Edit) :
    (after edits).list.map (·.id) = (live edits).mergeSort fun m n => decide (m ≤ n) := by
  obtain ⟨h, hlive⟩ := orderly_after edits
  have hids : (after edits).list.map (·.id) = (after edits).index.map Prod.fst := by
    rw [list, index, map_map, map_map]
    rfl
  have hsorted : ((after edits).index.map Prod.fst).Pairwise fun m n => decide (m ≤ n) = true :=
    pairwise_map.mpr (h.sorted.imp fun hlt => decide_eq_true (le_of_lt hlt))
  have hperm : (live edits).Perm ((after edits).index.map Prod.fst) := by
    rw [← hlive, byAge_eq]
    exact (perm_ranked _).map Prod.fst
  rw [hids]
  refine Perm.eq_of_pairwise (fun m n _ _ hmn hnm => ?_) hsorted
    (pairwise_mergeSort (by simp; omega) (by simp; omega) _)
    (hperm.symm.trans (mergeSort_perm _ _).symm)
  exact le_antisymm (of_decide_eq_true hmn) (of_decide_eq_true hnm)

/-- The mark of a number in the listing. -/
def markOf (live : List ℕ) (id : ℕ) : String :=
  if live.head? = some id then "+" else if live[1]? = some id then "-" else " "

/-- After any edits of an empty table, and compared with the plain list of the numbers in use: a job
that is added is given the smallest number that is not in the list, which has each number once; the
current job is the head of the list and the previous one its second number; the jobs of the table
are those in the list, in the order of their numbers; the job in the foreground, if there is one, is
in the list; no job that has ended is shown; and the listing has one line for each job, in which
exactly the head is marked `+` and exactly the second `-`. -/
theorem refines_recency (edits : List Edit) :
    let t := after edits
    let live := live edits
    (∀ job command foreground,
      IsLeast {n | 1 ≤ n ∧ n ∉ live} (t.add job command foreground).1) ∧
    live.Nodup ∧
    t.current? = live.head? ∧
    t.previous? = live[1]? ∧
    t.list.map (·.id) = live.mergeSort (fun m n => decide (m ≤ n)) ∧
    (∀ n, t.foreground = some n → n ∈ live) ∧
    (∀ job ∈ t.list, job.state ≠ .terminated ∧ job.state ≠ .failed) ∧
    t.listing = String.join (t.list.map fun job =>
      "[" ++ toString job.id ++ "]" ++ markOf live job.id ++ "  " ++ job.state.label ++ "\t" ++
        job.command ++ (if job.state = .running ∧ ¬ job.foreground then " &" else "") ++ "\n") := by
  obtain ⟨h, hlive⟩ := orderly_after edits
  refine ⟨fun job command foreground => ?_, nodup_live edits, current?_after edits,
    previous?_after edits, list_after edits, fun n hn => contains_after.mp (h.foreground n hn),
    fun job hjob => ?_, ?_⟩
  · have hid : ((after edits).add job command foreground).1 = unused (live edits) := by
      rw [← hlive, ← freshId_eq]
      rfl
    rw [hid]
    exact isLeast_unused _
  · obtain ⟨p, hp, rfl⟩ := mem_map.mp hjob
    have hopen := h.unfinished p hp
    constructor
    · intro he
      simp [show p.2.state = .terminated from he, JobState.isFinal] at hopen
    · intro he
      simp [show p.2.state = .failed from he, JobState.isFinal] at hopen
  · have hmark : ∀ n, (after edits).mark n = markOf (live edits) n := by
      intro n
      simp only [mark, markOf, current?_after, previous?_after, eq_comm (a := some n)]
    rw [listing]
    refine congrArg String.join (map_congr_left fun job _ => ?_)
    simp only [line, hmark]
    rfl

/-- The lowest number is given out again, and the job that has it is then the current one. -/
example : (after [.add 10 "a" false, .add 11 "b" false, .add 12 "c" false, .remove 2,
    .update 1 .terminated (some 0), .add 13 "d" true, .update 3 .stopped none]).byAge = [1, 3] := by
  cbv

end JobShell.JobTable
