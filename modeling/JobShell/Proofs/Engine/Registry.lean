import JobShell.Engine.Jobs
import Mathlib.Data.List.Nodup
import Mathlib.Data.List.Perm.Subperm
import Mathlib.Logic.Relation
import Mathlib.Tactic.Common

/-!
What a shell keeps about its jobs beside their work.

A job is known by a card, and if it is listed by an entry in the job table too; one of the jobs may
have the terminal. Whatever happens to a job is one of a few moves, and each of them keeps the
cards, the table, the terminal and the number of live jobs in agreement.
-/

namespace JobShell

open List Option JobTable Relation Prod

/-! ### Numbered lists -/

section Numbered

variable {α : Type} {l : List (ℕ × α)} {i k : ℕ} {a b x : α} {f : α → α}

/-- Changes what has a number. -/
def assign (l : List (ℕ × α)) (i : ℕ) (f : α → α) : List (ℕ × α) :=
  l.map fun p => if p.1 = i then (p.1, f p.2) else p

lemma mem_assign :
    (k, x) ∈ assign l i f ↔ (k ≠ i ∧ (k, x) ∈ l) ∨ (k = i ∧ ∃ a, (i, a) ∈ l ∧ x = f a) := by
  simp only [assign, List.mem_map, Prod.exists]
  constructor
  · rintro ⟨n, a, hm, h⟩
    by_cases hn : n = i
    · subst hn
      rw [if_pos rfl] at h
      cases h
      exact .inr ⟨rfl, a, hm, rfl⟩
    · rw [if_neg hn] at h
      cases h
      exact .inl ⟨hn, hm⟩
  · rintro (⟨hk, hm⟩ | ⟨rfl, a, hm, rfl⟩)
    · exact ⟨k, x, hm, if_neg hk⟩
    · exact ⟨k, a, hm, if_pos rfl⟩

lemma mem_assign_const (h : (i, a) ∈ l) :
    (k, x) ∈ assign l i (fun _ => b) ↔ (k ≠ i ∧ (k, x) ∈ l) ∨ (k = i ∧ x = b) := by
  rw [mem_assign]
  constructor
  · rintro (hk | ⟨hk, -, -, hx⟩)
    · exact .inl hk
    · exact .inr ⟨hk, hx⟩
  · rintro (hk | ⟨hk, hx⟩)
    · exact .inl hk
    · exact .inr ⟨hk, a, h, hx⟩

lemma forall_mem_assign {P : ℕ × α → Prop} (h : ∀ p ∈ l, P p) (hf : ∀ a, (i, a) ∈ l → P (i, f a)) :
    ∀ p ∈ assign l i f, P p := by
  rintro ⟨k, x⟩ hp
  rcases mem_assign.mp hp with ⟨-, hp⟩ | ⟨rfl, a, ha, rfl⟩
  · exact h _ hp
  · exact hf a ha

lemma fst_assign : (assign l i f).map fst = l.map fst := by
  rw [assign, List.map_map]
  refine map_congr_left fun p _ => ?_
  simp only [Function.comp]
  split <;> rfl

lemma assign_assign (g : α → α) : assign (assign l i f) i g = assign l i (g ∘ f) := by
  rw [assign, assign, assign, List.map_map]
  refine map_congr_left fun p _ => ?_
  by_cases h : p.1 = i <;> simp [h]

lemma assign_append (l' : List (ℕ × α)) : assign (l ++ l') i f = assign l i f ++ assign l' i f :=
  map_append

lemma countP_assign {p : α → Bool} (h : ∀ a, (i, a) ∈ l → p (f a) = p a) :
    (assign l i f).countP (fun q => p q.2) = l.countP fun q => p q.2 := by
  rw [assign, countP_map]
  refine countP_congr fun q hq => ?_
  by_cases hi : q.1 = i
  · subst hi
    simp [h q.2 hq]
  · simp [hi]

lemma assign_of_notin (h : ∀ a, (i, a) ∉ l) : assign l i f = l := by
  conv_rhs => rw [← map_id l]
  refine map_congr_left fun p hp => if_neg ?_
  rintro rfl
  exact h p.2 hp

lemma eq_of_number (h : (l.map fst).Nodup) (ha : (i, a) ∈ l) (hb : (i, b) ∈ l) : a = b := by
  have := inj_on_of_nodup_map h ha hb rfl
  exact congrArg snd this

lemma exists_split (h : (l.map fst).Nodup) (ha : (i, a) ∈ l) :
    ∃ l1 l2, l = l1 ++ (i, a) :: l2 ∧ i ∉ (l1 ++ l2).map fst ∧
      (∀ f, assign l i f = l1 ++ (i, f a) :: l2) ∧ l.filter (·.1 != i) = l1 ++ l2 := by
  obtain ⟨l1, l2, rfl⟩ := append_of_mem ha
  have hnew := (nodup_cons.mp ((perm_middle.map fst).nodup_iff.mp h)).1
  have hi : ∀ p ∈ l1 ++ l2, p.1 ≠ i := by
    rintro p hp rfl
    exact hnew (mem_map.mpr ⟨p, hp, rfl⟩)
  refine ⟨l1, l2, rfl, hnew, fun f => ?_, ?_⟩
  · have h1 : assign l1 i f = l1 := assign_of_notin fun a hm => hi _ (mem_append_left _ hm) rfl
    have h2 : assign l2 i f = l2 := assign_of_notin fun a hm => hi _ (mem_append_right _ hm) rfl
    rw [assign] at h1 h2
    simp only [assign, map_append, map_cons, if_true, h1, h2]
  · rw [filter_append, filter_cons_of_neg (by simp), ← filter_append]
    exact filter_eq_self.mpr fun p hp => by simpa using hi p hp

lemma lookup_eq_some_iff_mem (h : (l.map fst).Nodup) : l.lookup i = some a ↔ (i, a) ∈ l := by
  constructor
  · intro hl
    obtain ⟨l1, l2, rfl, -⟩ := lookup_eq_some_iff.mp hl
    simp
  · intro hm
    rcases hl : l.lookup i with _ | b
    · simpa using lookup_eq_none_iff.mp hl _ hm
    · obtain ⟨l1, l2, hl', -⟩ := lookup_eq_some_iff.mp hl
      rw [eq_of_number h hm (by simp [hl'] : (i, b) ∈ l)]

lemma nodup_append_new (h : (l.map fst).Nodup) (hi : ∀ p ∈ l, p.1 < i) :
    ((l ++ [(i, a)]).map fst).Nodup := by
  rw [map_append]
  refine (perm_append_singleton _ _).nodup_iff.mpr (nodup_cons.mpr ⟨fun hm => ?_, h⟩)
  obtain ⟨p, hp, he⟩ := mem_map.mp hm
  exact Nat.ne_of_lt (hi p hp) he

lemma lt_of_mem_append_new (hi : ∀ p ∈ l, p.1 < i) : ∀ p ∈ l ++ [(i, a)], p.1 < i + 1 := by
  intro p hp
  rcases mem_append.mp hp with hp | hp
  · exact Nat.lt_succ_of_lt (hi p hp)
  · rw [mem_singleton.mp hp]
    exact Nat.lt_succ_self i

end Numbered

/-! ### The job table -/

namespace JobTable

variable {t : JobTable} {n : ℕ} {state : JobState} {status : Option Int}

lemma contains_iff : t.contains n = true ↔ ∃ x, (n, x) ∈ t.entries := by
  rw [contains, entry?, isSome_iff_exists]
  constructor
  · rintro ⟨x, hx⟩
    obtain ⟨l1, l2, hl, -⟩ := lookup_eq_some_iff.mp hx
    exact ⟨x, by simp [hl]⟩
  · rintro ⟨x, hx⟩
    rcases hl : t.entries.lookup n with _ | y
    · simpa using lookup_eq_none_iff.mp hl _ hx
    · exact ⟨y, rfl⟩

lemma entries_update_open (h : state.isFinal = false) :
    (t.update n state status).2.entries = assign t.entries n fun x => { x with state, status } := by
  by_cases hc : t.contains n = true
  · simp only [update, hc, if_true, h, Bool.false_eq_true, if_false]
    split <;> rfl
  · rw [assign_of_notin fun x hx => hc (contains_iff.mpr ⟨x, hx⟩)]
    simp only [update, hc]
    rfl

lemma entries_update_final (h : state.isFinal = true) :
    (t.update n state status).2.entries = t.entries.filter (·.1 != n) := by
  by_cases hc : t.contains n = true
  · simp only [update, hc, if_true, h, eraseEntry]
  · have hself : t.entries.filter (·.1 != n) = t.entries := by
      refine filter_eq_self.mpr fun p hp => ?_
      rw [bne_iff_ne]
      rintro rfl
      exact hc (contains_iff.mpr ⟨p.2, hp⟩)
    rw [hself]
    simp only [update, hc]
    rfl

lemma foreground_update (hc : t.contains n = true) :
    (t.update n state status).2.foreground =
      if (state.isFinal = true ∨ state = .stopped) ∧ t.foreground = some n then none
      else t.foreground := by
  simp only [update, hc, if_true]
  cases state <;> simp [JobState.isFinal, eraseEntry]
  split <;> simp_all

lemma change_update_stopped (hc : t.contains n = true) :
    (t.update n .stopped status).1 = .foregroundStopped ↔ t.foreground = some n := by
  simp only [update, hc, if_true, JobState.isFinal, Bool.false_eq_true, if_false, true_and]
  split <;> simp_all

lemma exists_notin (l : List ℕ) : ∃ n ∈ range' 1 (l.length + 1), n ∉ l := by
  by_contra hall
  push Not at hall
  have hlen := (subperm_of_subset nodup_range' hall).length_le
  rw [length_range'] at hlen
  omega

/-- There are more numbers to try than entries. -/
lemma find?_freshId :
    ∃ m, (range' 1 (t.entries.length + 1)).find? (!t.contains ·) = some m := by
  obtain ⟨m, hm, hfree⟩ := exists_notin (t.entries.map fst)
  rw [length_map] at hm
  refine isSome_iff_exists.mp (find?_isSome.mpr ⟨m, hm, ?_⟩)
  rw [Bool.not_eq_true', ← Bool.not_eq_true, contains_iff]
  rintro ⟨x, hx⟩
  exact hfree (mem_map_of_mem (f := fst) hx)

/-- A new entry has a number of its own. -/
lemma notin_freshId (x : Entry) : (t.freshId, x) ∉ t.entries := by
  obtain ⟨m, hm⟩ := t.find?_freshId
  intro hx
  have hfree := find?_some hm
  rw [freshId, hm, getD_some] at hx
  simp [contains_iff.mpr ⟨x, hx⟩] at hfree

lemma perm_insertEntry (x : Entry) (l : List (ℕ × Entry)) :
    (insertEntry n x l).Perm ((n, x) :: l) := by
  induction l with
  | nil => exact .refl _
  | cons p l ih =>
    simp only [insertEntry]
    split
    · exact .refl _
    · exact (ih.cons p).trans (.swap _ _ _)

end JobTable

/-! ### Cards -/

/-- What is known of a job. -/
structure Card where
  tableId : Option ℕ
  state : JobState
  status : Option Int
  live : Bool
  command : String
  mode : Mode
  /-- Whether another job writes to it. -/
  fed : Bool

/-- What is known of all jobs. -/
structure Registry where
  jobs : List (JobId × Card)
  nextJob : JobId
  table : JobTable
  owner : Option JobId
  live : ℕ
  /-- The last time the console was paused or had to go on, for one that keeps a transcript. -/
  turn : Option (Option ConsoleEvent)
  /-- What such a console was told of jobs. -/
  news : Option (List JobInfo)

namespace Registry

/-- A job is made. With `listed` it is entered in the table, and the flag says whether in the
foreground. -/
def enter (R : Registry) (listed : Listing) (command : String) (fed : Bool) :
    Registry :=
  { R with
    jobs := R.jobs ++ [(R.nextJob,
      ⟨listed.map fun _ => R.table.freshId, .unstarted, none, false, command, .background, fed⟩)]
    nextJob := R.nextJob + 1
    table := listed.elim R.table fun (foreground, title) =>
      (R.table.add R.nextJob title foreground).2 }

/-- A job has a new state, which the table shows. -/
def restate (R : Registry) (id : JobId) (c : Card) (state : JobState) : Registry :=
  { R with
    jobs := assign R.jobs id fun _ => { c with state }
    table := c.tableId.elim R.table fun n => (R.table.update n state none).2 }

/-- A card is changed in what the table does not show. -/
def adjust (R : Registry) (id : JobId) (f : Card → Card) : Registry :=
  { R with jobs := assign R.jobs id f }

/-- Another job writes to a job. -/
def feed (R : Registry) (id : JobId) : Registry := R.adjust id ({ · with fed := true })

/-- The console is told of a job that is listed. -/
def tell (R : Registry) (tableId : Option ℕ) (info : ℕ → JobInfo) : Registry :=
  { R with news := tableId.elim R.news fun n => R.news.map (· ++ [info n]) }

/-- A job gets the terminal. -/
def take (R : Registry) (id : JobId) (tableId : Option ℕ) : Registry :=
  { R with
    owner := some id
    turn := R.turn.map fun _ => some .pause
    table := if tableId.isSome then R.table.setForeground tableId else R.table }

/-- No job has the terminal any more. -/
def giveBack (R : Registry) : Registry :=
  { R with owner := none, turn := R.turn.map fun _ => some .resume }

/-- A job runs in a mode. -/
def run (R : Registry) (id : JobId) (c : Card) (mode : Mode) : Registry :=
  (R.adjust id ({ · with mode })).restate id { c with mode } .running

/-- A job is told to run, with the terminal if it is to be in the foreground. -/
def start (R : Registry) (id : JobId) (c : Card) (mode : Mode) : Registry :=
  (if mode = .foreground then R.take id c.tableId else R).run id c mode

/-- A job of processes runs. -/
def enliven (R : Registry) (id : JobId) (c : Card) : Registry :=
  { R with jobs := assign R.jobs id fun _ => { c with live := true }, live := R.live + 1 }

/-- A job stops, and the terminal is given back if the job had it or is in the foreground. -/
def stop (R : Registry) (id : JobId) (c : Card) : Registry :=
  (if R.owner = some id ∨ c.tableId.isSome ∧ R.table.foreground = c.tableId then
    (R.restate id c .stopped).giveBack
  else R.restate id c .stopped).tell c.tableId fun n => ⟨n, c.command, .stopped, none, false⟩

/-- A job that was stopped goes on. -/
def resume (R : Registry) (id : JobId) (c : Card) : Registry :=
  (R.restate id c .running).tell c.tableId fun n =>
    ⟨n, c.command, .running, none, c.mode == .foreground⟩

/-- A registry without a job that has ended. -/
def without (R : Registry) (id : JobId) (c : Card) (state : JobState) (status : Int) : Registry :=
  { R with
    jobs := R.jobs.filter (·.1 != id)
    live := if c.live then R.live - 1 else R.live
    table := c.tableId.elim R.table fun n => (R.table.update n state (some status)).2 }

def leave (R : Registry) (id : JobId) (c : Card) (state : JobState) (status : Int) : Registry :=
  (if R.owner = some id then (R.without id c state status).giveBack
  else R.without id c state status).tell c.tableId fun n =>
    ⟨n, c.command, state, some status, R.table.foreground == some n⟩

/-- Cards that the table does not tell apart. A job may come to be fed by another. -/
structure Alike (c d : Card) : Prop where
  tableId : d.tableId = c.tableId
  state : d.state = c.state
  status : d.status = c.status
  command : d.command = c.command
  fed : d.fed = false → c.fed = false

/-- What can happen to the jobs of a shell. A job in the foreground has the terminal as soon as it
is listed, and one that no other job feeds is listed by its own text. -/
inductive Move : Registry → Registry → Prop where
  | enter (R : Registry) {title : Option String} {command : String} {fed : Bool}
      (ht : fed = false → ∀ t, title = some t → t = command) :
      Move R (R.enter (title.map (false, ·)) command fed)
  | launch (R : Registry) {title command : String} {fed : Bool} {c : Card}
      (ht : fed = false → title = command)
      (h : (R.nextJob, c) ∈ (R.enter (some (true, title)) command fed).jobs) :
      Move R ((R.enter (some (true, title)) command fed).start R.nextJob c .foreground)
  | start {R : Registry} {id : JobId} {c : Card} (h : (id, c) ∈ R.jobs) :
      Move R (R.start id c .background)
  | adjust (R : Registry) (id : JobId) {f : Card → Card} (h : ∀ c, Alike c (f c))
      (hl : ∀ c, (f c).live = c.live) : Move R (R.adjust id f)
  | enliven {R : Registry} {id : JobId} {c : Card} (h : (id, c) ∈ R.jobs) (hl : c.live = false)
      (hs : c.state = .running) : Move R (R.enliven id c)
  | take {R : Registry} {id : JobId} {n : ℕ} (h : R.table.jobOf? n = some id) :
      Move R (R.take id (some n))
  | stop {R : Registry} {id : JobId} {c : Card} (h : (id, c) ∈ R.jobs) : Move R (R.stop id c)
  | resume {R : Registry} {id : JobId} {c : Card} (h : (id, c) ∈ R.jobs) : Move R (R.resume id c)
  | leave {R : Registry} {id : JobId} {c : Card} {state : JobState} (h : (id, c) ∈ R.jobs)
      (hs : state.isFinal = true) (status : Int) : Move R (R.leave id c state status)

/-! ### The cards and the table -/

/-- The table lists the jobs that have a number, in their states, and all is counted. -/
structure Agrees (R : Registry) : Prop where
  keys : (R.jobs.map Prod.fst).Nodup
  numbers : (R.table.entries.map Prod.fst).Nodup
  numbered : ∀ p ∈ R.jobs, p.1 < R.nextJob
  listed : ∀ n id s, (∃ x, (n, x) ∈ R.table.entries ∧ x.job = id ∧ x.state = s) ↔
    ∃ c, (id, c) ∈ R.jobs ∧ c.tableId = some n ∧ c.state = s
  entries : ∀ u ∈ R.table.entries, u.2.status = none
  unsettled : ∀ p ∈ R.jobs, p.2.state.isFinal = false ∧ p.2.status = none
  fresh : ∀ p ∈ R.jobs, p.2.state = .unstarted → p.2.live = false
  live : R.live = R.jobs.countP fun p => p.2.live

variable {R R' : Registry} {id i : JobId} {c d : Card} {n : ℕ} {state : JobState} {f : Card → Card}
  {live : ℕ}

lemma mem_restate (h : (id, c) ∈ R.jobs) :
    (i, d) ∈ (R.restate id c state).jobs ↔
      (i ≠ id ∧ (i, d) ∈ R.jobs) ∨ (i = id ∧ d = { c with state }) :=
  mem_assign_const h

lemma forall_mem_restate {P : JobId × Card → Prop} (hP : ∀ p ∈ R.jobs, P p)
    (hc : P (id, { c with state })) : ∀ p ∈ (R.restate id c state).jobs, P p :=
  forall_mem_assign hP fun _ _ => hc

lemma entries_restate_some (hs : state.isFinal = false) (hn : c.tableId = some n) :
    (R.restate id c state).table.entries =
      assign R.table.entries n fun x => { x with state, status := none } := by
  simp only [restate, hn, Option.elim]
  exact entries_update_open hs

lemma table_restate_none (hn : c.tableId = none) : (R.restate id c state).table = R.table := by
  simp only [restate, hn, Option.elim]

lemma entries_take (R : Registry) (id : JobId) (tableId : Option ℕ) :
    (R.take id tableId).table.entries = R.table.entries := by
  simp only [take]
  split <;> rfl

lemma alike_mode (mode : Mode) (c : Card) : Alike c { c with mode } :=
  ⟨rfl, rfl, rfl, rfl, fun h => h⟩

lemma mem_adjust (h : (id, c) ∈ R.jobs) (f : Card → Card) : (id, f c) ∈ (R.adjust id f).jobs :=
  mem_assign.mpr (.inr ⟨rfl, c, h, rfl⟩)

lemma restate_adjust : (R.adjust id f).restate id c state = R.restate id c state := by
  simp only [restate, adjust, assign_assign]
  rfl

lemma jobs_start (R : Registry) (id : JobId) (c : Card) (mode : Mode) :
    (R.start id c mode).jobs = assign R.jobs id fun _ => { c with mode, state := .running } := by
  unfold start
  split <;> rw [run, restate_adjust] <;> rfl

lemma mem_start (h : (id, c) ∈ R.jobs) (mode : Mode) :
    (i, d) ∈ (R.start id c mode).jobs ↔
      (i ≠ id ∧ (i, d) ∈ R.jobs) ∨ (i = id ∧ d = { c with mode, state := .running }) := by
  rw [jobs_start]
  exact mem_assign_const h

section

variable (a : R.Agrees)
include a

lemma Agrees.job_of_entry {x : JobTable.Entry} (hx : (n, x) ∈ R.table.entries) :
    ∃ c, (x.job, c) ∈ R.jobs ∧ c.tableId = some n ∧ c.state = x.state :=
  (a.listed n x.job x.state).mp ⟨x, hx, rfl, rfl⟩

lemma Agrees.take (id : JobId) (tableId : Option ℕ) : (R.take id tableId).Agrees := by
  refine ⟨a.keys, ?_, a.numbered, ?_, ?_, a.unsettled, a.fresh, a.live⟩ <;> rw [entries_take]
  · exact a.numbers
  · exact a.listed
  · exact a.entries

lemma Agrees.giveBack : R.giveBack.Agrees :=
  ⟨a.keys, a.numbers, a.numbered, a.listed, a.entries, a.unsettled, a.fresh, a.live⟩

lemma Agrees.tell (tableId : Option ℕ) (info : ℕ → JobInfo) : (R.tell tableId info).Agrees :=
  ⟨a.keys, a.numbers, a.numbered, a.listed, a.entries, a.unsettled, a.fresh, a.live⟩

/-- A card may be changed in what the table does not show, as long as live jobs are counted. -/
lemma Agrees.recard
    (hf : ∀ c, (id, c) ∈ R.jobs → Alike c (f c) ∧ (c.state = .unstarted → (f c).live = false))
    (hl : live = (assign R.jobs id f).countP fun p => p.2.live) :
    ({ R with jobs := assign R.jobs id f, live } : Registry).Agrees := by
  refine ⟨?_, a.numbers, forall_mem_assign a.numbered fun c hc => a.numbered (_, c) hc,
    fun n i s => ?_, a.entries, forall_mem_assign a.unsettled fun c hc => ?_,
    forall_mem_assign a.fresh fun c hc hs => ?_, hl⟩
  · rw [fst_assign]
    exact a.keys
  · rw [a.listed]
    constructor
    · rintro ⟨c, hc, hn, hs⟩
      by_cases hi : i = id
      · subst hi
        have hlike := (hf c hc).1
        exact ⟨f c, mem_assign.mpr (.inr ⟨rfl, c, hc, rfl⟩), hlike.tableId.trans hn,
          hlike.state.trans hs⟩
      · exact ⟨c, mem_assign.mpr (.inl ⟨hi, hc⟩), hn, hs⟩
    · rintro ⟨d, hd, hn, hs⟩
      rcases mem_assign.mp hd with ⟨-, hd⟩ | ⟨rfl, c, hc, rfl⟩
      · exact ⟨d, hd, hn, hs⟩
      · have hlike := (hf c hc).1
        exact ⟨c, hc, hlike.tableId.symm.trans hn, hlike.state.symm.trans hs⟩
  · rw [(hf c hc).1.state, (hf c hc).1.status]
    exact a.unsettled _ hc
  · exact (hf c hc).2 ((hf c hc).1.state.symm.trans hs)

lemma Agrees.adjust (id : JobId) (hf : ∀ c, Alike c (f c))
    (hl : ∀ c, (f c).live = c.live) : (R.adjust id f).Agrees := by
  refine a.recard (fun c hc => ⟨hf c, fun hs => ?_⟩)
    (a.live.trans (countP_assign fun c _ => hl c).symm)
  rw [hl]
  exact a.fresh _ hc hs

section

variable (h : (id, c) ∈ R.jobs)
include h

lemma Agrees.entry (hn : c.tableId = some n) :
    ∃ x, (n, x) ∈ R.table.entries ∧ x.job = id ∧ x.state = c.state :=
  (a.listed n id c.state).mpr ⟨c, h, hn, rfl⟩

lemma Agrees.contains (hn : c.tableId = some n) : R.table.contains n = true := by
  obtain ⟨x, hx, -⟩ := a.entry h hn
  exact contains_iff.mpr ⟨x, hx⟩

lemma Agrees.job_unique (hn : c.tableId = some n)
    (h' : (i, d) ∈ R.jobs) (hn' : d.tableId = some n) : i = id := by
  obtain ⟨x, hx, hxj, -⟩ := a.entry h hn
  obtain ⟨y, hy, hyj, -⟩ := a.entry h' hn'
  rw [eq_of_number a.numbers hx hy, hyj] at hxj
  exact hxj

lemma Agrees.listed_restate (hs : state.isFinal = false) (n : ℕ) (i : JobId) (s : JobState) :
    (∃ x, (n, x) ∈ (R.restate id c state).table.entries ∧ x.job = i ∧ x.state = s) ↔
      ∃ d, (i, d) ∈ (R.restate id c state).jobs ∧ d.tableId = some n ∧ d.state = s := by
  have hother : ∀ {i : JobId} {d : Card} {n : ℕ}, (i, d) ∈ R.jobs → d.tableId = some n →
      c.tableId ≠ some n → i ≠ id := by
    rintro i d n hd hdn hne rfl
    rw [eq_of_number a.keys hd h] at hdn
    exact hne hdn
  rcases hc : c.tableId with _ | m
  · rw [table_restate_none hc, a.listed]
    constructor
    · rintro ⟨d, hd, hdn, hds⟩
      exact ⟨d, (mem_restate h).mpr (.inl ⟨hother hd hdn (by simp [hc]), hd⟩), hdn, hds⟩
    · rintro ⟨d, hd, hdn, hds⟩
      rcases (mem_restate h).mp hd with ⟨-, hd⟩ | ⟨-, rfl⟩
      · exact ⟨d, hd, hdn, hds⟩
      · cases hc.symm.trans hdn
  · rw [entries_restate_some hs hc]
    constructor
    · rintro ⟨x, hx, rfl, rfl⟩
      rcases mem_assign.mp hx with ⟨hne, hx⟩ | ⟨rfl, y, hy, rfl⟩
      · obtain ⟨d, hd, hdn, hds⟩ := a.job_of_entry hx
        refine ⟨d, (mem_restate h).mpr (.inl ⟨hother hd hdn ?_, hd⟩), hdn, hds⟩
        rw [hc]
        exact fun he => hne (some.inj he).symm
      · obtain ⟨d, hd, hdn, -⟩ := a.job_of_entry hy
        exact ⟨{ c with state },
          (mem_restate h).mpr (.inr ⟨a.job_unique h hc hd hdn, rfl⟩), hc, rfl⟩
    · rintro ⟨d, hd, hdn, rfl⟩
      rcases (mem_restate h).mp hd with ⟨hne, hd⟩ | ⟨rfl, rfl⟩
      · obtain ⟨x, hx, hxj, hxs⟩ := a.entry hd hdn
        refine ⟨x, mem_assign.mpr (.inl ⟨?_, hx⟩), hxj, hxs⟩
        rintro rfl
        exact hne (a.job_unique h hc hd hdn)
      · obtain rfl : m = n := some.inj (hc.symm.trans hdn)
        obtain ⟨x, hx, hxj, -⟩ := a.entry h hc
        exact ⟨_, mem_assign.mpr (.inr ⟨rfl, x, hx, rfl⟩), hxj, rfl⟩

lemma Agrees.restate (hs : state.isFinal = false) (hu : state ≠ .unstarted) :
    (R.restate id c state).Agrees where
  keys := by
    rw [Registry.restate, fst_assign]
    exact a.keys
  numbers := by
    rcases hc : c.tableId with _ | n
    · rw [table_restate_none hc]
      exact a.numbers
    · rw [entries_restate_some hs hc, fst_assign]
      exact a.numbers
  numbered := forall_mem_restate a.numbered (a.numbered (_, c) h)
  listed := a.listed_restate h hs
  entries := by
    rcases hc : c.tableId with _ | m
    · rw [table_restate_none hc]
      exact a.entries
    · rw [entries_restate_some hs hc]
      exact forall_mem_assign a.entries fun _ _ => rfl
  unsettled := forall_mem_restate a.unsettled ⟨hs, (a.unsettled _ h).2⟩
  fresh := forall_mem_restate a.fresh fun he => absurd he hu
  live := by
    have hcount : (assign R.jobs id fun _ => { c with state }).countP (fun p => p.2.live) =
        R.jobs.countP fun p => p.2.live :=
      countP_assign fun d hd => by rw [eq_of_number a.keys hd h]
    exact a.live.trans hcount.symm

lemma Agrees.enliven (hl : c.live = false) (hs : c.state = .running) :
    (R.enliven id c).Agrees := by
  refine a.recard (fun d hd => ?_) ?_
  · rw [eq_of_number a.keys hd h]
    exact ⟨⟨rfl, rfl, rfl, rfl, fun hf => hf⟩, fun hu => nomatch hs.symm.trans hu⟩
  · obtain ⟨l1, l2, hj, -, hset, -⟩ := exists_split a.keys h
    rw [hset, a.live, hj]
    simp [hl, Nat.add_assoc]

lemma Agrees.run (mode : Mode) : (R.run id c mode).Agrees :=
  (a.adjust id (alike_mode mode) fun _ => rfl).restate (mem_adjust h _) rfl (by simp)

lemma Agrees.start (mode : Mode) : (R.start id c mode).Agrees := by
  unfold Registry.start
  split
  · exact (a.take id c.tableId).run h mode
  · exact a.run h mode

lemma Agrees.without (hs : state.isFinal = true) (status : Int) :
    (R.without id c state status).Agrees := by
  have hjobs : ∀ {i d}, (i, d) ∈ (R.without id c state status).jobs ↔ i ≠ id ∧ (i, d) ∈ R.jobs := by
    intro i d
    simp [Registry.without, and_comm]
  have hentries : ∀ {n x}, (n, x) ∈ (R.without id c state status).table.entries ↔
      c.tableId ≠ some n ∧ (n, x) ∈ R.table.entries := by
    intro n x
    rcases hc : c.tableId with _ | m
    · simp [Registry.without, hc]
    · simp only [Registry.without, hc, Option.elim, entries_update_final hs, mem_filter,
        bne_iff_ne, ne_eq, some.injEq]
      tauto
  refine ⟨a.keys.sublist (filter_sublist.map _), ?_, fun p hp => ?_, fun n i s => ?_, ?_, ?_, ?_,
    ?_⟩
  · rcases hc : c.tableId with _ | m
    · simpa [Registry.without, hc] using a.numbers
    · simp only [Registry.without, hc, Option.elim, entries_update_final hs]
      exact a.numbers.sublist (filter_sublist.map _)
  · exact a.numbered p (hjobs.mp hp).2
  · constructor
    · rintro ⟨x, hx, rfl, rfl⟩
      obtain ⟨hne, hx⟩ := hentries.mp hx
      obtain ⟨d, hd, hdn, hds⟩ := a.job_of_entry hx
      refine ⟨d, hjobs.mpr ⟨?_, hd⟩, hdn, hds⟩
      intro he
      rw [he] at hd
      rw [eq_of_number a.keys hd h] at hdn
      exact hne hdn
    · rintro ⟨d, hd, hdn, rfl⟩
      obtain ⟨hne, hd⟩ := hjobs.mp hd
      obtain ⟨x, hx, hxj, hxs⟩ := a.entry hd hdn
      exact ⟨x, hentries.mpr ⟨fun hc => hne (a.job_unique h hc hd hdn), hx⟩, hxj, hxs⟩
  · exact fun u hu => a.entries u (hentries.mp hu).2
  · exact fun p hp => a.unsettled p (hjobs.mp hp).2
  · exact fun p hp => a.fresh p (hjobs.mp hp).2
  · obtain ⟨l1, l2, hj, -, -, herase⟩ := exists_split a.keys h
    change (if c.live then R.live - 1 else R.live) = (R.jobs.filter (·.1 != id)).countP _
    rw [a.live, herase, hj]
    cases hl : c.live <;> simp [hl]

end

lemma Agrees.jobOf?_eq_some_iff :
    R.table.jobOf? n = some id ↔ ∃ c, (id, c) ∈ R.jobs ∧ c.tableId = some n := by
  rw [jobOf?, entry?, map_eq_some_iff]
  constructor
  · rintro ⟨x, hx, rfl⟩
    obtain ⟨c, hc, hn, -⟩ := a.job_of_entry ((lookup_eq_some_iff_mem a.numbers).mp hx)
    exact ⟨c, hc, hn⟩
  · rintro ⟨c, hc, hn⟩
    obtain ⟨x, hx, hj, -⟩ := a.entry hc hn
    exact ⟨x, (lookup_eq_some_iff_mem a.numbers).mpr hx, hj⟩

lemma Agrees.enter (listed : Listing) (command : String) (fed : Bool) :
    (R.enter listed command fed).Agrees := by
  have hjobs : ∀ {i d}, (i, d) ∈ (R.enter listed command fed).jobs ↔ (i, d) ∈ R.jobs ∨
      (i = R.nextJob ∧ d = ⟨listed.map fun _ => R.table.freshId, .unstarted, none, false, command,
        .background, fed⟩) := by
    intro i d
    simp [Registry.enter]
  have hkeys : ((R.enter listed command fed).jobs.map fst).Nodup :=
    nodup_append_new a.keys a.numbered
  have hnumbered : ∀ p ∈ (R.enter listed command fed).jobs, p.1 < R.nextJob + 1 :=
    lt_of_mem_append_new a.numbered
  have hunsettled : ∀ p ∈ (R.enter listed command fed).jobs,
      p.2.state.isFinal = false ∧ p.2.status = none := by
    rintro ⟨i, d⟩ hp
    rcases hjobs.mp hp with hp | ⟨-, rfl⟩
    · exact a.unsettled _ hp
    · exact ⟨rfl, rfl⟩
  have hfresh : ∀ p ∈ (R.enter listed command fed).jobs, p.2.state = .unstarted →
      p.2.live = false := by
    rintro ⟨i, d⟩ hp
    rcases hjobs.mp hp with hp | ⟨-, rfl⟩
    · exact a.fresh _ hp
    · exact fun _ => rfl
  have hlive : R.live = (R.enter listed command fed).jobs.countP fun p => p.2.live := by
    rw [a.live]
    simp [Registry.enter, countP_append]
  rcases listed with _ | ⟨foreground, title⟩
  · refine ⟨hkeys, a.numbers, hnumbered, fun n i s => (a.listed n i s).trans ?_, a.entries,
      hunsettled, hfresh, hlive⟩
    constructor
    · rintro ⟨d, hd, hn, hs⟩
      exact ⟨d, hjobs.mpr (.inl hd), hn, hs⟩
    · rintro ⟨d, hd, hn, hs⟩
      rcases hjobs.mp hd with hd | ⟨-, rfl⟩
      · exact ⟨d, hd, hn, hs⟩
      · cases hn
  · have hperm : ((R.enter (some (foreground, title)) command fed).table.entries).Perm
        ((R.table.freshId, ⟨R.nextJob, title, .unstarted, none, R.table.nextSeq⟩) ::
          R.table.entries) :=
      perm_insertEntry _ _
    refine ⟨hkeys, ?_, hnumbered, fun n i s => ?_, fun u hu => ?_, hunsettled, hfresh, hlive⟩
    · refine (hperm.map fst).nodup_iff.mpr (nodup_cons.mpr ⟨?_, a.numbers⟩)
      intro hm
      obtain ⟨⟨n, x⟩, hx, rfl⟩ := mem_map.mp hm
      exact notin_freshId x hx
    · constructor
      · rintro ⟨x, hx, rfl, rfl⟩
        rcases mem_cons.mp (hperm.mem_iff.mp hx) with hx | hx
        · cases hx
          exact ⟨_, hjobs.mpr (.inr ⟨rfl, rfl⟩), rfl, rfl⟩
        · obtain ⟨d, hd, hdn, hds⟩ := a.job_of_entry hx
          exact ⟨d, hjobs.mpr (.inl hd), hdn, hds⟩
      · rintro ⟨d, hd, hdn, rfl⟩
        rcases hjobs.mp hd with hd | ⟨rfl, rfl⟩
        · obtain ⟨x, hx, hxj, hxs⟩ := a.entry hd hdn
          exact ⟨x, hperm.mem_iff.mpr (mem_cons_of_mem _ hx), hxj, hxs⟩
        · cases hdn
          exact ⟨_, hperm.mem_iff.mpr mem_cons_self, rfl, rfl⟩
    · rcases mem_cons.mp (hperm.mem_iff.mp hu) with rfl | hu
      · rfl
      · exact a.entries u hu

lemma Agrees.move (m : Move R R') : R'.Agrees := by
  cases m with
  | enter => exact a.enter _ _ _
  | launch ht h => exact (a.enter _ _ _).start h _
  | start h => exact a.start h _
  | adjust id h hl => exact a.adjust id h hl
  | enliven h hl hs => exact a.enliven h hl hs
  | take h => exact a.take _ _
  | @stop id c h =>
    refine .tell ?_ _ _
    split
    · exact (a.restate h rfl (by simp)).giveBack
    · exact a.restate h rfl (by simp)
  | resume h => exact (a.restate h rfl (by simp)).tell _ _
  | @leave id c state h hs status =>
    refine .tell ?_ _ _
    split
    · exact (a.without h hs status).giveBack
    · exact a.without h hs status

lemma Agrees.moves (h : ReflTransGen Move R R') : R'.Agrees := by
  induction h with
  | refl => exact a
  | tail _ m ih => exact ih.move m

end

/-! ### The terminal -/

/-- The job that has the terminal is the one in the foreground, and the console is paused as long as
there is one. -/
structure Owned (R : Registry) : Prop where
  holder : (R.owner = none ∧ R.table.foreground = none) ∨ ∃ id c n, (id, c) ∈ R.jobs ∧
    c.tableId = some n ∧ R.owner = some id ∧ R.table.foreground = some n
  paused : ∀ t, R.turn = some t → (t = some .pause ↔ R.owner.isSome = true)

lemma Agrees.foreground_ne (a : R.Agrees) (o : R.Owned) (h : (id, c) ∈ R.jobs)
    (hne : R.owner ≠ some id) (hn : c.tableId = some n) : R.table.foreground ≠ some n := by
  rcases o.holder with ⟨-, hf⟩ | ⟨i, d, m, hd, hdn, ho, hf⟩
  · simp [hf]
  · rw [hf]
    intro he
    cases he
    exact hne (ho.trans (congrArg some (a.job_unique h hn hd hdn)))

lemma Agrees.foreground_restate (a : R.Agrees) (h : (id, c) ∈ R.jobs)
    (hs : state.isFinal = false) (hstop : state = .stopped → ∀ n, c.tableId = some n →
      R.table.foreground ≠ some n) :
    (R.restate id c state).table.foreground = R.table.foreground := by
  rcases hn : c.tableId with _ | n
  · rw [table_restate_none hn]
  · simp only [Registry.restate, hn, Option.elim, foreground_update (a.contains h hn), hs]
    refine if_neg ?_
    rintro ⟨hor, hf⟩
    exact hstop (by simpa using hor) n hn hf

lemma owned_giveBack (hf : R.table.foreground = none) : R.giveBack.Owned := by
  refine ⟨.inl ⟨rfl, hf⟩, fun t ht => ?_⟩
  obtain ⟨-, -, rfl⟩ := map_eq_some_iff.mp ht
  simp [giveBack]

lemma owned_take (a : R.Agrees) (h : (id, c) ∈ R.jobs) (hn : c.tableId = some n) :
    (R.take id (some n)).Owned := by
  refine ⟨.inr ⟨id, c, n, h, hn, rfl, ?_⟩, fun t ht => ?_⟩
  · simp [take, setForeground, a.contains h hn]
  · obtain ⟨-, -, rfl⟩ := map_eq_some_iff.mp ht
    simp [take]

/-- What the job in the foreground leaves when it stops or ends. -/
lemma foreground_update_holder (a : R.Agrees) (o : R.Owned) (h : (id, c) ∈ R.jobs)
    (ho : R.owner = some id) (hs : state.isFinal = true ∨ state = .stopped) (status : Option Int) :
    (c.tableId.elim R.table fun n => (R.table.update n state status).2).foreground = none := by
  rcases o.holder with ⟨hnone, -⟩ | ⟨i, d, n, hd, hdn, hoi, hf⟩
  · cases ho.symm.trans hnone
  · cases ho.symm.trans hoi
    rw [eq_of_number a.keys hd h] at hdn
    simp only [hdn, Option.elim, foreground_update (a.contains h hdn), hf]
    exact if_pos ⟨hs, trivial⟩

section

variable (o : R.Owned)
include o

/-- The terminal stays with the job that has it as long as that job has its number and is in the
foreground. -/
lemma Owned.keep (howner : R'.owner = R.owner) (hturn : R'.turn = R.turn)
    (hf : R'.table.foreground = R.table.foreground)
    (hjobs : ∀ i d, (i, d) ∈ R.jobs → R.owner = some i → ∃ d', (i, d') ∈ R'.jobs ∧
      d'.tableId = d.tableId) : R'.Owned := by
  refine ⟨?_, fun t ht => ?_⟩
  · rw [howner, hf]
    rcases o.holder with hnone | ⟨i, d, n, hd, hdn, ho, hfg⟩
    · exact .inl hnone
    · obtain ⟨d', hd', ht⟩ := hjobs i d hd ho
      exact .inr ⟨i, d', n, hd', ht.trans hdn, ho, hfg⟩
  · rw [howner]
    exact o.paused t (hturn ▸ ht)

lemma Owned.recard (hf : ∀ c, (id, c) ∈ R.jobs → (f c).tableId = c.tableId) :
    ({ R with jobs := assign R.jobs id f, live } : Registry).Owned := by
  refine o.keep rfl rfl rfl fun i d hd _ => ?_
  by_cases hi : i = id
  · subst hi
    exact ⟨f d, mem_adjust hd f, hf d hd⟩
  · exact ⟨d, mem_assign.mpr (.inl ⟨hi, hd⟩), rfl⟩

lemma Owned.tell (tableId : Option ℕ) (info : ℕ → JobInfo) :
    (R.tell tableId info).Owned := ⟨o.holder, o.paused⟩

lemma Owned.enter (title : Option String) (command : String) (fed : Bool) :
    (R.enter (title.map (false, ·)) command fed).Owned := by
  refine o.keep rfl rfl ?_ fun i d hd _ => ⟨d, mem_append_left _ hd, rfl⟩
  cases title <;> rfl

section

variable (a : R.Agrees) (h : (id, c) ∈ R.jobs)
include a h

lemma Owned.restate (hs : state.isFinal = false) (hstop : state = .stopped → R.owner ≠ some id) :
    (R.restate id c state).Owned := by
  have hf := a.foreground_restate h hs fun he n hn => a.foreground_ne o h (hstop he) hn
  refine o.keep rfl rfl hf fun i d hd _ => ?_
  by_cases hi : i = id
  · subst hi
    cases eq_of_number a.keys hd h
    exact ⟨_, (mem_restate h).mpr (.inr ⟨rfl, rfl⟩), rfl⟩
  · exact ⟨d, (mem_restate h).mpr (.inl ⟨hi, hd⟩), rfl⟩

lemma Owned.run (mode : Mode) : (R.run id c mode).Owned := by
  have o' : (R.adjust id ({ · with mode })).Owned := o.recard fun _ _ => rfl
  exact o'.restate (a.adjust id (alike_mode mode) fun _ => rfl) (mem_adjust h _) rfl (by simp)

lemma Owned.stop : (R.stop id c).Owned := by
  refine .tell ?_ _ _
  split
  · rename_i hr
    have ho : R.owner = some id := by
      rcases hr with ho | ⟨hn, hf⟩
      · exact ho
      · obtain ⟨n, hn⟩ := isSome_iff_exists.mp hn
        by_contra ho
        exact a.foreground_ne o h ho hn (hf.trans hn)
    exact owned_giveBack (foreground_update_holder a o h ho (.inr rfl) none)
  · rename_i hr
    exact o.restate a h rfl fun _ ho => hr (.inl ho)

lemma Owned.leave (hs : state.isFinal = true) (status : Int) :
    (R.leave id c state status).Owned := by
  refine .tell ?_ _ _
  split
  · rename_i ho
    exact owned_giveBack (foreground_update_holder a o h ho (.inl hs) (some status))
  · rename_i ho
    refine o.keep rfl rfl ?_ fun i d hd hi => ⟨d, ?_, rfl⟩
    · rcases hn : c.tableId with _ | n
      · simp only [without, hn, Option.elim]
      · simp only [without, hn, Option.elim, foreground_update (a.contains h hn)]
        exact if_neg fun hf => a.foreground_ne o h ho hn hf.2
    · refine mem_filter.mpr ⟨hd, ?_⟩
      rw [bne_iff_ne]
      rintro rfl
      exact ho hi

end

end

/-- All is as it should be. -/
structure Kept (R : Registry) : Prop extends Agrees R, Owned R

lemma Kept.move (k : R.Kept) (m : Move R R') : R'.Kept := by
  refine ⟨k.toAgrees.move m, ?_⟩
  have a := k.toAgrees
  have o := k.toOwned
  cases m with
  | enter => exact o.enter _ _ _
  | @launch title command fed c ht h =>
    have a' := a.enter (some (true, title)) command fed
    have hn : c.tableId = some R.table.freshId := by
      rw [eq_of_number a'.keys h (mem_append_right _ (mem_singleton_self _))]
      rfl
    have htaken := owned_take a' h hn
    rw [← hn] at htaken
    exact htaken.run (a'.take _ _) h .foreground
  | start h => exact o.run a h .background
  | adjust id h hl => exact o.recard fun c _ => (h c).tableId
  | @enliven id c h => exact o.recard fun d hd => by rw [eq_of_number a.keys hd h]
  | @take id n h =>
    obtain ⟨c, hc, hn⟩ := a.jobOf?_eq_some_iff.mp h
    exact owned_take a hc hn
  | stop h => exact o.stop a h
  | resume h => exact (o.restate a h rfl (by simp)).tell _ _
  | leave h hs status => exact o.leave a h hs status

lemma Kept.moves (k : R.Kept) (h : ReflTransGen Move R R') : R'.Kept := by
  induction h with
  | refl => exact k
  | tail _ m ih => exact ih.move m

/-- A console that has been paused once is from then on paused or has gone on. -/
lemma turn_of_moves (h : ReflTransGen Move R R') (ht : R.turn ≠ some none) :
    R'.turn ≠ some none := by
  have hmap : ∀ (t : Option (Option ConsoleEvent)) (ev : ConsoleEvent),
      t.map (fun _ => some ev) ≠ some none := by
    intro t ev
    cases t <;> simp
  induction h with
  | refl => exact ht
  | tail _ m ih =>
    cases m with
    | enter | start | adjust | enliven | resume => exact ih
    | launch | take => exact hmap _ _
    | stop h =>
      simp only [stop, tell]
      split
      · exact hmap _ _
      · exact ih
    | leave h hs status =>
      simp only [leave, tell]
      split
      · exact hmap _ _
      · exact ih

/-- A move nobody is told of. -/
def Silent (R R' : Registry) : Prop := Move R R' ∧ R'.news = R.news

lemma moves_of_silent (h : ReflTransGen Silent R R') : ReflTransGen Move R R' :=
  h.lift id fun _ _ m => m.1

lemma news_of_silent (h : ReflTransGen Silent R R') : R'.news = R.news := by
  induction h with
  | refl => rfl
  | tail _ m ih => exact m.2.trans ih

lemma silent_mode (R : Registry) (id : JobId) (mode : Mode) :
    Silent R (R.adjust id ({ · with mode })) :=
  ⟨.adjust R id (alike_mode mode) fun _ => rfl, rfl⟩

/-! ### Jobs that are fed -/

lemma silent_feed (R : Registry) (id : JobId) : Silent R (R.feed id) :=
  ⟨.adjust R id (fun _ => ⟨rfl, rfl, rfl, rfl, nofun⟩) fun _ => rfl, rfl⟩

lemma feed_comm (R : Registry) (i k : JobId) : (R.feed i).feed k = (R.feed k).feed i := by
  simp only [feed, adjust, assign, List.map_map]
  congr 1
  refine map_congr_left fun ⟨n, c⟩ _ => ?_
  simp only [Function.comp]
  split_ifs <;> rfl

lemma foldl_feed (ids : List JobId) (R : Registry) (i : JobId) :
    ids.foldl feed (R.feed i) = (ids.foldl feed R).feed i := by
  induction ids generalizing R with
  | nil => rfl
  | cons k ids ih => rw [foldl_cons, feed_comm, ih, foldl_cons]

/-- Jobs keep their numbers when they are fed, and are as live as before. -/
lemma foldl_feed_jobs (ids : List JobId) (R : Registry) :
    (ids.foldl feed R).jobs.map (fun p => (p.1, p.2.live)) =
      R.jobs.map fun p => (p.1, p.2.live) := by
  induction ids generalizing R with
  | nil => rfl
  | cons k ids ih =>
    rw [foldl_cons, ih, feed, adjust, assign, List.map_map]
    refine map_congr_left fun p _ => ?_
    simp only [Function.comp]
    split <;> rfl

lemma feed_enter (listed : Listing) (command : String) (fed : Bool)
    (h : id ≠ R.nextJob) :
    (R.enter listed command fed).feed id = (R.feed id).enter listed command fed := by
  simp only [feed, adjust, enter, assign_append]
  simp [assign, h.symm]

lemma feed_enter_new (a : R.Agrees) (listed : Listing) (command : String) :
    (R.enter listed command false).feed R.nextJob = R.enter listed command true := by
  have hold : assign R.jobs R.nextJob ({ · with fed := true }) = R.jobs :=
    assign_of_notin fun d hd => Nat.lt_irrefl _ (a.numbered _ hd)
  simp only [feed, adjust, enter, assign_append, hold]
  simp [assign]

/-! ### Titles -/

/-- A job that no other job feeds is listed by its own text. -/
def Titled (R : Registry) : Prop :=
  ∀ id c n x, (id, c) ∈ R.jobs → c.tableId = some n → (n, x) ∈ R.table.entries → c.fed = false →
    x.command = c.command

section

variable (t : R.Titled)
include t

lemma Titled.mono (hjobs : ∀ i d, (i, d) ∈ R'.jobs → ∃ c, (i, c) ∈ R.jobs ∧ d.tableId = c.tableId ∧
      d.command = c.command ∧ (d.fed = false → c.fed = false))
    (hentries : ∀ n x, (n, x) ∈ R'.table.entries → ∃ y, (n, y) ∈ R.table.entries ∧
      x.command = y.command) : R'.Titled := by
  intro i d n x hd hn hx hf
  obtain ⟨c, hc, htable, hcommand, hfed⟩ := hjobs i d hd
  obtain ⟨y, hy, htext⟩ := hentries n x hx
  rw [htext, hcommand]
  exact t i c n y hc (htable.symm.trans hn) hy (hfed hf)

lemma Titled.recard (hf : ∀ c, (id, c) ∈ R.jobs → Alike c (f c)) :
    ({ R with jobs := assign R.jobs id f, live } : Registry).Titled := by
  refine t.mono (fun i d hd => ?_) fun n x hx => ⟨x, hx, rfl⟩
  rcases mem_assign.mp hd with ⟨-, hd⟩ | ⟨rfl, c, hc, rfl⟩
  · exact ⟨d, hd, rfl, rfl, fun h => h⟩
  · exact ⟨c, hc, (hf c hc).tableId, (hf c hc).command, (hf c hc).fed⟩

lemma Titled.restate (h : (id, c) ∈ R.jobs)
    (hs : state.isFinal = false) : (R.restate id c state).Titled := by
  refine t.mono (fun i d hd => ?_) fun n x hx => ?_
  · rcases (mem_restate h).mp hd with ⟨-, hd⟩ | ⟨rfl, rfl⟩
    · exact ⟨d, hd, rfl, rfl, fun h => h⟩
    · exact ⟨c, h, rfl, rfl, fun h => h⟩
  · rcases hn : c.tableId with _ | m
    · rw [table_restate_none hn] at hx
      exact ⟨x, hx, rfl⟩
    · rw [entries_restate_some hs hn] at hx
      rcases mem_assign.mp hx with ⟨-, hx⟩ | ⟨rfl, y, hy, rfl⟩
      · exact ⟨x, hx, rfl⟩
      · exact ⟨y, hy, rfl⟩

lemma Titled.take (id : JobId) (tableId : Option ℕ) : (R.take id tableId).Titled := by
  refine t.mono (fun i d hd => ⟨d, hd, rfl, rfl, fun h => h⟩) fun n x hx => ⟨x, ?_, rfl⟩
  rwa [entries_take] at hx

lemma Titled.run (h : (id, c) ∈ R.jobs) (mode : Mode) : (R.run id c mode).Titled := by
  have t' : (R.adjust id ({ · with mode })).Titled := t.recard fun c _ => alike_mode mode c
  exact t'.restate (mem_adjust h _) rfl

lemma Titled.enter (a : R.Agrees) {listed : Listing} {command : String}
    {fed : Bool} (ht : fed = false → ∀ p, listed = some p → p.2 = command) :
    (R.enter listed command fed).Titled := by
  intro i d n x hd hn hx hf
  have hentry : (n, x) ∈ R.table.entries ∨ ∃ p, listed = some p ∧ n = R.table.freshId ∧
      x.command = p.2 := by
    rcases listed with _ | p
    · exact .inl hx
    · rcases mem_cons.mp ((perm_insertEntry _ _).mem_iff.mp hx) with hx | hx
      · cases hx
        exact .inr ⟨p, rfl, rfl, rfl⟩
      · exact .inl hx
  rcases mem_append.mp hd with hd | hd
  · rcases hentry with hx | ⟨p, -, rfl, -⟩
    · exact t i d n x hd hn hx hf
    · obtain ⟨y, hy, -⟩ := a.entry hd hn
      exact absurd hy (notin_freshId y)
  · cases mem_singleton.mp hd
    obtain ⟨p, hp, rfl⟩ := map_eq_some_iff.mp hn
    rcases hentry with hx | ⟨q, hq, -, htext⟩
    · exact absurd hx (notin_freshId x)
    · exact htext.trans (ht hf q hq)

lemma Titled.without (hs : state.isFinal = true) (status : Int) :
    (R.without id c state status).Titled := by
  refine t.mono (fun i d hd => ⟨d, mem_of_mem_filter hd, rfl, rfl, fun h => h⟩)
    fun n x hx => ⟨x, ?_, rfl⟩
  rcases hn : c.tableId with _ | m
  · simpa [Registry.without, hn] using hx
  · simp only [Registry.without, hn, Option.elim, entries_update_final hs] at hx
    exact mem_of_mem_filter hx

lemma Titled.move (a : R.Agrees) (m : Move R R') : R'.Titled := by
  cases m with
  | enter ht =>
    refine t.enter a fun hf p hp => ?_
    obtain ⟨s, hs, rfl⟩ := map_eq_some_iff.mp hp
    exact ht hf s hs
  | launch ht h =>
    refine ((t.enter a fun hf p hp => ?_).take _ _).run h .foreground
    cases hp
    exact ht hf
  | start h => exact t.run h .background
  | adjust id h hl => exact t.recard fun c _ => h c
  | @enliven id c h =>
    refine t.recard fun d hd => ?_
    rw [eq_of_number a.keys hd h]
    exact ⟨rfl, rfl, rfl, rfl, fun hf => hf⟩
  | take h => exact t.take _ _
  | @stop id c h =>
    have t' : (R.restate id c .stopped).Titled := t.restate h rfl
    unfold stop
    split <;> exact t'
  | resume h => exact t.restate h rfl
  | @leave id c state h hs status =>
    have t' : (R.without id c state status).Titled := t.without hs status
    unfold leave
    split <;> exact t'

lemma Titled.moves (a : R.Agrees) (h : ReflTransGen Move R R') : R'.Titled := by
  induction h with
  | refl => exact t
  | tail h m ih => exact ih.move (a.moves h) m

end

/-! ### Numbers of jobs -/

/-- A job that is there later on was there before, or is new. -/
structure Later (R R' : Registry) : Prop where
  nextJob : R.nextJob ≤ R'.nextJob
  jobs : ∀ id ∈ R'.jobs.map Prod.fst, id ∈ R.jobs.map Prod.fst ∨ R.nextJob ≤ id

lemma Later.of_subset (hn : R'.nextJob = R.nextJob)
    (hj : R'.jobs.map fst ⊆ R.jobs.map fst) : Later R R' :=
  ⟨Nat.le_of_eq hn.symm, fun _ hid => .inl (hj hid)⟩

lemma Later.trans {R'' : Registry} (h1 : Later R R') (h2 : Later R' R'') : Later R R'' := by
  refine ⟨Nat.le_trans h1.nextJob h2.nextJob, fun id hid => ?_⟩
  rcases h2.jobs id hid with hid | hid
  · exact h1.jobs id hid
  · exact .inr (Nat.le_trans h1.nextJob hid)

lemma later_enter (R : Registry) (listed : Listing) (command : String) (fed : Bool) :
    Later R (R.enter listed command fed) := by
  refine ⟨Nat.le_succ _, fun id hid => ?_⟩
  simp only [enter, map_append, map_cons, map_nil, mem_append, mem_singleton] at hid
  exact hid.imp_right fun h => Nat.le_of_eq h.symm

lemma later_restate (R : Registry) (id : JobId) (c : Card) (state : JobState) :
    Later R (R.restate id c state) :=
  .of_subset rfl (by rw [restate, fst_assign]; exact List.Subset.refl _)

lemma later_start (R : Registry) (id : JobId) (c : Card) (mode : Mode) :
    Later R (R.start id c mode) := by
  refine .of_subset ?_ (by rw [jobs_start, fst_assign]; exact .refl _)
  unfold start
  split <;> rfl

lemma later_enliven (R : Registry) (id : JobId) (c : Card) : Later R (R.enliven id c) :=
  .of_subset rfl (by rw [enliven, fst_assign]; exact List.Subset.refl _)

lemma later_without (R : Registry) (id : JobId) (c : Card) (state : JobState) (status : Int) :
    Later R (R.without id c state status) :=
  .of_subset rfl (map_subset _ filter_sublist.subset)

lemma Move.later (m : Move R R') : Later R R' := by
  cases m with
  | enter => exact later_enter _ _ _ _
  | launch ht h => exact (later_enter _ _ _ _).trans (later_start _ _ _ _)
  | start h => exact later_start _ _ _ _
  | adjust id h hl => exact .of_subset rfl (by rw [Registry.adjust, fst_assign]; exact .refl _)
  | enliven h hl hs => exact later_enliven _ _ _
  | take h => exact .of_subset rfl (List.Subset.refl _)
  | @stop id c h =>
    have hlater := later_restate R id c .stopped
    unfold Registry.stop
    split <;> exact ⟨hlater.nextJob, hlater.jobs⟩
  | @resume id c h =>
    have hlater := later_restate R id c .running
    exact ⟨hlater.nextJob, hlater.jobs⟩
  | @leave id c state h hs status =>
    have hlater := later_without R id c state status
    unfold Registry.leave
    split <;> exact ⟨hlater.nextJob, hlater.jobs⟩

lemma later_of_moves (h : ReflTransGen Move R R') : Later R R' := by
  induction h with
  | refl => exact .of_subset rfl (List.Subset.refl _)
  | tail _ m ih => exact ih.trans m.later

end Registry

end JobShell
