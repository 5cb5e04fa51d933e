import JobShell.Chain
import Mathlib.Data.List.Basic

/-!
Chains in parts.

All that goes from one routine of a chain to the next is what flows between them and the state of
the world; everything else is only collected. Main statements: to run a chain is to run its first
part and then the rest on the output of that; and a chain is ready just once, by the call that makes
its start and its input complete.
-/

namespace JobShell.Chain

open List

variable {failedStatus : Int} {p q r : Progress} {l : Launch} {launches : List Launch}

namespace Progress

/-- What has been collected when one part of a chain is done after another. -/
def andThen (p q : Progress) : Progress where
  flow := q.flow
  stderr := p.stderr ++ q.stderr
  status := q.status
  escapes := p.escapes ++ q.escapes
  finalizers := p.finalizers ++ q.finalizers
  lastCall := q.lastCall <|> p.lastCall
  world := q.world

/-- The beginning of a chain that goes on from here. -/
def fresh (p : Progress) : Progress := { flow := p.flow, world := p.world }

lemma andThen_assoc (p q r : Progress) : (p.andThen q).andThen r = p.andThen (q.andThen r) := by
  simp only [andThen, append_assoc, mk.injEq, true_and, and_true]
  cases r.lastCall <;> rfl

lemma fresh_andThen (p q : Progress) : (p.andThen q).fresh = q.fresh := rfl

/-- Finalizers are collected from routines that were called. -/
def Called (p : Progress) : Prop := p.finalizers ≠ [] → p.lastCall.isSome = true

lemma called_fresh (p : Progress) : p.fresh.Called := fun h => absurd rfl h

end Progress

open Progress

/-- A launch takes what flows and the world, and adds to what has been collected. -/
lemma advance_eq (failedStatus : Int) (p : Progress) (l : Launch) :
    advance failedStatus p l = p.andThen (advance failedStatus p.fresh l) := by
  simp only [advance, fresh, Progress.call]
  rcases Routes.plan p.world l.redirections with ⟨message | routes, world⟩
  · simp [andThen]
  · dsimp only
    rcases l.routine with _ | routine
    · dsimp only
      split <;> simp [andThen]
    · dsimp only
      split <;> simp [andThen]

lemma foldl_advance (failedStatus : Int) (p : Progress) (hne : launches ≠ []) :
    launches.foldl (advance failedStatus) p =
      p.andThen (launches.foldl (advance failedStatus) p.fresh) := by
  induction launches generalizing p with
  | nil => exact absurd rfl hne
  | cons l launches ih =>
    by_cases hlast : launches = []
    · subst hlast
      exact advance_eq failedStatus p l
    · have hfresh : (advance failedStatus p l).fresh = (advance failedStatus p.fresh l).fresh := by
        rw [advance_eq failedStatus p l, fresh_andThen]
      calc (l :: launches).foldl (advance failedStatus) p
          = (advance failedStatus p l).andThen
              (launches.foldl (advance failedStatus) (advance failedStatus p l).fresh) := ih _ hlast
        _ = (p.andThen (advance failedStatus p.fresh l)).andThen
              (launches.foldl (advance failedStatus) (advance failedStatus p.fresh l).fresh) := by
            rw [hfresh, advance_eq failedStatus p l]
        _ = p.andThen ((advance failedStatus p.fresh l).andThen
              (launches.foldl (advance failedStatus) (advance failedStatus p.fresh l).fresh)) :=
            andThen_assoc _ _ _
        _ = p.andThen ((l :: launches).foldl (advance failedStatus) p.fresh) := by
            rw [← ih _ hlast]
            rfl

lemma Progress.Called.advance (h : p.Called) (l : Launch) : (advance failedStatus p l).Called := by
  simp only [Called, Chain.advance]
  rcases Routes.plan p.world l.redirections with ⟨message | routes, world⟩
  · exact h
  · dsimp only
    split <;> exact fun _ => rfl

lemma Progress.Called.foldl (h : p.Called) (launches : List Launch) :
    (launches.foldl (Chain.advance failedStatus) p).Called := by
  induction launches generalizing p with
  | nil => exact h
  | cons l launches ih => exact ih (h.advance l)

/-! ### Outcomes -/

/-- The finalizers that a chain leaves to be called. -/
def Outcome.finalizers (o : Outcome) : List Finalizer := (o.pending.map (·.finalizers)).getD []

lemma Progress.Called.finalizers_outcome (h : p.Called) : p.outcome.finalizers = p.finalizers := by
  rcases hf : p.finalizers with _ | ⟨f, fs⟩
  · simp [Outcome.finalizers, outcome, hf]
  · obtain ⟨call, hcall⟩ := Option.isSome_iff_exists.mp (h (by simp [hf]))
    simp [Outcome.finalizers, outcome, hf, hcall]

/-- The state of a chain that has been run. -/
def progress (failedStatus : Int) (launches : List Launch) (input : Bytes) (w : World) : Progress :=
  launches.foldl (advance failedStatus) { flow := input, world := w }

lemma called_progress (failedStatus : Int) (launches : List Launch) (input : Bytes) (w : World) :
    (progress failedStatus launches input w).Called :=
  (called_fresh { flow := input, world := w }).foldl launches

lemma progress_append (failedStatus : Int) (first : List Launch) {rest : List Launch}
    (hne : rest ≠ []) (input : Bytes) (w : World) : progress failedStatus (first ++ rest) input w =
      (progress failedStatus first input w).andThen (progress failedStatus rest
        (progress failedStatus first input w).flow
          (progress failedStatus first input w).world) := by
  rw [progress, foldl_append]
  exact foldl_advance failedStatus _ hne

lemma run_eq (c : Chain) (failedStatus : Int) (w : World) (hne : c.launches ≠ []) :
    c.run failedStatus w = ((progress failedStatus c.launches c.input w).outcome,
      { c with launches := [], input := [] },
        (progress failedStatus c.launches c.input w).world) := by
  have hempty : c.launches.isEmpty = false := by simpa using hne
  simp only [run, runAll, hempty, Bool.false_eq_true, if_false, progress]

lemma pending_eq_some {pending : Pending} : p.outcome.pending = some pending ↔
    p.finalizers ≠ [] ∧ p.lastCall = some pending.call ∧ pending.finalizers = p.finalizers := by
  rcases hf : p.finalizers with _ | ⟨f, fs⟩
  · simp [outcome, hf]
  · simp only [outcome, hf, isEmpty_cons, Bool.false_eq_true, if_false, Option.map_eq_some_iff]
    constructor
    · rintro ⟨call, hcall, rfl⟩
      exact ⟨cons_ne_nil _ _, hcall, rfl⟩
    · rintro ⟨-, hcall, hfs⟩
      exact ⟨pending.call, hcall, by rw [← hfs]⟩

/-- A chain in two parts runs as its first part on the input, and then the rest on the output of the
first part and in the world as that has left it: standard output and status are those of the rest,
and what is written to standard error, the variables set beyond the shell and the finalizers to be
called are those of the first part and then those of the rest. If the rest has finalizers, all of
them are called as those of the rest are. -/
theorem runs_in_parts (c : Chain) (first rest : List Launch) (hfirst : first ≠ [])
    (hrest : rest ≠ []) (failedStatus : Int) (w : World) :
    let (a, _, wa) := ({ c with launches := first } : Chain).run failedStatus w
    let (b, _, wb) := ({ c with launches := rest, input := a.stdout } : Chain).run failedStatus wa
    let (o, _, wo) := ({ c with launches := first ++ rest } : Chain).run failedStatus w
    o.stdout = b.stdout ∧ o.status = b.status ∧ wo = wb ∧
      o.stderr = a.stderr ++ b.stderr ∧ o.escapes = a.escapes ++ b.escapes ∧
      o.finalizers = a.finalizers ++ b.finalizers ∧
      ∀ pending, b.pending = some pending → o.pending.map (·.call) = some pending.call := by
  have happend := progress_append failedStatus first hrest c.input w
  have hall := called_progress failedStatus (first ++ rest) c.input w
  have hone := called_progress failedStatus first c.input w
  rw [run_eq _ _ _ hfirst, run_eq { c with launches := first ++ rest } _ _ (by simp [hrest])]
  dsimp only
  rw [run_eq _ _ _ hrest]
  dsimp only [outcome]
  rw [happend] at hall ⊢
  generalize progress failedStatus first c.input w = p at *
  have htwo := called_progress failedStatus rest p.flow p.world
  generalize progress failedStatus rest p.flow p.world = q at *
  refine ⟨rfl, rfl, rfl, rfl, rfl, ?_, fun pending hpending => ?_⟩
  · change (p.andThen q).outcome.finalizers = p.outcome.finalizers ++ q.outcome.finalizers
    rw [hall.finalizers_outcome, hone.finalizers_outcome, htwo.finalizers_outcome]
    rfl
  · obtain ⟨hne, hcall, -⟩ := pending_eq_some.mp hpending
    have hpend : (p.andThen q).outcome.pending =
        some ⟨p.finalizers ++ q.finalizers, pending.call⟩ := by
      refine pending_eq_some.mpr ⟨by simp [andThen, hne], ?_, rfl⟩
      simp [andThen, hcall]
    change (p.andThen q).outcome.pending.map (·.call) = some pending.call
    rw [hpend]
    rfl

/-- A routine that passes its input on, sets a variable beyond the shell and has a finalizer. -/
def relay : Routine where
  body call w := (.status 3, { stdout := call.stdin, escapes := [(call.name, .int 1)] }, w)
  finalizers := [fun _ w => ({}, w)]

/-- `one | two <none`, where the file is missing. -/
def relays : List Launch :=
  [{ name := "one", routine := some relay },
    { name := "two", redirections := [⟨.input, 0, .file "none"⟩], routine := some relay }]

/-- `gone | three`, where the first command is missing. -/
def strays : List Launch := [{ name := "gone" }, { name := "three", routine := some relay }]

theorem runs_in_parts_relays :
    relays ≠ [] ∧ strays ≠ [] ∧
    let (o, _, _) := ({ launches := relays ++ strays, input := [104, 105] } : Chain).run 127 {}
    o.stdout = [] ∧ o.status = 3 ∧ o.escapes.map (·.1) = ["one", "three"] ∧
      o.finalizers.length = 2 ∧
      o.stderr = Text.encode "two: none: No such file or directory (os error 2)\n" ++
        Text.encode "gone: command not found\n" := by
  have hfirst : relays ≠ [] := by simp [relays]
  have hrest : strays ≠ [] := by simp [strays]
  obtain ⟨hout, hstatus, -, herr, hescapes, hfin, -⟩ :=
    runs_in_parts { launches := [], input := [104, 105] } relays strays hfirst hrest 127 {}
  refine ⟨hfirst, hrest, hout.trans ?_, hstatus.trans ?_, (congrArg _ hescapes).trans ?_,
    (congrArg _ hfin).trans ?_, herr.trans ?_⟩
  all_goals decide +kernel

/-! ### When a chain runs -/

/-- What is asked of a chain before it runs. -/
inductive Call where
  | start (taps : Taps)
  | write (data : Bytes)
  | close

namespace Call

def starts : Call → Bool
  | .start _ => true
  | _ => false

/-- Whether the input is complete from here on. -/
def closes : Call → Bool
  | .start taps => !taps.stdin
  | .write _ => false
  | .close => true

def data : Call → Bytes
  | .write data => data
  | _ => []

end Call

/-- Follows a call, and says whether the chain can run now. -/
def call (c : Chain) : Call → Bool × Chain
  | .start taps => c.start taps
  | .write data => (false, c.write data)
  | .close => c.close

def after (c : Chain) (as : List Call) : Chain := as.foldl (fun c a => (c.call a).2) c

def answers (c : Chain) : List Call → List Bool
  | [] => []
  | a :: as => (c.call a).1 :: (c.call a).2.answers as

/-- Whether there was a start and the input was completed. -/
def complete (as : List Call) : Bool := as.any Call.starts && as.any Call.closes

/-- What was written before the input was complete. -/
def written : List Call → Bytes
  | [] => []
  | a :: as => if a.closes then [] else a.data ++ written as

/-- A chain after the calls `as`. -/
structure Called (ls : List Launch) (as : List Call) (c : Chain) : Prop where
  launches : c.launches = ls
  input : c.input = written as
  started : c.started = as.any Call.starts
  closed : c.closed = as.any Call.closes
  queued : c.queued = complete as

variable {ls : List Launch} {as : List Call} {c : Chain}

lemma written_snoc (as : List Call) (a : Call) : written (as ++ [a]) =
    if as.any Call.closes then written as else written as ++ a.data := by
  induction as with
  | nil => cases a <;> simp [written, Call.closes, Call.data]
  | cons b as ih =>
    cases h : b.closes
    · simp only [cons_append, written, h, ih, any_cons]
      grind
    · simp [written, h]

/-- What a call does to a chain that has said whether it can run. -/
lemma call_eq (hq : c.queued = (c.started && c.closed)) (a : Call) :
    c.call a = ((c.started || a.starts) && (c.closed || a.closes) && !c.queued,
      { c with
        input := if c.closed then c.input else c.input ++ a.data
        started := c.started || a.starts
        closed := c.closed || a.closes
        queued := (c.started || a.starts) && (c.closed || a.closes) }) := by
  obtain ⟨ls, input, closed, started, queued⟩ := c
  obtain rfl : queued = (started && closed) := hq
  cases a with
  | start taps =>
    simp only [call, start, ready, Call.starts, Call.closes, Call.data]
    grind
  | write data =>
    cases closed <;> simp [call, write, Call.starts, Call.closes, Call.data]
  | close =>
    simp only [call, close, ready, Call.starts, Call.closes, Call.data]
    grind

/-- One more call: the chain can run by it just if all that it takes is there by it. -/
lemma Called.call (h : Called ls as c) (a : Call) :
    Called ls (as ++ [a]) (c.call a).2 ∧
      (c.call a).1 = (complete (as ++ [a]) && !complete as) := by
  have hq : c.queued = (c.started && c.closed) := by rw [h.queued, h.started, h.closed, complete]
  rw [call_eq hq]
  refine ⟨⟨h.launches, ?_, ?_, ?_, ?_⟩, ?_⟩ <;>
    simp [written_snoc, complete, h.input, h.started, h.closed, h.queued]

lemma Called.after (h : Called ls as c) (bs : List Call) : Called ls (as ++ bs) (c.after bs) := by
  induction bs generalizing as c with
  | nil => simpa [after] using h
  | cons b bs ih => simpa [after] using ih (h.call b).1

lemma Called.answers (h : Called ls as c) (bs : List Call) (k : ℕ) :
    (c.answers bs)[k]? = some true ↔
      complete (as ++ bs.take (k + 1)) = true ∧ complete (as ++ bs.take k) = false := by
  induction bs generalizing as c k with
  | nil => simp [answers]
  | cons b bs ih =>
    obtain ⟨hnext, hanswer⟩ := h.call b
    cases k with
    | zero => simp [answers, hanswer]
    | succ k => simpa [answers] using ih hnext k

/-- What was there stays there. -/
lemma complete_append (h : complete as = true) (bs : List Call) : complete (as ++ bs) = true := by
  simp_all [complete]

lemma Called.count_answers (h : Called ls as c) (bs : List Call) :
    (c.answers bs).count true ≤ if complete as then 0 else 1 := by
  induction bs generalizing as c with
  | nil => simp [Chain.answers]
  | cons b bs ih =>
    obtain ⟨hnext, hanswer⟩ := h.call b
    have hle := ih hnext
    rw [Chain.answers, count_cons, hanswer]
    rcases has : complete as
    · rcases hb : complete (as ++ [b]) <;> simp_all
    · simpa [complete_append has] using hle

/-- A chain can run by one call at most: the first one by which it was both started and closed. It
then runs on all that was written before it was closed, whatever is written after that. -/
theorem ready_once (failedStatus : Int) (launches : List Launch) (as : List Call) :
    (∀ k, (answers { launches } as)[k]? = some true ↔
      complete (as.take (k + 1)) = true ∧ ∀ n ≤ k, complete (as.take n) = false) ∧
    (answers { launches } as).count true ≤ 1 ∧
    ∀ w, ((after { launches } as).run failedStatus w).1 =
      (runAll failedStatus launches (written as) w).1 := by
  have hnew : Called launches [] { launches } := ⟨rfl, rfl, rfl, rfl, rfl⟩
  have hanswers : ∀ k, (answers { launches } as)[k]? = some true ↔
      complete (as.take (k + 1)) = true ∧ ∀ n ≤ k, complete (as.take n) = false := by
    intro k
    rw [hnew.answers as k]
    refine and_congr_right fun _ => ⟨fun hk n hn => ?_, fun h => h k (Nat.le_refl k)⟩
    rw [← Bool.not_eq_true] at hk ⊢
    intro hcomplete
    rw [← take_append_drop n (as.take k), take_take, Nat.min_eq_left hn] at hk
    exact hk (complete_append hcomplete _)
  refine ⟨hanswers, ?_, fun w => ?_⟩
  · exact hnew.count_answers as
  · have h := hnew.after as
    rw [run, h.launches, h.input]
    rfl

end JobShell.Chain
