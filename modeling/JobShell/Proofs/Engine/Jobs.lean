import JobShell.Engine.Jobs
import Mathlib.Data.List.Nodup
import Mathlib.Tactic.Common

/-!
What operations on jobs leave alone.

Each operation is described by the jobs one finds after it, and by the parts of the engine it does
not touch.
-/

namespace JobShell.Engine

open List Chain

variable (e : Engine) (id i : JobId) {j : Job}

/-! ### Finding jobs -/

lemma job?_setJob (k : Job) :
    (e.setJob id k).job? i = if i = id then (e.job? i).map fun _ => k else e.job? i := by
  simp only [job?, setJob]
  induction e.jobs with
  | nil => simp
  | cons p ps ih =>
    obtain ⟨n, j⟩ := p
    by_cases hn : n = id
    · by_cases hi : i = n
      · subst hi
        simp [hn]
      · have hid : ¬ i = id := hn ▸ hi
        rw [if_neg hid] at ih
        simp [hn, hid, lookup_cons, beq_eq_false_iff_ne.mpr hid, ih]
    · by_cases hi : i = n
      · subst hi
        simp [hn]
      · simp only [map_cons, hn, if_false, lookup_cons, beq_eq_false_iff_ne.mpr hi]
        exact ih

lemma job?_eraseJob : (e.eraseJob id).job? i = if i = id then none else e.job? i := by
  simp only [job?, eraseJob]
  induction e.jobs with
  | nil => simp
  | cons p ps ih =>
    obtain ⟨n, j⟩ := p
    by_cases hn : n = id
    · by_cases hi : i = id
      · simpa [hn, hi] using ih
      · simpa [hn, hi, lookup_cons, beq_eq_false_iff_ne.mpr hi] using ih
    · by_cases hi : i = n
      · subst hi
        simp [hn]
      · simp only [bne_iff_ne, ne_eq, hn, not_false_eq_true, filter_cons_of_pos,
          lookup_cons, beq_eq_false_iff_ne.mpr hi]
        exact ih

lemma job?_setJob_self (h : e.job? id = some j) (k : Job) : (e.setJob id k).job? id = some k := by
  rw [job?_setJob, if_pos rfl, h, Option.map_some]

section

variable {e id} {n : Native} {c : Chain}

lemma native?_eq_some_iff :
    e.native? id = some (j, n) ↔ e.job? id = some j ∧ j.body = .native n := by
  unfold native?
  cases h : e.job? id with
  | none => simp
  | some k => cases hb : k.body <;> simp [hb] <;> grind

lemma chain?_eq_some_iff :
    e.chain? id = some (j, c) ↔ e.job? id = some j ∧ j.body = .chain c := by
  unfold chain?
  cases h : e.job? id with
  | none => simp
  | some k => cases hb : k.body <;> simp [hb] <;> grind

lemma native?_eq_some (h : e.job? id = some j) (hb : j.body = .native n) :
    e.native? id = some (j, n) := native?_eq_some_iff.mpr ⟨h, hb⟩

lemma native?_eq_none (h : e.job? id = some j) (hb : j.body = .chain c) :
    e.native? id = none := by
  simp [native?, h, hb]

lemma chain?_eq_some (h : e.job? id = some j) (hb : j.body = .chain c) :
    e.chain? id = some (j, c) := chain?_eq_some_iff.mpr ⟨h, hb⟩

end

/-! ### Output and input -/

@[simp] lemma job?_notice (info : JobInfo) : (e.notice info).job? i = e.job? i := rfl
@[simp] lemma job?_defer (t : Task) : (e.defer t).job? i = e.job? i := rfl

variable {e id} in
lemma send_eq_pour {j : Job} (h : e.job? id = some j) (s : Stream) (data : Bytes) :
    e.send id s data = e.pour (j.sink s) s data := by
  simp only [send, h]

lemma job?_feed_of_ne {next : JobId} (h : i ≠ next) (data : Bytes) :
    (e.feed next data).job? i = e.job? i := by
  unfold feed
  split
  · rfl
  · split
    · rfl
    · rw [job?_setJob, if_neg h]

lemma job?_pour_of_ne {sink : Sink} (h : sink ≠ .forward i) (s : Stream) (data : Bytes) :
    (e.pour sink s data).job? i = e.job? i := by
  cases sink <;> cases s <;> first | rfl | exact e.job?_feed_of_ne i (by rintro rfl; exact h rfl) _

variable {e i} in
lemma job?_feed_chain {k : Job} {c : Chain} (h : e.job? i = some k) (hb : k.body = .chain c)
    (data : Bytes) : (e.feed i data).job? i = some { k with body := .chain (c.write data) } := by
  simp only [feed, h, hb]
  exact job?_setJob_self _ _ h _

lemma tasks_feed (next : JobId) (data : Bytes) : (e.feed next data).tasks = e.tasks := by
  unfold feed
  split
  · rfl
  · split <;> rfl

lemma tasks_pour (sink : Sink) (s : Stream) (data : Bytes) :
    (e.pour sink s data).tasks = e.tasks := by
  cases sink <;> cases s <;> first | rfl | exact e.tasks_feed _ _

lemma job?_breakPipe_of_ne {f : JobId} (h : i ≠ f) : (e.breakPipe f).job? i = e.job? i := by
  unfold breakPipe
  split
  · rw [job?_setJob, if_neg h]
    rfl
  · rfl

variable {e i} in
lemma job?_breakPipe_chain {k : Job} {c : Chain} (h : e.job? i = some k) (hb : k.body = .chain c)
    (f : JobId) : (e.breakPipe f).job? i = some k := by
  by_cases hf : i = f
  · subst hf
    simp only [breakPipe, native?_eq_none h hb, h]
  · rw [job?_breakPipe_of_ne e i hf, h]

lemma tasks_breakPipe (f : JobId) : (e.breakPipe f).tasks = e.tasks := by
  unfold breakPipe
  split <;> rfl

variable {e i} in
/-- A job of processes hears of its input through the system only. -/
lemma job?_feed_native {k : Job} {n : Native} (h : e.job? i = some k) (hb : k.body = .native n)
    (next : JobId) (data : Bytes) : (e.feed next data).job? i = some k := by
  by_cases hn : i = next
  · subst hn
    simp only [feed, h, hb]
    exact h
  · rw [job?_feed_of_ne e i hn, h]

lemma config_feed (next : JobId) (data : Bytes) : (e.feed next data).config = e.config := by
  unfold feed
  split
  · rfl
  · split <;> rfl

lemma config_pour (sink : Sink) (s : Stream) (data : Bytes) :
    (e.pour sink s data).config = e.config := by
  cases sink <;> cases s <;> first | rfl | exact e.config_feed _ _

variable {e i} in
lemma job?_pour_native {k : Job} {n : Native} (h : e.job? i = some k) (hb : k.body = .native n)
    (sink : Sink) (s : Stream) (data : Bytes) : (e.pour sink s data).job? i = some k := by
  cases sink <;> cases s <;> first | exact h | exact job?_feed_native h hb _ _

/-! ### Stopping and continuing -/

lemma halt_eq (j : Job) (table : JobTable) (release : Prop) [Decidable release] :
    (e.halt j table release).jobs = e.jobs ∧ (e.halt j table release).tasks = e.tasks ∧
      (e.halt j table release).config = e.config ∧
      ∀ i, (e.halt j table release).owner = some i → e.owner = some i := by
  rcases hn : j.tableId with _ | n <;> by_cases hr : release <;> simp [halt, hn, hr, notice]

variable {e id} in
lemma stopped_eq {j : Job} (h : e.job? id = some j) (hs : j.state = .running) :
    e.stopped id = (e.setJob id { j with state := .stopped }).halt j
      (j.tableId.elim e.table fun n => (e.table.update n .stopped none).2)
      (e.owner = some id ∨ ∃ n, j.tableId = some n ∧
        (e.table.update n .stopped none).1 = .foregroundStopped) := by
  simp only [stopped, h, hs, ne_eq, not_true_eq_false, if_false]
  rcases hn : j.tableId with _ | n
  · simp [setJob]
  · simp only [Option.some.injEq, exists_eq_left', Option.elim]
    rfl

variable {e id} in
lemma job?_setJob_same {k : Job} (h : e.job? id = some k) (i : JobId) :
    (e.setJob id k).job? i = e.job? i := by
  rw [job?_setJob]
  split
  · rename_i hi
    simp [hi, h]
  · rfl

variable {e id} in
lemma job?_stopped {k : Job} (h : e.job? id = some k) :
    ∃ state, (∀ i, (e.stopped id).job? i = (e.setJob id { k with state }).job? i) ∧
      (e.stopped id).tasks = e.tasks ∧ (e.stopped id).config = e.config ∧
      ∀ i, (e.stopped id).owner = some i → e.owner = some i := by
  by_cases hs : k.state = .running
  · rw [stopped_eq h hs]
    exact ⟨.stopped, fun i => congrArg (List.lookup i) (halt_eq _ _ _ _).1, (halt_eq _ _ _ _).2⟩
  · rw [show e.stopped id = e by simp [stopped, h, hs]]
    exact ⟨k.state, fun i => (job?_setJob_same h i).symm, rfl, rfl, fun _ ho => ho⟩

variable {e id} in
lemma job?_continued {k : Job} (h : e.job? id = some k) :
    ∃ state, (∀ i, (e.continued id).job? i = (e.setJob id { k with state }).job? i) ∧
      (e.continued id).tasks = e.tasks ∧ (e.continued id).config = e.config ∧
      (e.continued id).owner = e.owner := by
  by_cases hs : k.state = .stopped
  · refine ⟨.running, fun i => ?_, ?_, ?_, ?_⟩ <;>
      simp only [continued, h, hs, ne_eq, not_true, if_false]
    all_goals
      rcases k.tableId with _ | n <;> rfl
  · rw [show e.continued id = e by simp [continued, h, hs]]
    exact ⟨k.state, fun i => (job?_setJob_same h i).symm, rfl, rfl, rfl⟩

/-! ### Settling -/

variable {e id} in
lemma eraseJob_setJob (k : Job) : (e.setJob id k).eraseJob id = e.eraseJob id := by
  have h : ((e.jobs.map fun p => if p.1 = id then (p.1, k) else p).filter fun p => p.1 != id) =
      e.jobs.filter fun p => p.1 != id := by
    induction e.jobs with
    | nil => rfl
    | cons p ps ih => by_cases hp : p.1 = id <;> simp [hp, ih]
  simp only [eraseJob, setJob]
  exact congrArg (fun jobs => { e with jobs }) h

variable {e id} in
lemma settle_eq {j : Job} (h : e.job? id = some j) (state : JobState) (status : Int) :
    e.settle id state status =
      (((e.passOn j).announce id j state status).eraseJob id, [.notify j.hub status]) := by
  simp only [settle, h, eraseJob_setJob]

lemma job?_settle_self (state : JobState) (status : Int) :
    (e.settle id state status).1.job? id = none := by
  rcases h : e.job? id with _ | j
  · simp only [settle, h]
  · rw [settle_eq h, job?_eraseJob, if_pos rfl]

lemma jobs_announce (j : Job) (state : JobState) (status : Int) :
    (e.announce id j state status).jobs = e.jobs := by
  simp only [announce]
  rcases j.tableId with _ | n <;> split <;> rfl

lemma tasks_announce (j : Job) (state : JobState) (status : Int) :
    (e.announce id j state status).tasks = e.tasks := by
  simp only [announce]
  rcases j.tableId with _ | n <;> split <;> rfl

/-- A job in the table is told of, with its state and its status. -/
lemma console_announce {es : List ConsoleEvent} (h : e.console = .transcript es) {n : ℕ}
    (hn : j.tableId = some n) (state : JobState) (status : Int) :
    ∃ rest, (e.announce id j state status).console = .transcript
      (es ++ .job ⟨n, j.command, state, some status, e.table.foreground == some n⟩ :: rest) := by
  simp only [announce, hn]
  split
  · exact ⟨[.resume], by simp [notice, h, Console.notice, Console.resume, Console.record]⟩
  · exact ⟨[], by simp [notice, h, Console.notice]⟩

variable {e} in
/-- The chain that was fed is put into the queue, with all its input. -/
lemma passOn_chain {q : Job} {next : JobId} {c : Chain} (hj : j.stdout = .forward next)
    (hq : e.job? next = some q) (hb : q.body = .chain c) (hs : c.started = true)
    (hn : c.queued = false) :
    (e.passOn j).job? next =
        some { q with body := .chain { c with closed := true, queued := true } } ∧
      (e.passOn j).tasks = e.tasks ++ [.runChain next] := by
  obtain ⟨e1, he1, hq1, ht1⟩ : ∃ e1 : Engine,
      (if j.live then { e with live := e.live - 1 } else e) = e1 ∧ e1.job? next = some q ∧
        e1.tasks = e.tasks := by
    refine ⟨_, rfl, ?_, ?_⟩ <;> cases j.live <;> first | rfl | exact hq
  have hend : e1.endInput next =
      (e1.setJob next { q with body := .chain { c with closed := true, queued := true } }).defer
        (.runChain next) := by
    simp [endInput, hq1, hb, close, ready, hs, hn]
  have hjob : (e1.endInput next).job? next =
      some { q with body := .chain { c with closed := true, queued := true } } := by
    rw [hend, job?_defer, job?_setJob_self _ _ hq1]
  have htasks : (e1.endInput next).tasks = e.tasks ++ [.runChain next] := by
    rw [hend, ← ht1]
    rfl
  simp only [passOn, he1, hj]
  rcases j.feeder with _ | f
  · exact ⟨hjob, htasks⟩
  · exact ⟨job?_breakPipe_chain hjob rfl f, (tasks_breakPipe _ _).trans htasks⟩

/-! ### Running a chain -/

variable {e i} in
lemma job?_pour_closed {k : Job} {c : Chain} (h : e.job? i = some k) (hb : k.body = .chain c)
    (hc : c.closed = true) (sink : Sink) (s : Stream) (data : Bytes) :
    (e.pour sink s data).job? i = some k := by
  have hfeed : ∀ next, (e.feed next data).job? i = some k := by
    intro next
    by_cases hn : i = next
    · subst hn
      rw [job?_feed_chain h hb]
      simp [Chain.write, hc, ← hb]
    · rw [job?_feed_of_ne e i hn, h]
  cases sink <;> cases s <;> first | exact h | exact hfeed _

/-- A job whose routines have run. -/
def usedUp (j : Job) (c : Chain) : Job :=
  { j with body := .chain { c with launches := [], input := [] } }

/-- What a job of routines leaves when its routines have run: the world and the variables are as
they left them. -/
def used (j : Job) (c : Chain) (o : Chain.Outcome) (w : World) : Engine :=
  { ({ e with system := { e.system with world := w } } : Engine).setJob id (usedUp j c) with
    stores := e.stores.escapeAll j.store o.escapes }

variable {e id} in
lemma runChain_eq {j : Job} {c : Chain} (h : e.job? id = some j) (hb : j.body = .chain c)
    {o : Outcome} {w : World}
    (ho : runAll e.config.failedStatus c.launches c.input e.system.world = (o, w)) :
    let e' := ((e.used id j c o w).sendAny id .stdout o.stdout).sendAny id .stderr o.stderr
    e.runChain id = ((e'.settle id .terminated o.status).1, (e'.settle id .terminated o.status).2,
      o.pending.map (.finalize · j.store)) := by
  simp only [runChain, chain?_eq_some h hb, Chain.run, ho]
  rfl

variable {e id} in
lemma job?_used {j : Job} (h : e.job? id = some j) (c : Chain) (o : Outcome) (w : World) :
    (e.used id j c o w).job? id = some (usedUp j c) :=
  job?_setJob_self { e with system := _ } id h _

variable {e id} in
lemma job?_sendAny_closed {j : Job} {c : Chain} (h : e.job? id = some j) (hb : j.body = .chain c)
    (hc : c.closed = true) (s : Stream) (data : Bytes) :
    (e.sendAny id s data).job? id = some j := by
  unfold sendAny
  split
  · exact h
  · rw [send_eq_pour h]
    exact job?_pour_closed h hb hc _ _ _

/-- A chain is used up when it has run: its hub hears of the outcome, and the job is gone. -/
lemma runChain_closed {k : Job} {c : Chain} (h : e.job? i = some k) (hb : k.body = .chain c)
    (hc : c.closed = true) {o : Outcome} {w : World}
    (ho : runAll e.config.failedStatus c.launches c.input e.system.world = (o, w)) :
    (e.runChain i).2 = ([.notify k.hub o.status], o.pending.map (.finalize · k.store)) ∧
      (e.runChain i).1.job? i = none := by
  have hused := job?_used h c o w
  have hout := job?_sendAny_closed hused rfl hc .stdout o.stdout
  have herr := job?_sendAny_closed hout rfl hc .stderr o.stderr
  rw [runChain_eq h hb ho]
  refine ⟨?_, job?_settle_self _ _ _ _⟩
  rw [settle_eq herr]
  rfl

end JobShell.Engine
