import JobShell.Proofs.Engine.Similar
import Mathlib.Data.List.Induction

/-!
How a job of processes comes to its end.

The events of a job come from its streams and its processes, and those of different sources come
in any order. A source has a last event: a stream is closed, a process exits. The job settles with
the event that is the last one of the last source, and only then; so nothing that was read of its
streams comes too late.
-/

namespace JobShell

open List Native

/-- What the events of a job come from. -/
inductive Source where
  | stream (s : Stream)
  | process (index : ℕ)
  deriving DecidableEq

namespace Event

def source? : Event → Option (JobId × Source)
  | .output id s _ | .closed id s => some (id, .stream s)
  | .process id index _ => some (id, .process index)
  | .interrupt => none

/-- Nothing more comes from the source of this event. -/
def isLast : Event → Bool
  | .closed .. | .process _ _ (.exited _) => true
  | _ => false

/-- Whether an event is one of a job. -/
def isOf (id : JobId) (ev : Event) : Bool := ev.source?.any (·.1 = id)

/-- It brings no output, and its source goes on. -/
def isMild : Event → Bool
  | .process _ _ .stopped | .process _ _ .continued | .interrupt => true
  | _ => false

/-- The output of a job on its standard output, as a whole. -/
def stdout (evs : List Event) : Bytes :=
  evs.flatMap fun
    | .output _ .stdout data => data
    | _ => []

/-- The events of a job: those of each source end with its last one. -/
structure Orderly (id : JobId) (sources : List Source) (evs : List Event) : Prop where
  own : ∀ ev ∈ evs, ∃ src ∈ sources, ev.source? = some (id, src)
  last : evs.Pairwise fun a b => a.isLast = true → b.source? ≠ a.source?

def Ended (id : JobId) (evs : List Event) (src : Source) : Prop :=
  ∃ ev ∈ evs, ev.isLast = true ∧ ev.source? = some (id, src)

instance (id : JobId) (evs : List Event) (src : Source) : Decidable (Ended id evs src) :=
  inferInstanceAs (Decidable (∃ ev ∈ evs, _))

variable {id : JobId} {sources : List Source} {evs : List Event} {ev : Event} {src : Source}

lemma Orderly.of_snoc (h : Orderly id sources (evs ++ [ev])) : Orderly id sources evs :=
  ⟨fun a ha => h.own a (by simp [ha]), (pairwise_append.mp h.last).1⟩

lemma Orderly.not_ended (h : Orderly id sources (evs ++ [ev]))
    (hs : ev.source? = some (id, src)) : ¬ Ended id evs src := by
  rintro ⟨a, ha, hl, hsrc⟩
  have := (pairwise_append.mp h.last).2.2 a ha ev (by simp) hl
  exact this (hs.trans hsrc.symm)

lemma ended_snoc : Ended id (evs ++ [ev]) src ↔
    Ended id evs src ∨ (ev.isLast = true ∧ ev.source? = some (id, src)) := by
  simp only [Ended, mem_append, mem_singleton, or_and_right, exists_or, exists_eq_left]

lemma Ended.exited {i : ℕ} (h : Ended id evs (.process i)) :
    ∃ code, .process id i (.exited code) ∈ evs := by
  obtain ⟨ev, hev, hl, hsrc⟩ := h
  cases ev with
  | process id' i' change =>
    cases hsrc
    cases change with
    | exited code => exact ⟨code, hev⟩
    | stopped | continued => cases hl
  | output | closed | interrupt => cases hsrc

/-- Once all sources have ended nothing more is heard of the job. -/
lemma Orderly.not_all_ended (h : Orderly id sources (evs ++ [ev])) :
    ¬ ∀ src ∈ sources, Ended id evs src := by
  obtain ⟨src, hmem, hsrc⟩ := h.own ev (by simp)
  exact fun hall => h.not_ended hsrc (hall src hmem)

end Event

/-- What a job of processes makes of an event. -/
def Native.hear (m : Native) : Event → Native
  | .closed .. => m.streamClosed
  | .process _ index change => m.processChanged index change
  | _ => m

abbrev Job.hear (k : Job) (m : Native) (ev : Event) : Job := { k with body := .native (m.hear ev) }

namespace Engine

open Event

/-- A job that started processes, of whose streams these are read by the shell. -/
structure Spawned (e : Engine) (id : JobId) (j : Job) (n : Native) (streams : List Stream) :
    Prop where
  job : e.job? id = some j
  body : j.body = .native n
  nonempty : n.processes ≠ []
  running : ∀ p ∈ n.processes, p.2 = .running
  nodup : streams.Nodup
  routed : n.openStreams = streams.length

/-- The sources of events of such a job. -/
def sources (n : Native) (streams : List Stream) : List Source :=
  streams.map .stream ++ (List.range n.processes.length).map .process

/-- What a job has kept of another: all but its mode, its state and the shell's end of its input. -/
structure Alike (j k : Job) (n m : Native) : Prop where
  hub : k.hub = j.hub
  sink : k.sink = j.sink
  tableId : k.tableId = j.tableId
  command : k.command = j.command
  failed : m.failed = n.failed
  processes : m.processes = n.processes
  openStreams : m.openStreams = n.openStreams

/-- Something else that happens in the engine: it may end the input of a job, stop it or continue
it, but it does not speak for its processes and streams, and it leaves alone a chain that this job
feeds. -/
structure Spares (id : JobId) (e e' : Engine) : Prop where
  config : e'.config = e.config
  gone : e.job? id = none → e'.job? id = none
  job : ∀ j n, e.job? id = some j → j.body = .native n →
    ∃ k m, e'.job? id = some k ∧ k.body = .native m ∧ Alike j k n m
  fed : ∀ j next q c, e.job? id = some j → j.stdout = .forward next → e.job? next = some q →
    q.body = .chain c → e'.job? next = some q

/-- The events of a job as they come, among other things that happen, with the duties they lead
to. -/
inductive Course (id : JobId) (e₀ : Engine) : List Event → Engine → List Duty → Prop where
  | start : Course id e₀ [] e₀ []
  | other {evs : List Event} {e e' : Engine} {ds : List Duty} (h : Course id e₀ evs e ds)
      (spares : Spares id e e') : Course id e₀ evs e' ds
  | event {evs : List Event} {e : Engine} {ds : List Duty} (ev : Event)
      (h : Course id e₀ evs e ds) :
      Course id e₀ (evs ++ [ev]) (e.dispatch ev).1 (ds ++ (e.dispatch ev).2)

/-- Follows events one after another, and collects the duties they lead to. -/
def replay (e : Engine) (evs : List Event) : Engine × List Duty :=
  evs.foldl (fun (e, ds) ev => ((e.dispatch ev).1, ds ++ (e.dispatch ev).2)) (e, [])

lemma replay_snoc (e : Engine) (evs : List Event) (ev : Event) :
    e.replay (evs ++ [ev]) = (((e.replay evs).1.dispatch ev).1,
      (e.replay evs).2 ++ ((e.replay evs).1.dispatch ev).2) := by
  simp [replay, foldl_append]

/-! ### What the events say of the processes and streams -/

/-- A job that has heard of these events, and of no others. -/
structure Tracks (id : JobId) (n : Native) (streams : List Stream) (evs : List Event)
    (m : Native) : Prop where
  failed : m.failed = n.failed
  length : m.processes.length = n.processes.length
  openStreams : m.openStreams = (streams.filter fun s => ¬ Ended id evs (.stream s)).length
  ended : ∀ i p, m.processes[i]? = some p → Native.hasExited p.2 = true → Ended id evs (.process i)
  code : ∀ i p code, m.processes[i]? = some p → .process id i (.exited code) ∈ evs →
    p.2 = .exited (.status code)

variable {id : JobId} {n m : Native} {streams : List Stream} {evs : List Event} {ev : Event}

lemma tracks_nil (hrun : ∀ p ∈ n.processes, p.2 = .running)
    (hrouted : n.openStreams = streams.length) : Tracks id n streams [] n where
  failed := rfl
  length := rfl
  openStreams := by simp [hrouted, Ended]
  ended i p hp hx := by
    rw [hrun p (mem_of_getElem? hp)] at hx
    cases hx
  code i p code hp hm := by simp at hm

section

variable (ht : Tracks id n streams evs m)
include ht

lemma Tracks.of_quiet (hl : ev.isLast = false) : Tracks id n streams (evs ++ [ev]) m := by
  have hsame : ∀ src, Ended id (evs ++ [ev]) src ↔ Ended id evs src := by
    intro src
    simp [ended_snoc, hl]
  refine ⟨ht.failed, ht.length, ?_, fun i p hp hx => (hsame _).mpr (ht.ended i p hp hx), ?_⟩
  · simp only [hsame]
    exact ht.openStreams
  · intro i p code hp hm
    rcases mem_append.mp hm with hm | hm
    · exact ht.code i p code hp hm
    · rw [← mem_singleton.mp hm] at hl
      cases hl

lemma Tracks.closed (hnd : streams.Nodup) {s : Stream}
    (hs : s ∈ streams) (hopen : ¬ Ended id evs (.stream s)) :
    Tracks id n streams (evs ++ [.closed id s]) m.streamClosed := by
  have hsame : ∀ t, Ended id (evs ++ [.closed id s]) (.stream t) ↔
      Ended id evs (.stream t) ∨ t = s := by
    intro t
    simp [ended_snoc, isLast, source?, eq_comm]
  refine ⟨ht.failed, ht.length, ?_, fun i p hp hx => ?_, fun i p code hp hm => ?_⟩
  · have herase : streams.filter (fun t => ¬ Ended id (evs ++ [.closed id s]) (.stream t)) =
        (streams.filter fun t => ¬ Ended id evs (.stream t)).erase s := by
      rw [(hnd.filter _).erase_eq_filter, filter_filter]
      refine filter_congr fun t _ => ?_
      simp [hsame, Bool.and_comm, bne, Bool.beq_eq_decide_eq]
    have hmem : s ∈ streams.filter fun t => ¬ Ended id evs (.stream t) := by simp [hs, hopen]
    simp only [streamClosed]
    rw [herase, length_erase_of_mem hmem, ht.openStreams]
  · exact ended_snoc.mpr (.inl (ht.ended i p hp hx))
  · exact ht.code i p code hp (by simpa using hm)

lemma Tracks.process {index : ℕ} {change : ProcessChange}
    (hopen : ¬ Ended id evs (.process index)) :
    Tracks id n streams (evs ++ [.process id index change]) (m.processChanged index change) := by
  have hother : ∀ {i}, i ≠ index → ∀ p,
      (m.processChanged index change).processes[i]? = some p → m.processes[i]? = some p := by
    intro i hi p hp
    simpa [processChanged, getElem?_modify, Ne.symm hi] using hp
  -- an event of a process from before is not its exit
  have hold : ∀ code, Event.process id index (.exited code) ∉ evs :=
    fun code hm => hopen ⟨_, hm, rfl, rfl⟩
  refine ⟨ht.failed, by simp [processChanged, ht.length], ?_, fun i p hp hx => ?_,
    fun i p code hp hm => ?_⟩
  · have hsame : ∀ t, Ended id (evs ++ [.process id index change]) (.stream t) ↔
        Ended id evs (.stream t) := by
      intro t
      simp [ended_snoc, source?]
    simp only [hsame]
    exact ht.openStreams
  · by_cases hi : i = index
    · subst hi
      obtain ⟨q, -, rfl⟩ := by
        simpa [processChanged, getElem?_modify] using hp
      cases change with
      | exited code => exact ended_snoc.mpr (.inr ⟨rfl, rfl⟩)
      | stopped | continued => cases hx
    · exact ended_snoc.mpr (.inl (ht.ended i p (hother hi p hp) hx))
  · by_cases hi : i = index
    · subst hi
      rcases mem_append.mp hm with hm | hm
      · exact absurd hm (hold code)
      · obtain rfl : change = .exited code := by simpa using (mem_singleton.mp hm).symm
        obtain ⟨q, -, rfl⟩ := by
          simpa [processChanged, getElem?_modify] using hp
        rfl
    · exact ht.code i p code (hother hi p hp) (by simpa [hi] using hm)

lemma Tracks.hear (hnd : streams.Nodup) (ho : Orderly id (sources n streams) (evs ++ [ev])) :
    Tracks id n streams (evs ++ [ev]) (m.hear ev) := by
  obtain ⟨src, hmem, hsrc⟩ := ho.own ev (by simp)
  have hopen := ho.not_ended hsrc
  cases ev with
  | output i s data => exact ht.of_quiet rfl
  | closed i s =>
    cases hsrc
    exact ht.closed hnd (by simpa [sources] using hmem) hopen
  | process i index change =>
    cases hsrc
    exact ht.process hopen
  | interrupt => cases hsrc

lemma Tracks.isFinished_iff :
    m.isFinished = true ↔ ∀ src ∈ sources n streams, Ended id evs src := by
  have hstreams : m.openStreams = 0 ↔ ∀ s ∈ streams, Ended id evs (.stream s) := by
    simp [ht.openStreams, filter_eq_nil_iff]
  have hprocesses : (∀ p ∈ m.processes, hasExited p.2 = true) ↔
      ∀ i < n.processes.length, Ended id evs (.process i) := by
    constructor
    · intro h i hi
      have hi' : i < m.processes.length := ht.length.symm ▸ hi
      exact ht.ended i _ (getElem?_eq_getElem hi') (h _ (getElem_mem hi'))
    · intro h p hp
      obtain ⟨i, hi, rfl⟩ := getElem_of_mem hp
      obtain ⟨code, hev⟩ := (h i (ht.length ▸ hi)).exited
      rw [ht.code i _ code (getElem?_eq_getElem hi) hev]
      rfl
  rw [isFinished, Bool.and_eq_true, beq_iff_eq, all_eq_true, hstreams, hprocesses]
  simp [sources, or_imp, forall_and]

/-- The status of a job that is finished: what its last process exited with. -/
lemma Tracks.exitStatus (hne : n.processes ≠ [])
    (hall : ∀ src ∈ sources n streams, Ended id evs src) (failedStatus : Int) :
    ∃ code, .process id (n.processes.length - 1) (.exited code) ∈ evs ∧
      m.exitStatus failedStatus = if n.failed then failedStatus else code := by
  have hpos : n.processes.length - 1 < n.processes.length :=
    Nat.sub_one_lt (length_pos_of_ne_nil hne).ne'
  obtain ⟨code, hev⟩ :=
    (hall (.process (n.processes.length - 1)) (by simpa [sources] using hpos)).exited
  refine ⟨code, hev, ?_⟩
  rw [← ht.length] at hpos hev
  rcases hq : m.processes[m.processes.length - 1] with ⟨pid, st⟩
  have hlast : m.processes.getLast? = some (pid, st) := by
    rw [getLast?_eq_getElem?, getElem?_eq_getElem hpos, hq]
  obtain rfl : st = .exited (.status code) :=
    ht.code _ _ code (getLast?_eq_getElem?.symm.trans hlast) hev
  simp [Native.exitStatus, ht.failed, hlast, Ending.reported]

end

/-! ### What the engine does with an event -/

variable {e : Engine} {k : Job}

section

variable (hk : e.job? id = some k) (hb : k.body = .native m)
include hk hb

lemma settleNative_eq :
    e.settleNative id =
      if m.isFinished then
        e.settle id (if m.failed then .failed else .terminated) (m.exitStatus e.config.failedStatus)
      else (e, []) := by
  simp only [settleNative, native?_eq_some hk hb]

lemma dispatch_last (hsrc : ∃ src, ev.source? = some (id, src)) (hl : ev.isLast = true) :
    e.dispatch ev = (e.setJob id (k.hear m ev)).settleNative id := by
  obtain ⟨src, hsrc⟩ := hsrc
  cases ev with
  | output | interrupt => cases hl
  | closed i s =>
    cases hsrc
    simp only [dispatch, native?_eq_some hk hb, Job.hear, Native.hear]
  | process i index change =>
    cases hsrc
    cases change with
    | exited code => simp only [dispatch, native?_eq_some hk hb, Job.hear, Native.hear]
    | stopped | continued => cases hl

lemma dispatch_finished (hsrc : ∃ src, ev.source? = some (id, src)) (hl : ev.isLast = true)
    (hf : (m.hear ev).isFinished = true) :
    e.dispatch ev = (e.setJob id (k.hear m ev)).settle id
      (if (m.hear ev).failed then .failed else .terminated)
      ((m.hear ev).exitStatus e.config.failedStatus) := by
  rw [dispatch_last hk hb hsrc hl, settleNative_eq (job?_setJob_self e id hk _) rfl, if_pos hf]
  rfl

/-- Any other event leaves the job as it is, but for what it has heard. -/
lemma dispatch_unfinished (hsrc : ∃ src, ev.source? = some (id, src))
    (hf : ev.isLast = true → (m.hear ev).isFinished = false) :
    (e.dispatch ev).2 = [] ∧ (e.dispatch ev).1.tasks = e.tasks ∧
      (e.dispatch ev).1.config = e.config ∧
      (∃ state, (e.dispatch ev).1.job? id = some { k.hear m ev with state }) ∧
      ((∀ s data, ev ≠ .output id s data) →
        (∀ i, (e.dispatch ev).1.owner = some i → e.owner = some i) ∧
        ∀ i, i ≠ id → (e.dispatch ev).1.job? i = e.job? i) := by
  have hset := job?_setJob_self e id hk (k.hear m ev)
  by_cases hl : ev.isLast = true
  · have hd : e.dispatch ev = (e.setJob id (k.hear m ev), []) := by
      rw [dispatch_last hk hb hsrc hl, settleNative_eq hset rfl, hf hl, if_neg Bool.false_ne_true]
    rw [hd]
    refine ⟨rfl, rfl, rfl, ⟨k.state, hset⟩, fun _ => ⟨fun _ ho => ho, fun i hi => ?_⟩⟩
    rw [job?_setJob, if_neg hi]
  -- a change of state on top of what was heard
  have hkeep : ∀ {e' : Engine} {state : JobState},
      (∀ i, e'.job? i = ((e.setJob id (k.hear m ev)).setJob id
        { k.hear m ev with state }).job? i) →
      (∃ state, e'.job? id = some { k.hear m ev with state }) ∧
        ∀ i, i ≠ id → e'.job? i = e.job? i := by
    intro e' state h
    refine ⟨⟨state, ?_⟩, fun i hi => ?_⟩
    · rw [h, job?_setJob_self _ _ hset]
    · rw [h, job?_setJob, if_neg hi, job?_setJob, if_neg hi]
  obtain ⟨src, hsrc⟩ := hsrc
  cases ev with
  | interrupt => cases hsrc
  | closed i s => exact absurd rfl hl
  | output i s data =>
    cases hsrc
    simp only [dispatch, send_eq_pour hk]
    refine ⟨trivial, tasks_pour _ _ _ _, config_pour _ _ _ _, ⟨k.state, ?_⟩, fun h => ?_⟩
    · rw [job?_pour_native hk hb]
      simp [Native.hear, ← hb]
    · exact absurd rfl (h s data)
  | process i index change =>
    cases hsrc
    cases change with
    | exited code => exact absurd rfl hl
    | stopped =>
      have hd : e.dispatch (.process id index .stopped) =
          (if (m.hear (.process id index .stopped)).isStopped then
            (e.setJob id (k.hear m (.process id index .stopped))).stopped id
          else e.setJob id (k.hear m (.process id index .stopped)), []) := by
        simp only [dispatch, native?_eq_some hk hb]
        rfl
      rw [hd]
      split
      · obtain ⟨state, hjob, htasks, hconfig, howner⟩ := job?_stopped hset
        exact ⟨rfl, htasks, hconfig, (hkeep hjob).1, fun _ => ⟨howner, (hkeep hjob).2⟩⟩
      · refine ⟨rfl, rfl, rfl, ⟨k.state, hset⟩, fun _ => ⟨fun _ ho => ho, fun i hi => ?_⟩⟩
        rw [job?_setJob, if_neg hi]
    | continued =>
      have hd : e.dispatch (.process id index .continued) =
          ((e.setJob id (k.hear m (.process id index .continued))).continued id, []) := by
        simp only [dispatch, native?_eq_some hk hb]
        rfl
      rw [hd]
      obtain ⟨state, hjob, htasks, hconfig, howner⟩ := job?_continued hset
      exact ⟨rfl, htasks, hconfig, (hkeep hjob).1,
        fun _ => ⟨fun _ => howner.symm.trans, (hkeep hjob).2⟩⟩

end

/-- A mild event of another job changes that job alone, and what is told of it. -/
lemma dispatch_mild (hev : ev.isOf id = false) (hm : ev.isMild = true) :
    (e.dispatch ev).2 = [] ∧ (e.dispatch ev).1.config = e.config ∧
      (∀ i, (e.dispatch ev).1.owner = some i → e.owner = some i) ∧
      ∀ i, i = id ∨ e.native? i = none → (e.dispatch ev).1.job? i = e.job? i := by
  cases ev with
  | output | closed => cases hm
  | interrupt =>
    simp only [dispatch, interrupt]
    split <;> exact ⟨trivial, rfl, fun _ ho => ho, fun _ _ => rfl⟩
  | process i index change =>
    rcases hn : e.native? i with _ | ⟨k, m⟩
    · simp [dispatch, hn]
    obtain ⟨hk, hb⟩ := native?_eq_some_iff.mp hn
    have hopen : ¬ (Event.process i index change).isLast = true := by
      cases change with
      | exited => cases hm
      | stopped | continued => exact Bool.false_ne_true
    obtain ⟨hds, -, hconfig, -, hrest⟩ :=
      dispatch_unfinished hk hb ⟨_, rfl⟩ fun hl => absurd hl hopen
    obtain ⟨howner, hsame⟩ := hrest (by simp)
    refine ⟨hds, hconfig, howner, fun x hx => hsame x ?_⟩
    rintro rfl
    rcases hx with rfl | hx
    · simp [isOf, source?] at hev
    · cases hn.symm.trans hx

/-- Every source of a job has ended. -/
def AllEnded (id : JobId) (n : Native) (streams : List Stream) (evs : List Event) : Prop :=
  ∀ src ∈ sources n streams, Ended id evs src

/-- A job on its course: it has not settled, has heard of all these events, and has passed on all
its output if it feeds a chain. -/
structure Along (e0 : Engine) (id : JobId) (j : Job) (n : Native) (streams : List Stream)
    (evs : List Event) (e : Engine) : Prop where
  config : e.config = e0.config
  job : ∃ k m, e.job? id = some k ∧ k.body = .native m ∧ k.hub = j.hub ∧ k.sink = j.sink ∧
    k.tableId = j.tableId ∧ k.command = j.command ∧ Tracks id n streams evs m
  fed : ∀ next q c, j.stdout = .forward next → j.stderr ≠ .forward next →
    e0.job? next = some q → q.body = .chain c → c.closed = false →
    e.job? next = some { q with body := .chain { c with input := c.input ++ stdout evs } }

/-- A job settles: it is gone, its hub hears of its status, and the user of its state. -/
structure Settles (e : Engine) (id : JobId) (j : Job) (state : JobState) (status : Int)
    (after : Engine × List Duty) : Prop where
  gone : after.1.job? id = none
  duties : after.2 = [.notify j.hub status]
  told : ∀ m es, j.tableId = some m → e.console = .transcript es →
    ∃ foreground rest, after.1.console = .transcript
      (es ++ .job ⟨m, j.command, state, some status, foreground⟩ :: rest)

/-- A chain is put into the queue with a complete input; when it runs, it runs on that, and then
it is gone. -/
structure Queues (e : Engine) (next : JobId) (q : Job) (c : Chain) (input : Bytes)
    (after : Engine) : Prop where
  tasks : after.tasks = e.tasks ++ [.runChain next]
  job : after.job? next =
    some { q with body := .chain { c with input, closed := true, queued := true } }
  runs : ∀ (e' : Engine) o w, e'.job? next = after.job? next →
    Chain.runAll e'.config.failedStatus c.launches input e'.system.world = (o, w) →
    (e'.runChain next).2 = ([.notify q.hub o.status], o.pending.map (.finalize · q.store)) ∧
      (e'.runChain next).1.job? next = none
  once : ∀ e' : Engine, e'.job? next = none → e'.runChain next = (e', [], none)

variable {e0 : Engine} {j : Job} {ds : List Duty}

lemma Along.ne_fed (h : Along e0 id j n streams evs e) {next : JobId} {q : Job} {c : Chain}
    (hn : e.job? next = some { q with body := .chain c }) : next ≠ id := by
  rintro rfl
  obtain ⟨k, m, hk, hb, -⟩ := h.job
  cases hk.symm.trans hn
  cases hb

lemma stdout_snoc : stdout (evs ++ [ev]) = stdout evs ++ stdout [ev] := flatMap_append

lemma Along.step (h : Along e0 id j n streams evs e) (hnd : streams.Nodup)
    (ho : Orderly id (sources n streams) (evs ++ [ev]))
    (hmore : ¬ AllEnded id n streams (evs ++ [ev])) :
    Along e0 id j n streams (evs ++ [ev]) (e.dispatch ev).1 ∧ (e.dispatch ev).2 = [] ∧
      (e.dispatch ev).1.tasks = e.tasks := by
  obtain ⟨k, m, hk, hb, hhub, hsink, htable, hcommand, ht⟩ := h.job
  have htracks := ht.hear hnd ho
  obtain ⟨src, -, hsrc⟩ := ho.own ev (by simp)
  have hunfinished : (m.hear ev).isFinished = false := by
    rw [← Bool.not_eq_true, htracks.isFinished_iff]
    exact hmore
  obtain ⟨hduties, htasks, hconfig, ⟨state, hjob⟩, hrest⟩ :=
    dispatch_unfinished hk hb ⟨src, hsrc⟩ fun _ => hunfinished
  refine ⟨⟨hconfig.trans h.config, ⟨_, _, hjob, rfl, hhub, ?_, htable, hcommand, htracks⟩, ?_⟩,
    hduties, htasks⟩
  · rw [← hsink]
    funext s
    cases s <;> rfl
  · intro next q c hj herr hq hc hopen
    have hnext := h.fed next q c hj herr hq hc hopen
    have hne := h.ne_fed hnext
    by_cases hout : ∃ s data, ev = .output id s data
    · obtain ⟨s, data, rfl⟩ := hout
      rw [stdout_snoc]
      simp only [dispatch, send_eq_pour hk, hsink]
      cases s with
      | stdout =>
        simp only [Job.sink, hj, pour]
        rw [job?_feed_chain hnext rfl]
        simp [Chain.write, hopen, stdout]
      | stderr =>
        simp only [Job.sink]
        rw [job?_pour_of_ne _ _ herr, hnext]
        simp [stdout]
    · rw [(hrest fun s data he => hout ⟨s, data, he⟩).2 next hne, hnext, stdout_snoc]
      have hnone : stdout [ev] = [] := by
        cases ev with
        | output i s data =>
          cases hsrc
          exact absurd ⟨s, data, rfl⟩ hout
        | closed | process | interrupt => rfl
      rw [hnone, append_nil]

lemma Along.settles (h : Along e0 id j n streams evs e) (hne : n.processes ≠ [])
    (hnd : streams.Nodup) (ho : Orderly id (sources n streams) (evs ++ [ev]))
    (hall : AllEnded id n streams (evs ++ [ev])) :
    ∃ code, .process id (n.processes.length - 1) (.exited code) ∈ evs ++ [ev] ∧
      Settles e id j (if n.failed then .failed else .terminated)
        (if n.failed then e0.config.failedStatus else code) (e.dispatch ev) ∧
      ∀ next q c, j.stdout = .forward next → j.stderr ≠ .forward next → e0.job? next = some q →
        q.body = .chain c → c.closed = false → c.started = true → c.queued = false →
        Queues e next q c (c.input ++ stdout (evs ++ [ev])) (e.dispatch ev).1 := by
  obtain ⟨k, m, hk, hb, hhub, hsink, htable, hcommand, ht⟩ := h.job
  have htracks := ht.hear hnd ho
  obtain ⟨src, hmem, hsrc⟩ := ho.own ev (by simp)
  have hlast : ev.isLast = true := by
    rcases ended_snoc.mp (hall src hmem) with hend | hl
    · exact absurd hend (ho.not_ended hsrc)
    · exact hl.1
  obtain ⟨code, hcode, hstatus⟩ := htracks.exitStatus hne hall e.config.failedStatus
  have hset := job?_setJob_self e id hk (k.hear m ev)
  have hd := dispatch_finished hk hb ⟨src, hsrc⟩ hlast (htracks.isFinished_iff.mpr hall)
  rw [hstatus, htracks.failed, h.config] at hd
  refine ⟨code, hcode, ⟨?_, ?_, fun i es hi hes => ?_⟩,
    fun next q c hj herr hq hc hopen hs hn => ?_⟩
  · rw [hd]
    exact job?_settle_self _ _ _ _
  · rw [hd, settle_eq hset, ← hhub]
  · rw [hd, settle_eq hset, ← hcommand]
    refine ⟨_, console_announce _ id ?_ (htable.trans hi) _ _⟩
    rw [console_passOn]
    exact hes
  · have hnext := h.fed next q c hj herr hq hc hopen
    have hneq := h.ne_fed hnext
    have hquiet : stdout [ev] = [] := by
      cases ev with
      | output => cases hlast
      | closed | process | interrupt => rfl
    rw [stdout_snoc, hquiet, append_nil]
    have hstdout : k.stdout = .forward next := (congrFun hsink .stdout).trans hj
    have hnext' : (e.setJob id (k.hear m ev)).job? next = _ :=
      (job?_setJob _ _ _ _).trans ((if_neg hneq).trans hnext)
    obtain ⟨hjob, htasks⟩ := passOn_chain (j := k.hear m ev) hstdout
      hnext' rfl hs hn
    have hafter : (e.dispatch ev).1.job? next = some { q with
        body :=
          .chain { c with input := c.input ++ stdout evs, closed := true, queued := true } } := by
      rw [hd, settle_eq hset, job?_eraseJob, if_neg hneq, ← hjob]
      simp only [job?, jobs_announce]
    refine ⟨?_, hafter, fun e' o w he' ho' => ?_, fun e' he' => ?_⟩
    · rw [hd, settle_eq hset]
      exact (tasks_announce _ _ _ _ _).trans htasks
    · rw [hafter] at he'
      exact runChain_closed e' next he' rfl rfl ho'
    · simp only [runChain, chain?, he']

/-- A job settles once: before its sources have all ended nothing follows from its events, and it
is there; after that its hub has been notified, and it is gone. -/
lemma Course.standing (hs : Spawned e0 id j n streams) (course : Course id e0 evs e ds)
    (ho : Orderly id (sources n streams) evs) :
    (¬ AllEnded id n streams evs → ds = [] ∧ Along e0 id j n streams evs e) ∧
      (AllEnded id n streams evs → e.job? id = none ∧
        ∃ code, .process id (n.processes.length - 1) (.exited code) ∈ evs ∧
          ds = [.notify j.hub (if n.failed then e0.config.failedStatus else code)]) := by
  induction course with
  | start =>
    refine ⟨fun _ => ⟨rfl, rfl, ⟨j, n, hs.job, hs.body, rfl, rfl, rfl, rfl,
      tracks_nil hs.running hs.routed⟩, ?_⟩, fun hall => ?_⟩
    · intro next q c _ _ hq hc _
      rw [hq]
      simp [stdout, ← hc]
    · obtain ⟨ev, hev, -⟩ := hall (.process 0) (by
        simpa [sources] using length_pos_of_ne_nil hs.nonempty)
      simp at hev
  | @other evs e e' ds _ spares ih =>
    obtain ⟨hbefore, hafter⟩ := ih ho
    refine ⟨fun hmore => ?_, fun hall => ?_⟩
    · obtain ⟨hds, hal⟩ := hbefore hmore
      obtain ⟨k, m, hk, hb, hhub, hsink, htable, hcommand, ht⟩ := hal.job
      obtain ⟨k', m', hk', hb', hal'⟩ := spares.job k m hk hb
      refine ⟨hds, spares.config.trans hal.config, ⟨k', m', hk', hb', hal'.hub.trans hhub,
        hal'.sink.trans hsink, hal'.tableId.trans htable, hal'.command.trans hcommand, ?_⟩, ?_⟩
      · obtain ⟨hf, hl, hop, hend, hcode⟩ := ht
        exact ⟨hal'.failed.trans hf, hal'.processes ▸ hl, hal'.openStreams.trans hop,
          hal'.processes ▸ hend, hal'.processes ▸ hcode⟩
      · intro next q c hj herr hq hc hopen
        exact spares.fed k next _ _ hk ((congrFun hsink .stdout).trans hj)
          (hal.fed next q c hj herr hq hc hopen) rfl
    · obtain ⟨hgone, hcode⟩ := hafter hall
      exact ⟨spares.gone hgone, hcode⟩
  | @event evs e ds ev _ ih =>
    obtain ⟨hds, hal⟩ := (ih ho.of_snoc).1 ho.not_all_ended
    refine ⟨fun hmore => ?_, fun hall => ?_⟩
    · obtain ⟨hal', hduties, -⟩ := hal.step hs.nodup ho hmore
      exact ⟨by rw [hds, hduties]; rfl, hal'⟩
    · obtain ⟨code, hcode, hsettles, -⟩ := hal.settles hs.nonempty hs.nodup ho hall
      exact ⟨hsettles.gone, code, hcode, by rw [hds, hsettles.duties]; rfl⟩

end Engine

end JobShell
