import JobShell.Proofs.Engine.Reachable
import JobShell.Proofs.Engine.Settling

/-!
How a job of processes stops and goes on.

A job runs as long as one of its processes does. One that is told to have stopped has given back the
terminal; but only a process that stops can bring that about. If the last process that runs exits
while others are stopped, the job is still taken to be running.
-/

namespace JobShell

open List Native

/-- Whether a process has stopped. -/
def Event.isStop : Event → Bool
  | .process _ _ .stopped => true
  | _ => false

lemma Event.not_isStop_of_isLast {ev : Event} (h : ev.isLast = true) : ev.isStop = false := by
  cases ev with
  | process id index change => cases change <;> first | rfl | cases h
  | output | closed | interrupt => rfl

namespace Native

/-- What a job of processes makes of events. -/
def heard (n : Native) (evs : List Event) : Native := evs.foldl hear n

lemma heard_snoc (n : Native) (evs : List Event) (ev : Event) :
    n.heard (evs ++ [ev]) = (n.heard evs).hear ev := by
  simp [heard]

/-- Whenever no process is left that runs and one is stopped, it was a stop that brought this
about. -/
def HaltsByStops (n : Native) (evs : List Event) : Prop :=
  ∀ k < evs.length, (n.heard (evs.take (k + 1))).isStopped = true →
    (n.heard (evs.take k)).isStopped = true ∨ evs[k]?.any (·.isStop) = true

instance (n : Native) (evs : List Event) : Decidable (n.HaltsByStops evs) :=
  inferInstanceAs (Decidable (∀ k < evs.length, _ → _))

variable {n m : Native} {evs : List Event} {ev : Event}

lemma HaltsByStops.of_snoc (h : n.HaltsByStops (evs ++ [ev])) : n.HaltsByStops evs := by
  intro k hk hs
  have hcase := h k (by simp; omega)
  rw [take_append_of_le_length (by omega), take_append_of_le_length (by omega),
    getElem?_append_left hk] at hcase
  exact hcase hs

lemma HaltsByStops.last (h : n.HaltsByStops (evs ++ [ev]))
    (hs : ((n.heard evs).hear ev).isStopped = true) :
    (n.heard evs).isStopped = true ∨ ev.isStop = true := by
  have hcase := h evs.length (by simp)
  rw [take_of_length_le (by simp), take_left, heard_snoc] at hcase
  simpa using hcase hs

/-- A process of the job runs. -/
def IsRunning (n : Native) : Prop := ∃ p ∈ n.processes, p.2 = .running

lemma not_isStopped_of_isRunning (h : n.IsRunning) : n.isStopped = false := by
  obtain ⟨p, hp, hr⟩ := h
  rw [isStopped, Bool.and_eq_false_iff]
  refine .inl (all_eq_false.mpr ⟨p, hp, ?_⟩)
  simp [hr]

/-- What becomes of the processes depends on no more than the processes. -/
lemma processes_hear (h : m.processes = n.processes) (ev : Event) :
    (m.hear ev).processes = (n.hear ev).processes := by
  cases ev with
  | process id index change => exact congrArg (List.modify · index _) h
  | output | closed | interrupt => exact h

lemma isStopped_congr (h : m.processes = n.processes) : m.isStopped = n.isStopped := by
  rw [isStopped, isStopped, h]

lemma isRunning_of_hear (h : (m.hear ev).IsRunning)
    (hc : ∀ id index, ev ≠ .process id index .continued) : m.IsRunning := by
  obtain ⟨p, hp, hr⟩ := h
  cases ev with
  | output | closed | interrupt => exact ⟨p, hp, hr⟩
  | process id index change =>
    obtain ⟨i, hi⟩ := mem_iff_getElem?.mp hp
    simp only [hear, processChanged, getElem?_modify] at hi
    obtain ⟨q, hq, rfl⟩ := Option.map_eq_some_iff.mp hi
    split at hr
    · cases change with
      | continued => exact absurd rfl (hc id index)
      | stopped | exited => cases hr
    · exact ⟨q, mem_of_getElem? hq, hr⟩

lemma isRunning_continued (id : JobId) {index : ℕ} (h : index < m.processes.length) :
    (m.hear (.process id index .continued)).IsRunning := by
  refine ⟨(m.processes[index].1, .running), ?_, rfl⟩
  refine mem_iff_getElem?.mpr ⟨index, ?_⟩
  simp [hear, processChanged, h]

lemma length_heard (n : Native) (evs : List Event) :
    (n.heard evs).processes.length = n.processes.length := by
  induction evs using reverseRecOn with
  | nil => rfl
  | append_singleton evs ev ih =>
    rw [heard_snoc, ← ih]
    cases ev with
    | process id index change => exact length_modify _ _ _
    | output | closed | interrupt => rfl

end Native

namespace Engine

open Event Registry

variable {e e' e0 : Engine} {id : JobId} {j k : Job} {n m p : Native} {evs : List Event}
  {ev : Event}

lemma stopped_running (a : e.registry.Agrees) (h : e.job? id = some k) (hs : k.state = .running) :
    (e.stopped id).job? id = some { k with state := .stopped } ∧
      (e.stopped id).owner ≠ some id := by
  constructor
  · rw [stopped_eq h hs, job?, (halt_eq _ _ _ _).1]
    exact job?_setJob_self e id h _
  · have hr := congrArg Registry.owner (registry_stopped a h hs)
    intro ho
    rw [show (e.stopped id).registry.owner = (e.stopped id).owner from rfl, ho, Registry.stop] at hr
    split at hr
    · cases hr
    · rename_i hno
      exact hno (.inl hr.symm)

lemma continued_stopped (h : e.job? id = some k) (hs : k.state = .stopped) :
    (e.continued id).job? id = some { k with state := .running } := by
  simp only [continued, h, hs, ne_eq, not_true_eq_false, if_false]
  have hset := job?_setJob_self e id h { k with state := .running }
  split
  · exact hset
  · rw [job?_notice]
    exact hset

/-- How a job stands whose processes are these: it runs if one of them does, and if it is told to
have stopped it does not have the terminal. -/
structure Stands (e : Engine) (id : JobId) (k : Job) (p : Native) : Prop where
  body : ∃ m, k.body = .native m ∧ m.processes = p.processes
  state : k.state = .running ∨ k.state = .stopped
  running : p.IsRunning → k.state = .running
  released : k.state = .stopped → e.owner ≠ some id

/-- What holds of a job after an event: if the event finds it halted, it was told to have stopped
before, or it is by a stop. -/
def Follows (e' : Engine) (id : JobId) (k : Job) (p : Native) (ev : Event) : Prop :=
  ∀ k', e'.job? id = some k' → Stands e' id k' (p.hear ev) ∧
    ((p.hear ev).isStopped = true → k.state = .stopped ∨ ev.isStop = true → k'.state = .stopped)

/-- An event that changes no more than the processes, and has none of them run. -/
lemma Stands.keep (h : Stands e id k p) (hm : m.processes = p.processes)
    (hj : e'.job? id = some (k.hear m ev)) (howner : e'.owner = e.owner)
    (hc : ∀ i index, ev ≠ .process i index .continued)
    (hs : (p.hear ev).isStopped = true → ev.isStop = true → k.state = .stopped) :
    Follows e' id k p ev := by
  intro k' hk'
  cases hj.symm.trans hk'
  have hrunning : (p.hear ev).IsRunning → k.state = .running :=
    fun hr => h.running (isRunning_of_hear hr hc)
  have hreleased : k.state = .stopped → e'.owner ≠ some id := by
    rw [howner]
    exact h.released
  refine ⟨⟨⟨_, rfl, processes_hear hm ev⟩, h.state, hrunning, hreleased⟩, fun hh hor => ?_⟩
  rcases hor with hold | hstop
  · exact hold
  · exact hs hh hstop

lemma Stands.stop (h : Stands e id k p) (a : e.registry.Agrees) (hj : e.job? id = some k)
    (hb : k.body = .native m) (hm : m.processes = p.processes) (index : ℕ) :
    Follows (e.dispatch (.process id index .stopped)).1 id k p (.process id index .stopped) := by
  set ev : Event := .process id index .stopped with hev
  set k1 : Job := k.hear m ev with hk1
  have hset := job?_setJob_self e id hj k1
  have hd : (e.dispatch ev).1 =
      if (m.hear ev).isStopped then (e.setJob id k1).stopped id else e.setJob id k1 := by
    simp only [hev, dispatch, native?_eq_some hj hb]
    rfl
  have hhalt : (m.hear ev).isStopped = (p.hear ev).isStopped :=
    isStopped_congr (processes_hear hm ev)
  rw [hd]
  split
  · rename_i hs
    rcases h.state with hr | hr
    · have a1 : (e.setJob id k1).registry.Agrees := by
        have hquiet : Quiet e (e.setJob id k1) := quiet_setJob hj rfl
        rw [hquiet (keyed_of_agrees a)]
        exact a
      obtain ⟨hjob, howner⟩ := stopped_running a1 hset hr
      intro k' hk'
      cases hjob.symm.trans hk'
      refine ⟨⟨⟨_, rfl, processes_hear hm ev⟩, .inr rfl, fun hrun => ?_, fun _ => howner⟩,
        fun _ _ => rfl⟩
      rw [hhalt, not_isStopped_of_isRunning hrun] at hs
      cases hs
    · have hsame : (e.setJob id k1).stopped id = e.setJob id k1 := by
        simp only [stopped, hset]
        exact if_pos (by rw [hk1, hr]; decide)
      rw [hsame]
      exact h.keep hm hset rfl (by simp [hev]) fun _ _ => hr
  · rename_i hs
    rw [hhalt] at hs
    exact h.keep hm hset rfl (by simp [hev]) fun hh => absurd hh hs

lemma Stands.go (h : Stands e id k p) (hj : e.job? id = some k) (hb : k.body = .native m)
    (hm : m.processes = p.processes) {index : ℕ} (hi : index < p.processes.length) :
    Follows (e.dispatch (.process id index .continued)).1 id k p
      (.process id index .continued) := by
  set ev : Event := .process id index .continued with hev
  set k1 : Job := k.hear m ev with hk1
  have hset := job?_setJob_self e id hj k1
  have hd : (e.dispatch ev).1 = (e.setJob id k1).continued id := by
    simp only [hev, dispatch, native?_eq_some hj hb]
    rfl
  have hjob : (e.dispatch ev).1.job? id = some { k1 with state := .running } := by
    rw [hd]
    rcases h.state with hr | hr
    · have hsame : (e.setJob id k1).continued id = e.setJob id k1 := by
        simp only [continued, hset]
        exact if_pos (by rw [hk1, hr]; decide)
      rw [hsame, hset, hk1, ← hr]
    · exact continued_stopped hset hr
  intro k' hk'
  cases hjob.symm.trans hk'
  refine ⟨⟨⟨_, rfl, processes_hear hm ev⟩, .inl rfl, fun _ => rfl, fun hs => ?_⟩,
    fun hh => ?_⟩
  · cases hs
  · rw [not_isStopped_of_isRunning (isRunning_continued id hi)] at hh
    cases hh

/-- The last event of a process or of a stream, unless it settles the job. -/
lemma Stands.last (h : Stands e id k p) (hj : e.job? id = some k) (hb : k.body = .native m)
    (hm : m.processes = p.processes) (hsrc : ∃ src, ev.source? = some (id, src))
    (hl : ev.isLast = true) : Follows (e.dispatch ev).1 id k p ev := by
  have hset := job?_setJob_self e id hj (k.hear m ev)
  rw [dispatch_last hj hb hsrc hl, settleNative_eq hset rfl]
  split
  · intro k' hk'
    rw [job?_settle_self] at hk'
    cases hk'
  · refine h.keep hm hset rfl ?_ fun _ hs => ?_
    · rintro i index rfl
      cases hl
    · rw [not_isStop_of_isLast hl] at hs
      cases hs

lemma Stands.step (h : Stands e id k p) (a : e.registry.Agrees) (hj : e.job? id = some k)
    (hsrc : ∃ src, ev.source? = some (id, src))
    (hi : ∀ index change, ev = .process id index change → index < p.processes.length) :
    Follows (e.dispatch ev).1 id k p ev := by
  obtain ⟨m, hb, hm⟩ := h.body
  by_cases hl : ev.isLast = true
  · exact h.last hj hb hm hsrc hl
  obtain ⟨src, hsrc⟩ := hsrc
  cases ev with
  | interrupt => cases hsrc
  | closed => exact absurd rfl hl
  | output i s data =>
    cases hsrc
    have hquiet := audible_quiet.send e id s data (keyed_of_agrees a)
    refine h.keep hm ?_ (congrArg Registry.owner hquiet) (by simp) fun _ hs => by cases hs
    simp only [dispatch, send_eq_pour hj, job?_pour_native hj hb]
    rw [Job.hear, show m.hear (.output id s data) = m from rfl, ← hb]
  | process i index change =>
    cases hsrc
    cases change with
    | exited => exact absurd rfl hl
    | stopped => exact h.stop a hj hb hm index
    | continued => exact h.go hj hb hm (hi index _ rfl)

/-! ### All events of a job -/

lemma dispatch_gone (h : e.job? id = none) {src : Source} (hsrc : ev.source? = some (id, src)) :
    (e.dispatch ev).1 = e := by
  have hn : e.native? id = none := by simp only [native?, h]
  cases ev with
  | interrupt => cases hsrc
  | output i s data =>
    cases hsrc
    simp only [dispatch, send, h]
  | closed i s =>
    cases hsrc
    simp only [dispatch, hn]
  | process i index change =>
    cases hsrc
    simp only [dispatch, hn]

/-- Something else that the engine does: it does not speak for the processes of the job, does not
stop or continue it, and gives it the terminal only while it runs. -/
structure LeavesAlone (id : JobId) (e e' : Engine) : Prop where
  job : ∀ k', e'.job? id = some k' → ∃ k, e.job? id = some k ∧ k'.state = k.state ∧
    ∀ m, k.body = .native m → ∃ m', k'.body = .native m' ∧ m'.processes = m.processes
  owner : e'.owner = some id → e.owner = some id ∨ ∃ k, e.job? id = some k ∧ k.state = .running

lemma leavesAlone_dispatch (hev : ev.isOf id = false) (hm : ev.isMild = true) :
    LeavesAlone id e (e.dispatch ev).1 := by
  obtain ⟨-, -, howner, hjob⟩ := dispatch_mild (e := e) hev hm
  have hid := hjob id (.inl rfl)
  exact ⟨fun k hk => ⟨k, hid.symm.trans hk, rfl, fun m hb => ⟨m, hb, rfl⟩⟩,
    fun ho => .inl (howner id ho)⟩

/-- The events of a job as they come, among other things that the engine does. -/
inductive Attended (id : JobId) (e₀ : Engine) : List Event → Engine → Prop where
  | start : Attended id e₀ [] e₀
  | other {evs : List Event} {e e' : Engine} (h : Attended id e₀ evs e) (act : Act e e')
      (alone : LeavesAlone id e e') : Attended id e₀ evs e'
  | event {evs : List Event} {e : Engine} (ev : Event) (h : Attended id e₀ evs e) :
      Attended id e₀ (evs ++ [ev]) (e.dispatch ev).1

/-- The events of a job are attended to among others that are mild. -/
lemma attended_replay (e : Engine) (h : ∀ ev ∈ evs, ev.isOf id = false → ev.isMild = true) :
    Attended id e (evs.filter (isOf id)) (e.replay evs).1 := by
  induction evs using reverseRecOn with
  | nil => exact .start
  | append_singleton evs ev ih =>
    have hattended := ih fun a ha => h a (mem_append_left _ ha)
    rw [replay_snoc, filter_append]
    cases hev : ev.isOf id with
    | true =>
      rw [filter_cons_of_pos hev]
      exact hattended.event ev
    | false =>
      rw [filter_cons_of_neg (by simp [hev]), filter_nil, append_nil]
      exact hattended.other (.dispatch _ ev) (leavesAlone_dispatch hev (h ev (by simp) hev))

lemma Attended.moves (h : Attended id e0 evs e) (a : e0.registry.Agrees) :
    Relation.ReflTransGen Move e0.registry e.registry := by
  induction h with
  | start => exact .refl
  | other _ act _ ih => exact ih.trans (act.moves.path (a.moves ih))
  | event ev _ ih => exact ih.trans ((watches_moves.dispatch _ ev).path (a.moves ih))

lemma LeavesAlone.stands (h : LeavesAlone id e e') {k' : Job} (hj : e'.job? id = some k')
    (hs : ∀ k, e.job? id = some k → Stands e id k p) :
    Stands e' id k' p ∧ ∃ k, e.job? id = some k ∧ k'.state = k.state := by
  obtain ⟨k, hk, hstate, hbody⟩ := h.job k' hj
  have hstands := hs k hk
  obtain ⟨m, hb, hm⟩ := hstands.body
  obtain ⟨m', hb', hm'⟩ := hbody m hb
  refine ⟨⟨⟨m', hb', hm'.trans hm⟩, hstate ▸ hstands.state, ?_, ?_⟩, k, hk, hstate⟩
  · rw [hstate]
    exact hstands.running
  · rw [hstate]
    intro hstop ho
    rcases h.owner ho with ho | ⟨k1, hk1, hr⟩
    · exact hstands.released hstop ho
    · cases hk.symm.trans hk1
      cases hr.symm.trans hstop

variable {streams : List Stream}

/-- A job stands as its processes do, and is told to have stopped if stops are all that halts it. -/
lemma Attended.stands (h : Attended id e0 evs e) (a : e0.registry.Agrees)
    (hs : Spawned e0 id j n streams) (hr : j.state = .running)
    (ho : Orderly id (sources n streams) evs) (hj : e.job? id = some k) :
    Stands e id k (n.heard evs) ∧
      (n.HaltsByStops evs → (n.heard evs).isStopped = true → k.state = .stopped) := by
  induction h generalizing k with
  | start =>
    cases hs.job.symm.trans hj
    have hrun : n.IsRunning := by
      obtain ⟨q, hq⟩ := exists_mem_of_ne_nil _ hs.nonempty
      exact ⟨q, hq, hs.running q hq⟩
    refine ⟨⟨⟨n, hs.body, rfl⟩, .inl hr, fun _ => hr, fun hstop => ?_⟩, fun _ hh => ?_⟩
    · cases hr.symm.trans hstop
    · rw [show n.heard [] = n from rfl, not_isStopped_of_isRunning hrun] at hh
      cases hh
  | other _ _ alone ih =>
    obtain ⟨hstands, k1, hk1, hstate⟩ := alone.stands hj fun k1 hk1 => (ih ho hk1).1
    refine ⟨hstands, fun hb hh => ?_⟩
    rw [hstate]
    exact (ih ho hk1).2 hb hh
  | @event evs e ev h ih =>
    obtain ⟨src, hmem, hsrc⟩ := ho.own ev (by simp)
    have hi : ∀ index change, ev = .process id index change →
        index < (n.heard evs).processes.length := by
      rintro index change rfl
      cases hsrc
      rw [length_heard]
      simpa [sources] using hmem
    rcases hk0 : e.job? id with _ | k0
    · rw [dispatch_gone hk0 hsrc, hk0] at hj
      cases hj
    · obtain ⟨hstands, hstopped⟩ := ih ho.of_snoc hk0
      obtain ⟨hstands', hstopped'⟩ := hstands.step (a.moves (h.moves a)) hk0 ⟨src, hsrc⟩ hi k hj
      rw [heard_snoc]
      refine ⟨hstands', fun hb hh => hstopped' hh ?_⟩
      exact (hb.last hh).imp_left (hstopped hb.of_snoc)

/-- A job is told to have stopped: the table shows it, and the terminal is not with the job. -/
structure ToldStopped (e : Engine) (id : JobId) (k : Job) : Prop where
  state : k.state = .stopped
  entry : ∀ i, k.tableId = some i →
    ∃ x, e.table.entry? i = some x ∧ x.job = id ∧ x.state = .stopped
  owner : e.owner ≠ some id
  foreground : ∀ i, k.tableId = some i → e.table.foreground ≠ some i

lemma told_of_stopped (r : e.registry.Kept) (hj : e.job? id = some k) (hs : k.state = .stopped)
    (ho : e.owner ≠ some id) : ToldStopped e id k := by
  have hm := mem_registry hj
  refine ⟨hs, fun i hi => ?_, ho, fun i hi => r.toAgrees.foreground_ne r.toOwned hm ho hi⟩
  obtain ⟨x, hx, hjob, hstate⟩ := r.toAgrees.entry hm hi
  exact ⟨x, (lookup_eq_some_iff_mem r.numbers).mpr hx, hjob, hstate.trans hs⟩

/-- Once a job had the terminal, the console goes on whenever no job has it. -/
lemma resumed_of_moves (r : e0.registry.Kept)
    (hm : Relation.ReflTransGen Move e0.registry e.registry) (h0 : e0.owner = some id)
    (hnone : e.owner = none) {es : List ConsoleEvent} (hes : e.console = .transcript es) :
    Console.lastTurn es = some .resume := by
  have hturn : e.registry.turn = some (Console.lastTurn es) := by
    simp [registry, hes, Console.turn?]
  have hstart : e0.registry.turn ≠ some none := by
    intro ht
    have hno := (r.paused none ht).mpr (by simp [registry, h0])
    cases hno
  have hlast := turn_of_moves hm hstart
  have hpause := ((r.moves hm).paused _ hturn).not.mpr (by simp [registry, hnone])
  rw [hturn] at hlast
  rcases hl : Console.lastTurn es with _ | ev
  · exact absurd (congrArg some hl) hlast
  · have hmem := mem_filter.mp (mem_of_getLast? hl)
    cases ev with
    | resume => rfl
    | pause => exact absurd hl hpause
    | text | restore | job => cases hmem.2

/-- A job of processes runs as long as one of them does. If stops alone bring it to a halt, then
whenever none of its processes runs and one is stopped, it is told to have stopped, with the
terminal given back; and if it had the terminal and no other job took it, the console goes on. -/
theorem Attended.stops (r : e₀.registry.Kept) (hs : Spawned e₀ id j n streams)
    (hr : j.state = .running) (h : Attended id e₀ evs e) (ho : Orderly id (sources n streams) evs)
    (hj : e.job? id = some k) :
    ((n.heard evs).IsRunning → k.state = .running) ∧
    (n.HaltsByStops evs → (n.heard evs).isStopped = true → ToldStopped e id k ∧
      (e₀.owner = some id → e.owner = none → ∀ es, e.console = .transcript es →
        Console.lastTurn es = some .resume)) := by
  obtain ⟨hstands, hstopped⟩ := h.stands r.toAgrees hs hr ho hj
  have hmoves := h.moves r.toAgrees
  refine ⟨hstands.running, fun hb hh => ?_⟩
  have hstate := hstopped hb hh
  refine ⟨told_of_stopped (r.moves hmoves) hj hstate (hstands.released hstate), ?_⟩
  exact fun h₀ hnone es hes => resumed_of_moves r hmoves h₀ hnone hes

/-- `cat | sort` in the foreground. -/
def piping : Engine where
  jobs := [(1, { body := .native { launches := [], processes := [(2, .running), (3, .running)],
                                   openStreams := 2 },
                 state := .running, mode := .foreground, hub := 1, store := 0, stdout := .terminal,
                 stderr := .terminal, tableId := some 1, command := "cat | sort", live := true })]
  nextJob := 2
  table :=
    { entries := [(1, ⟨1, "cat | sort", .running, none, 0⟩)], foreground := some 1, nextSeq := 1 }
  console := .transcript [.pause]
  live := 1
  owner := some 1

lemma kept_piping : piping.registry.Kept where
  keys := by decide
  numbers := by decide
  numbered := by decide
  listed n id s := by
    simp only [registry, piping, Job.card, map_cons, map_nil, mem_singleton]
    constructor
    · rintro ⟨x, hx, rfl, rfl⟩
      cases hx
      exact ⟨_, rfl, rfl, rfl⟩
    · rintro ⟨c, hc, hn, rfl⟩
      cases hc
      cases hn
      exact ⟨_, rfl, rfl, rfl⟩
  entries := by decide
  unsettled := by decide
  fresh := by decide
  live := by decide
  holder := .inr ⟨1, _, 1, mem_singleton.mpr rfl, rfl, rfl, rfl⟩
  paused t ht := by
    cases ht
    decide

/-- Both stop, and after an interrupt the first is continued and stops again. -/
def stopsTwice : List Event :=
  [.process 1 0 .stopped, .process 1 1 .stopped, .interrupt, .process 1 0 .continued,
    .process 1 0 .stopped]

theorem stops_stopsTwice :
    ∃ k, (piping.replay stopsTwice).1.job? 1 = some k ∧
      ToldStopped (piping.replay stopsTwice).1 1 k ∧
      ∀ es, (piping.replay stopsTwice).1.console = .transcript es →
        Console.lastTurn es = some .resume := by
  have hspawned : Spawned piping 1 _ _ [.stdout, .stderr] :=
    ⟨rfl, rfl, cons_ne_nil _ _, by simp, by decide, rfl⟩
  have horderly : Orderly 1 [.stream .stdout, .stream .stderr, .process 0, .process 1]
      (stopsTwice.filter (isOf 1)) := ⟨by decide, by decide⟩
  obtain ⟨k, hk⟩ : ∃ k, (piping.replay stopsTwice).1.job? 1 = some k :=
    Option.isSome_iff_exists.mp (by decide)
  obtain ⟨htold, hresumed⟩ :=
    (Attended.stops kept_piping hspawned rfl (attended_replay piping (by decide)) horderly hk).2
      (by decide) (by decide)
  exact ⟨k, hk, htold, hresumed rfl (by decide)⟩

/-- The first stops, and then the other exits: no process runs and one is stopped, but the job is
still taken to be running and keeps the terminal. -/
theorem running_while_halted :
    let e := (piping.replay [.process 1 0 .stopped, .process 1 1 (.exited 0)]).1
    (e.native? 1).map (fun p => (p.2.isStopped, p.1.state)) = some (true, .running) ∧
      e.owner = some 1 ∧ e.table.foreground = some 1 ∧ e.console.turn? = some (some .pause) := by
  decide

end Engine

end JobShell
