import JobShell.Engine.Request
import JobShell.Proofs.Engine.JobOrder
import JobShell.Proofs.Engine.Registry

/-!
What an engine does to its registry.

All that an engine does is made of moves of its registry: most work leaves the registry alone, and
where jobs are made, started, stopped, continued and settled, each of these is one move or a few.
-/

namespace JobShell

open Registry Relation List

/-! ### The console -/

/-- Whether an event pauses the console or has it go on. -/
def ConsoleEvent.isTurn : ConsoleEvent → Bool
  | .pause | .resume => true
  | _ => false

/-- What an event tells of a job. -/
def ConsoleEvent.info? : ConsoleEvent → Option JobInfo
  | .job info => some info
  | _ => none

namespace Console

/-- The last time a console was paused or had to go on. -/
def lastTurn (es : List ConsoleEvent) : Option ConsoleEvent := (es.filter (·.isTurn)).getLast?

def turn? : Console → Option (Option ConsoleEvent)
  | .transcript es => some (lastTurn es)
  | .direct => none

lemma lastTurn_append (es : List ConsoleEvent) (ev : ConsoleEvent) :
    lastTurn (es ++ [ev]) = if ev.isTurn then some ev else lastTurn es := by
  cases h : ev.isTurn <;> simp [lastTurn, h]

/-- What a console was told of jobs. -/
def news? : Console → Option (List JobInfo)
  | .transcript es => some (es.filterMap ConsoleEvent.info?)
  | .direct => none

@[simp] lemma turn?_record (ev : ConsoleEvent) (c : Console) :
    (c.record ev).turn? = if ev.isTurn then c.turn?.map fun _ => some ev else c.turn? := by
  cases c with
  | transcript es =>
    simp only [record, turn?, lastTurn_append]
    split <;> rfl
  | direct => simp [record, turn?]

@[simp] lemma news?_record (ev : ConsoleEvent) (c : Console) :
    (c.record ev).news? = ev.info?.elim c.news? fun info => c.news?.map (· ++ [info]) := by
  cases c with
  | transcript es => rcases h : ev.info? with _ | info <;> simp [record, news?, h]
  | direct => cases ev.info? <;> rfl

@[simp] lemma write_eq_record (ch : Channel) (data : Bytes) (c : Console) (t : Terminal) :
    (c.write ch data t).1 = c.record (.text ch (Text.decodeLossy data)) := by
  cases c with
  | transcript es => rfl
  | direct => cases ch <;> rfl

@[simp] lemma notice_eq_record (info : JobInfo) (c : Console) (t : Terminal) :
    (c.notice info t).1 = c.record (.job info) := by
  cases c with
  | transcript es => rfl
  | direct =>
    simp only [notice]
    split <;> rfl

attribute [simp] pause resume restore ConsoleEvent.isTurn ConsoleEvent.info?

end Console

def Job.card (j : Job) : Card :=
  ⟨j.tableId, j.state, j.status, j.live, j.command, j.mode, j.feeder.isSome⟩

namespace Engine

def registry (e : Engine) : Registry where
  jobs := e.jobs.map fun p => (p.1, p.2.card)
  nextJob := e.nextJob
  table := e.table
  owner := e.owner
  live := e.live
  turn := e.console.turn?
  news := e.console.news?

variable {e e' e'' : Engine} {id : JobId} {j k : Job} {c : Card}

lemma mem_registry (h : e.job? id = some j) : (id, j.card) ∈ e.registry.jobs := by
  obtain ⟨l1, l2, hl, -⟩ := lookup_eq_some_iff.mp h
  simp [registry, hl]

lemma registry_setJob (e : Engine) (id : JobId) (k : Job) :
    (e.setJob id k).registry =
      { e.registry with jobs := assign e.registry.jobs id fun _ => k.card } := by
  simp only [registry, setJob, assign, List.map_map]
  congr 1
  refine map_congr_left fun p _ => ?_
  simp only [Function.comp]
  split <;> rfl

lemma registry_restate (e : Engine) (id : JobId) (j : Job) (state : JobState) (k : Job)
    (hk : k.card = { j.card with state }) :
    (({ e with table := j.tableId.elim e.table fun n => (e.table.update n state none).2 } :
      Engine).setJob id k).registry = e.registry.restate id j.card state := by
  rw [registry_setJob, hk]
  rfl

lemma fst_registry (e : Engine) : e.registry.jobs.map Prod.fst = e.jobs.map Prod.fst := by
  simp [registry]

/-! ### What leaves the registry alone -/

/-- The registry stays as it is. -/
def Quiet (e e' : Engine) : Prop := e.Keyed → e'.registry = e.registry

lemma Quiet.refl (e : Engine) : Quiet e e := fun _ => rfl

lemma Quiet.of_eq (h : e'.registry = e.registry) : Quiet e e' := fun _ => h

lemma Quiet.keyed (h : Quiet e e') (hk : e.Keyed) : e'.Keyed := by
  rw [Keyed, ← fst_registry, h hk, fst_registry]
  exact hk

lemma Quiet.trans (h1 : Quiet e e') (h2 : Quiet e' e'') : Quiet e e'' :=
  fun hk => (h2 (h1.keyed hk)).trans (h1 hk)

lemma registry_adjust (hk : e.Keyed) (h : e.job? id = some j) {f : Card → Card}
    (hc : k.card = f j.card) : (e.setJob id k).registry = e.registry.adjust id f := by
  obtain ⟨l1, l2, -, -, hset, -⟩ := exists_split (by rw [fst_registry]; exact hk) (mem_registry h)
  rw [registry_setJob, adjust, hset, hset, hc]

lemma quiet_setJob (h : e.job? id = some j) (hc : k.card = j.card) : Quiet e (e.setJob id k) := by
  intro hk
  obtain ⟨l1, l2, hl, -, hset, -⟩ := exists_split (by rw [fst_registry]; exact hk) (mem_registry h)
  rw [registry_setJob, hset, hc, ← hl]

lemma quiet_write (c : Channel) (data : Bytes) : Quiet e (e.write c data) :=
  .of_eq (by simp [registry, write])

lemma registry_notice (e : Engine) (info : JobInfo) :
    (e.notice info).registry = { e.registry with news := e.console.news?.map (· ++ [info]) } := by
  simp [registry, notice]

lemma quiet_defer (t : Task) : Quiet e (e.defer t) := .of_eq rfl

lemma quiet_system (s : System) : Quiet e { e with system := s } := .of_eq rfl

lemma audible_quiet : Audible Quiet where
  refl := .refl
  trans := .trans
  system _ _ _ := quiet_system _
  body h _ := quiet_setJob h rfl
  write _ c data := quiet_write c data
  captures _ _ _ := .of_eq rfl

lemma rousing_quiet : Rousing Quiet where
  toTolerant := audible_quiet.toTolerant
  rouse h _ _ := quiet_setJob h rfl
  ready _ _ := quiet_defer _

/-! ### What is done to a job -/

/-- The registry comes to a state by moves nobody is told of, or by one move. -/
def Moves (e e' : Engine) : Prop :=
  e.registry.Agrees → ReflTransGen Silent e.registry e'.registry ∨ Move e.registry e'.registry

lemma keyed_of_agrees (a : e.registry.Agrees) : e.Keyed := by
  rw [Keyed, ← fst_registry]
  exact a.keys

lemma Moves.path (h : Moves e e') (a : e.registry.Agrees) :
    ReflTransGen Move e.registry e'.registry := by
  rcases h a with hs | hm
  · exact moves_of_silent hs
  · exact .single hm

lemma Moves.refl (e : Engine) : Moves e e := fun _ => .inl .refl

lemma Moves.quiet (h1 : Moves e e') (h2 : Quiet e' e'') : Moves e e'' := by
  intro a
  rw [h2 (keyed_of_agrees (a.moves (h1.path a)))]
  exact h1 a

lemma Quiet.then (h1 : Quiet e e') (h2 : Moves e' e'') : Moves e e'' := by
  intro a
  have hr := h1 (keyed_of_agrees a)
  unfold Moves at h2
  rw [hr] at h2
  exact h2 a

lemma Quiet.moves (h : Quiet e e') : Moves e e' := h.then (.refl e')

lemma registry_passOn (hk : e.Keyed) (j : Job) :
    (e.passOn j).registry =
      { e.registry with live := if j.live then e.live - 1 else e.live } := by
  have hpass := rousing_quiet.passOn e j
  split at hpass <;> rename_i hl
  · rw [if_pos hl]
    exact hpass hk
  · rw [if_neg hl]
    exact hpass hk

lemma registry_eraseJob (e : Engine) (id : JobId) :
    (e.eraseJob id).registry =
      { e.registry with jobs := e.registry.jobs.filter (·.1 != id) } := by
  simp only [registry, eraseJob, filter_map]
  rfl

/-- Whoever had the terminal gives it back, and the table is told. -/
lemma registry_announce (e : Engine) (id : JobId) (j : Job) (state : JobState) (status : Int) :
    (e.announce id j state status).registry =
      let R : Registry := { e.registry with
        table := j.tableId.elim e.table fun n => (e.table.update n state (some status)).2 }
      (if e.owner = some id then R.giveBack else R).tell j.tableId fun n =>
        ⟨n, j.command, state, some status, e.table.foreground == some n⟩ := by
  rcases hn : j.tableId with _ | n <;> by_cases ho : e.owner = some id <;>
    simp [announce, hn, ho, registry, giveBack, notice, Registry.tell]

lemma registry_settle (hk : e.Keyed) (h : e.job? id = some j) (state : JobState) (status : Int) :
    (e.settle id state status).1.registry = e.registry.leave id j.card state status := by
  have hpass := registry_passOn hk j
  have howner : (e.passOn j).owner = e.owner := congrArg Registry.owner hpass
  have htable : (e.passOn j).table = e.table := congrArg Registry.table hpass
  rw [settle_eq h, registry_eraseJob, registry_announce, hpass, howner, htable, leave]
  by_cases ho : e.owner = some id
  · simp only [ho, if_true, show e.registry.owner = some id from ho]
    rfl
  · simp only [ho, if_false, show ¬ e.registry.owner = some id from ho]
    rfl

lemma moves_settle {state : JobState} (hs : state.isFinal = true) (id : JobId) (status : Int) :
    Moves e (e.settle id state status).1 := by
  intro a
  rcases hj : e.job? id with _ | j
  · simp only [settle, hj]
    exact .inl .refl
  · rw [registry_settle (keyed_of_agrees a) hj]
    exact .inr (.leave (mem_registry hj) hs status)

lemma registry_halt (e : Engine) (j : Job) (table : JobTable) (release : Prop) [Decidable release] :
    (e.halt j table release).registry =
      (if release then ({ e.registry with table } : Registry).giveBack
      else { e.registry with table }).tell j.tableId fun n =>
        ⟨n, j.command, .stopped, none, false⟩ := by
  rcases hn : j.tableId with _ | n <;> by_cases hr : release <;>
    simp [halt, hn, hr, registry, giveBack, notice, Registry.tell]

lemma registry_stopped (a : e.registry.Agrees) (h : e.job? id = some j) (hs : j.state = .running) :
    (e.stopped id).registry = e.registry.stop id j.card := by
  have hrelease : (∃ n, j.tableId = some n ∧
      (e.table.update n .stopped none).1 = .foregroundStopped) ↔
      j.tableId.isSome ∧ e.table.foreground = j.tableId := by
    rcases hn : j.tableId with _ | n
    · simp
    · have hc : e.table.contains n = true := a.contains (mem_registry h) hn
      simp [JobTable.change_update_stopped hc]
  rw [stopped_eq h hs, registry_halt, registry_setJob, stop]
  simp only [hrelease]
  rfl

lemma moves_stopped (id : JobId) : Moves e (e.stopped id) := by
  intro a
  rcases hj : e.job? id with _ | j
  · simp only [stopped, hj]
    exact .inl .refl
  by_cases hs : j.state = .running
  · rw [registry_stopped a hj hs]
    exact .inr (.stop (mem_registry hj))
  · simp only [stopped, hj, ne_eq, hs, not_false_eq_true, if_true]
    exact .inl .refl

lemma moves_continued (id : JobId) : Moves e (e.continued id) := by
  intro _
  rcases hj : e.job? id with _ | j
  · simp only [continued, hj]
    exact .inl .refl
  by_cases hs : j.state = .stopped
  swap
  · simp only [continued, hj, ne_eq, hs, not_false_eq_true, if_true]
    exact .inl .refl
  have hset := registry_restate e id j .running { j with state := .running } rfl
  have hgo : (e.continued id).registry = e.registry.resume id j.card := by
    simp only [continued, hj, hs, ne_eq, not_true_eq_false, if_false]
    rw [Registry.resume, ← hset]
    rcases hn : j.tableId with _ | n
    · simp only [Registry.tell, Job.card, hn, Option.elim]
    · simp only [registry_notice, Registry.tell, Job.card, hn, Option.elim]
      rfl
  rw [hgo]
  exact .inr (.resume (mem_registry hj))

/-! ### Making and starting jobs -/

lemma registry_takeTerminal (e : Engine) (id : JobId) (tableId : Option ℕ) :
    (e.takeTerminal id tableId).registry = e.registry.take id tableId := by
  simp [registry, takeTerminal, Registry.take]

lemma registry_readied (e : Engine) (id : JobId) (j : Job) (mode : Mode) (s : System) (k : Job)
    (hk : k.card = { j.card with mode, state := .running }) :
    (({ e.readied id j mode with system := s } : Engine).setJob id k).registry =
      e.registry.start id j.card mode := by
  have hrun : ∀ e : Engine, ((({ e with
      table := j.tableId.elim e.table fun n => (e.table.update n .running none).2
      system := s } : Engine).setJob id k).registry) = e.registry.run id j.card mode := by
    intro e
    have hset := registry_restate { e with system := s } id { j with mode } .running k hk
    exact hset.trans restate_adjust.symm
  unfold readied start
  cases mode with
  | foreground =>
    rw [if_pos rfl, if_pos rfl, ← registry_takeTerminal]
    exact hrun (e.takeTerminal id j.tableId)
  | background => exact hrun e

/-- A job that has no processes yet. -/
def Dormant (e : Engine) (id : JobId) : Prop := ∃ c, (id, c) ∈ e.registry.jobs ∧ c.live = false

lemma exists_job_of_mem_registry (hk : e.Keyed) (h : (id, c) ∈ e.registry.jobs) :
    ∃ j, e.job? id = some j ∧ j.card = c := by
  obtain ⟨⟨i, j⟩, hm, hp⟩ := mem_map.mp h
  cases hp
  exact ⟨j, hk.mem_iff.mp hm, rfl⟩

lemma registry_startJob (hk : e.Keyed) (h : (id, c) ∈ e.registry.jobs)
    (hl : c.live = false) (mode : Mode) (taps : Taps) :
    (e.startJob id mode taps).2.registry = e.registry.start id c mode ∨
      (e.startJob id mode taps).2.registry =
        (e.registry.start id c mode).enliven id { c with mode, state := .running } := by
  obtain ⟨j, hj, rfl⟩ := exists_job_of_mem_registry hk h
  rcases hb : j.body with ch | n
  · left
    rw [startJob_chain hj hb]
    dsimp only
    have hset := registry_readied e id j mode (e.readied id j mode).system
      (begun j mode (.chain (ch.start taps).2) j.live) rfl
    split <;> exact hset
  · rcases hs : n.start id taps e.system with ⟨d, n', s⟩
    rw [startJob_native hj hb mode hs]
    have hset := registry_readied e id j mode s (begun j mode (.native n') false) (by
      rw [← hl]
      rfl)
    set e0 : Engine := { e.readied id j mode with system := s }
    have hdiag : ∀ e : Engine, Quiet e (e.complain id d) := fun e => audible_quiet.complain e id d
    have hkeyed : ∀ k, (e0.setJob id k).Keyed := by
      have hjobs : e0.jobs = e.jobs := (e.readied_eq id j mode).1
      have hjob : e0.job? id = some j := by
        rw [job?, hjobs]
        exact hj
      exact keyed_setJob (by rw [Keyed, hjobs]; exact hk) hjob
    cases hp : n'.processes.isEmpty with
    | true =>
      left
      simp only [Bool.not_true, Bool.false_eq_true, if_false]
      exact (((quiet_defer _).trans (hdiag _)) (hkeyed _)).trans hset
    | false =>
      right
      simp only [Bool.not_false, if_true]
      refine (hdiag _ ?_).trans ?_
      · exact hkeyed (begun j mode (.native n') true)
      rw [enliven, ← hset, registry_setJob e0 id (begun j mode (.native n') false)]
      simp only [assign_assign]
      have hlive := registry_setJob e0 id (begun j mode (.native n') true)
      exact congrArg (fun R : Registry => { R with live := R.live + 1 }) hlive

lemma Dormant.startJob (hk : e.Keyed) (hd : e.Dormant id) (mode : Mode) (taps : Taps) :
    (e.startJob id mode taps).2.Keyed ∧
      ∀ i, i ≠ id → e.Dormant i → (e.startJob id mode taps).2.Dormant i := by
  obtain ⟨c, hc, hl⟩ := hd
  have htold : (e.registry.start id c mode).jobs.map Prod.fst = e.registry.jobs.map Prod.fst := by
    rw [jobs_start, fst_assign]
  have hmem := mem_start hc mode (i := id) |>.mpr (.inr ⟨rfl, rfl⟩)
  rcases registry_startJob hk hc hl mode taps with hr | hr
  · refine ⟨?_, fun i hi ⟨d, hd, hdl⟩ => ⟨d, ?_, hdl⟩⟩
    · rw [Keyed, ← fst_registry, hr, htold, fst_registry]
      exact hk
    · rw [hr]
      exact (mem_start hc mode).mpr (.inl ⟨hi, hd⟩)
  · refine ⟨?_, fun i hi ⟨d, hd, hdl⟩ => ⟨d, ?_, hdl⟩⟩
    · rw [Keyed, ← fst_registry, hr, enliven, fst_assign, htold, fst_registry]
      exact hk
    · rw [hr]
      exact (mem_assign_const hmem).mpr (.inl ⟨hi, (mem_start hc mode).mpr (.inl ⟨hi, hd⟩)⟩)

lemma moves_enlivened (hk : e.Keyed) (h : (id, c) ∈ e.registry.jobs)
    (hl : c.live = false) (mode : Mode) (taps : Taps) :
    ReflTransGen Silent (e.registry.start id c mode) (e.startJob id mode taps).2.registry := by
  rcases registry_startJob hk h hl mode taps with hr | hr
  · rw [hr]
  · rw [hr]
    exact .single ⟨.enliven ((mem_start h mode).mpr (.inr ⟨rfl, rfl⟩)) hl rfl, rfl⟩

lemma Dormant.moves_startJob (hk : e.Keyed) (hd : e.Dormant id) (taps : Taps) :
    ReflTransGen Silent e.registry (e.startJob id .background taps).2.registry := by
  obtain ⟨c, hc, hl⟩ := hd
  exact .head ⟨.start hc, rfl⟩ (moves_enlivened hk hc hl .background taps)

/-- After the last job of a pipeline the others are started in the background. -/
lemma startSegments_moves (hk : e.Keyed) (route : Route) (fed : Bool) {js : List JobId}
    (hnd : js.Nodup) (hd : ∀ i ∈ js, e.Dormant i) {last : JobId} (hlast : js.getLast? = some last) :
    (∃ taps, ReflTransGen Silent (e.startJob last route.mode taps).2.registry
      (e.startSegments route fed js).2.registry) ∧
    (e.startSegments route fed js).2.Keyed ∧
      ∀ i, i ∉ js → e.Dormant i → (e.startSegments route fed js).2.Dormant i := by
  induction js generalizing fed with
  | nil => cases hlast
  | cons job rest ih =>
    rcases rest with _ | ⟨next, rest⟩
    · cases hlast
      obtain ⟨hk', hd'⟩ := (hd job (by simp)).startJob hk route.mode
        { route.taps e.config.inheritTerminal with stdin := fed }
      exact ⟨⟨_, .refl⟩, hk', fun i hi => hd' i (by simpa using hi)⟩
    · obtain ⟨hjob, hnd⟩ := nodup_cons.mp hnd
      obtain ⟨⟨taps, hm⟩, hk1, hd1⟩ := ih true hnd (fun i hi => hd i (mem_cons_of_mem _ hi))
        (by simpa [getLast?_cons_cons] using hlast)
      have hdj := hd1 job hjob (hd job mem_cons_self)
      simp only [startSegments]
      set e1 := (e.startSegments route true (next :: rest)).2 with he1
      set t : Taps :=
        { stdin := fed, stdout := true, stderr := (route.taps e1.config.inheritTerminal).stderr }
      obtain ⟨hk2, hd2⟩ := hdj.startJob hk1 .background t
      refine ⟨⟨taps, hm.trans (hdj.moves_startJob hk1 t)⟩, hk2, fun i hi hid => ?_⟩
      simp only [mem_cons, not_or] at hi
      exact hd2 i hi.1 (hd1 i (by simpa using hi.2) hid)

lemma registry_createJob (e : Engine) (kind : JobKind) (commands : List Command) (hub : HubId)
    (store : StoreId) (sink : Sink) (listed : Listing) :
    (e.createJob kind commands hub store sink listed).2.registry =
      e.registry.enter listed (Command.pipeLine commands) false := by
  rw [createJob_eq]
  rcases listed with _ | ⟨foreground, title⟩ <;>
    simp [registry, Registry.enter, enter, newJob, Job.card, createHub, JobTable.add]

lemma dormant_createJob (e : Engine) (kind : JobKind) (commands : List Command) (hub : HubId)
    (store : StoreId) (sink : Sink) (listed : Listing) (i : JobId)
    (hi : e.Dormant i ∨ i = e.nextJob) :
    (e.createJob kind commands hub store sink listed).2.Dormant i := by
  unfold Dormant
  rw [registry_createJob]
  rcases hi with ⟨c, hc, hl⟩ | rfl
  · exact ⟨c, mem_append_left _ hc, hl⟩
  · exact ⟨_, mem_append_right _ (mem_singleton_self _), rfl⟩

lemma createSegments_eq (hub : HubId) (ctx : Context) (title : String)
    (groups : Groups) (e : Engine) :
    (e.createSegments hub ctx title groups).1 = range' e.nextJob groups.length ∧
      ∀ i, e.Dormant i ∨ i ∈ range' e.nextJob groups.length →
        (e.createSegments hub ctx title groups).2.Dormant i := by
  induction groups generalizing e with
  | nil => exact ⟨rfl, fun i hi => hi.resolve_right (by simp)⟩
  | cons g groups ih =>
    obtain ⟨kind, commands⟩ := g
    simp only [createSegments]
    set listed := if groups.isEmpty = true then ctx.route.listed?.map (·, title) else none
    have hmade := dormant_createJob e kind commands hub ctx.store ctx.route.sink listed
    obtain ⟨hids, hd⟩ := ih (e.createJob kind commands hub ctx.store ctx.route.sink listed).2
    have hnext : (e.createJob kind commands hub ctx.store ctx.route.sink listed).2.nextJob =
        e.nextJob + 1 := rfl
    rw [hnext] at hids hd
    refine ⟨?_, fun i hi => hd i ?_⟩
    · rw [hids, length_cons, range'_succ]
      rfl
    · rw [length_cons, range'_succ, mem_cons, ← or_assoc] at hi
      exact hi.imp_left (hmade i)

/-- A change to a job, if it is there. -/
def amend (e : Engine) (id : JobId) (f : Job → Job) : Engine :=
  (e.job? id).elim e fun j => e.setJob id (f j)

lemma connect_eq (e : Engine) (a b : JobId) : e.connect a b =
    (e.amend a ({ · with stdout := .forward b })).amend b ({ · with feeder := some a }) := by
  rcases ha : e.job? a with _ | j
  · rcases hb : e.job? b with _ | k <;> simp [connect, amend, ha, hb]
  · rcases hb : (e.setJob a { j with stdout := .forward b }).job? b with _ | k <;>
      simp [connect, amend, ha, hb]

lemma connectAll_induction {P : Engine → Prop} (hP : ∀ e a b, P e → P (e.connect a b)) (h : P e)
    (js : List JobId) : P (e.connectAll js) := by
  induction js generalizing e with
  | nil => exact h
  | cons a js ih =>
    cases js with
    | nil => exact h
    | cons b js => exact ih (hP e a b h)

lemma registry_amend (hk : e.Keyed) (id : JobId) {f : Job → Job} {g : Card → Card}
    (hc : ∀ j, (f j).card = g j.card) : (e.amend id f).registry = e.registry.adjust id g := by
  rcases hj : e.job? id with _ | j <;> simp only [amend, hj, Option.elim]
  · rw [adjust, assign_of_notin]
    intro c hc
    obtain ⟨j, hj', -⟩ := exists_job_of_mem_registry hk hc
    cases hj.symm.trans hj'
  · exact registry_adjust hk hj (hc j)

lemma quiet_amend (id : JobId) {f : Job → Job} (hc : ∀ j, (f j).card = j.card) :
    Quiet e (e.amend id f) := by
  rcases hj : e.job? id with _ | j <;> simp only [amend, hj, Option.elim]
  · exact .refl e
  · exact quiet_setJob hj (hc j)

lemma registry_connect (hk : e.Keyed) (id next : JobId) :
    (e.connect id next).registry = e.registry.feed next := by
  have hq : Quiet e (e.amend id ({ · with stdout := .forward next })) := quiet_amend id fun _ => rfl
  rw [connect_eq, registry_amend (hq.keyed hk) next (g := ({ · with fed := true })) fun _ => rfl,
    hq hk]
  rfl

lemma registry_connectAll (hk : e.Keyed) (js : List JobId) :
    (e.connectAll js).registry = js.tail.foldl Registry.feed e.registry := by
  induction js generalizing e with
  | nil => rfl
  | cons job js ih =>
    rcases js with _ | ⟨next, js⟩
    · rfl
    · have hc := registry_connect hk job next
      have hk' : (e.connect job next).Keyed := by
        rw [Keyed, ← fst_registry, hc, Registry.feed, adjust, fst_assign, fst_registry]
        exact hk
      exact (ih hk').trans (by rw [hc]; rfl)

/-- The jobs of a pipeline are made one after the other, and the last one is listed. If all but the
first are fed, and with `fed` that one too, it is as if the last one were made after all this. -/
lemma registry_createSegments (hub : HubId) (ctx : Context) (title : String)
    (g : JobKind × List Command) (groups : Groups) (a : e.registry.Agrees)
    (fed : Bool) :
    ∃ R command, ReflTransGen Silent e.registry R ∧ R.nextJob = e.nextJob + groups.length ∧
      (groups = [] → command = Command.pipeLine g.2) ∧
      ((if fed then [e.nextJob] else []) ++ range' (e.nextJob + 1) groups.length).foldl
          Registry.feed (e.createSegments hub ctx title (g :: groups)).2.registry =
        R.enter (ctx.route.listed?.map (·, title)) command (fed || !groups.isEmpty) := by
  induction groups generalizing g e fed with
  | nil =>
    refine ⟨e.registry, Command.pipeLine g.2, .refl, rfl, fun _ => rfl, ?_⟩
    have hmade := registry_createJob e g.1 g.2 hub ctx.store ctx.route.sink
      (ctx.route.listed?.map (·, title))
    cases fed with
    | false => exact hmade
    | true => exact (congrArg (Registry.feed · e.nextJob) hmade).trans (feed_enter_new a _ _)
  | cons g' groups ih =>
    have hmade := registry_createJob e g.1 g.2 hub ctx.store ctx.route.sink none
    set e1 := (e.createJob g.1 g.2 hub ctx.store ctx.route.sink none).2 with he1
    have hnext1 : e1.nextJob = e.nextJob + 1 := rfl
    have hpath : Silent e.registry e1.registry := by
      rw [hmade]
      exact ⟨@Move.enter e.registry none _ _ fun _ => nofun, rfl⟩
    obtain ⟨R, command, hR, hnext, -, hreg⟩ := ih g' (a.move hpath.1) true
    rw [hnext1, Nat.succ_add_eq_add_succ] at hnext
    rw [hnext1] at hreg
    change foldl _ _ (range' (e.nextJob + 1) (groups.length + 1)) = _ at hreg
    cases fed with
    | false => exact ⟨R, command, .head hpath hR, hnext, nofun, hreg⟩
    | true =>
      refine ⟨R.feed e.nextJob, command, .head hpath (hR.tail (silent_feed R _)), hnext, nofun, ?_⟩
      have hfed := congrArg (Registry.feed · e.nextJob) hreg
      rw [← foldl_feed] at hfed
      have hne : e.nextJob ≠ R.nextJob := by
        rw [hnext]
        exact Nat.ne_of_lt (Nat.lt_add_of_pos_right (Nat.succ_pos _))
      exact hfed.trans (feed_enter _ _ _ hne)

/-- A pipeline is made and started, and its last job has the terminal as soon as it is listed in
the foreground. -/
lemma moves_launchJobs (hub : HubId) {commands : List Command} (hne : commands ≠ [])
    (ctx : Context) : Moves e (e.launchJobs hub commands ctx).2.2 := by
  intro a
  have hflat := (e.services.divides_partition commands).flatten
  have hg := e.services.partition_ne_nil hne
  unfold launchJobs
  generalize e.services.partition commands = groups at hg hflat ⊢
  obtain ⟨g, groups, rfl⟩ := exists_cons_of_ne_nil hg
  set title := Command.pipeLine commands with htitle
  obtain ⟨hids, hdorm⟩ := createSegments_eq hub ctx title (g :: groups) e
  obtain ⟨R, command, hR, hnext, hcommand, hreg⟩ :=
    registry_createSegments hub ctx title g groups a false
  have htext : (!groups.isEmpty) = false → title = command := by
    intro hs
    obtain rfl : groups = [] := by simpa using hs
    rw [hcommand rfl, htitle, ← hflat, flatMap_singleton]
  dsimp only
  rw [hids]
  set e1 := (e.createSegments hub ctx title (g :: groups)).2
  set js := range' e.nextJob (g :: groups).length with hjs
  have hlast : js.getLast? = some R.nextJob := by
    simp [hjs, getLast?_range', hnext]
  have hjobs := foldl_feed_jobs js.tail e1.registry
  have hkeyed : e1.Keyed := by
    have hfst := congrArg (map Prod.fst) hjobs
    rw [List.map_map, List.map_map] at hfst
    rw [Keyed, ← fst_registry]
    exact hfst ▸ (hreg ▸ ((a.moves (moves_of_silent hR)).enter _ _ _).keys)
  have hreg2 : (e1.connectAll js).registry = _ := (registry_connectAll hkeyed js).trans hreg
  have hkeyed2 : (e1.connectAll js).Keyed := by
    rw [Keyed, ← fst_registry, hreg2]
    exact ((a.moves (moves_of_silent hR)).enter _ _ _).keys
  have hdorm2 : ∀ i ∈ js, (e1.connectAll js).Dormant i := by
    intro i hi
    obtain ⟨c, hc, hl⟩ := hdorm i (.inr hi)
    have hmem := mem_map_of_mem (f := fun p : JobId × Card => (p.1, p.2.live)) hc
    rw [← hjobs, ← registry_connectAll hkeyed] at hmem
    obtain ⟨⟨i', c'⟩, hc', heq⟩ := mem_map.mp hmem
    obtain ⟨rfl, hlive⟩ := Prod.mk.inj heq
    exact ⟨c', hc', hlive.trans hl⟩
  obtain ⟨⟨taps, hm⟩, -⟩ := startSegments_moves hkeyed2 ctx.route false nodup_range' hdorm2 hlast
  refine .inl (hR.trans (.trans ?_ hm))
  obtain ⟨c, hc, hl⟩ := hdorm2 R.nextJob (mem_of_getLast? hlast)
  have hstart := moves_enlivened hkeyed2 hc hl ctx.route.mode taps
  rw [hreg2] at hc hstart
  refine .trans ?_ hstart
  rcases hroute : ctx.route with _ | _ | key <;> rw [hroute] at hc
  · exact .single ⟨.launch R htext hc, rfl⟩
  · have hlisted : (!groups.isEmpty) = false → ∀ t, some title = some t → t = command := by
      rintro hf t ⟨⟩
      exact htext hf
    exact .head ⟨.enter R hlisted, rfl⟩ (.single ⟨.start hc, rfl⟩)
  · exact .head ⟨@Move.enter R none _ _ fun _ => by simp, rfl⟩ (.single ⟨.start hc, rfl⟩)

lemma quiet_subscribe {hub : HubId} {callback : Callback} (h : e.subscribe hub callback = .ok e') :
    Quiet e e' := by
  unfold subscribe at h
  split at h
  · cases h
  · cases h
    split <;> exact .of_eq rfl

lemma quiet_oversee (hub : HubId) (jobs : List JobId) (launched negated : Bool) :
    Quiet e (e.oversee hub jobs launched negated).2 := by
  rcases e.oversee_cases hub jobs launched negated with he | ⟨j, hs⟩
  · exact he ▸ .of_eq rfl
  · exact quiet_subscribe hs

lemma quiet_createHub (parent : Option HubId) : Quiet e (e.createHub parent).2 := .of_eq rfl

lemma moves_startPipeline (commands : List Command) (ctx : Context) (parent : Option HubId)
    (negated : Bool) : Moves e (e.startPipeline commands ctx parent negated).2 := by
  rw [startPipeline_eq]
  have hhub := quiet_createHub (e := e) parent
  split
  · exact hhub.moves.quiet (quiet_defer _)
  · rename_i hne
    exact (hhub.then (moves_launchJobs _ (by simpa using hne) ctx)).quiet (quiet_oversee _ _ _ _)

/-! ### Job control -/

lemma moves_foreground {n : ℕ} (h : e.foreground n = .ok e') : Moves e e' := by
  obtain ⟨i, j, system, hn, hjob, -, rfl⟩ := foreground_eq_ok h
  have hset : Moves e ((e.setJob i j.raised).takeTerminal i (some n)) := by
    intro a
    rw [registry_takeTerminal, registry_adjust (keyed_of_agrees a) hjob
      (f := ({ · with mode := .foreground })) rfl]
    exact .inl (.tail (.single (silent_mode _ i _)) ⟨.take hn, rfl⟩)
  exact hset.quiet (quiet_system _)

lemma moves_background {n : ℕ} (h : e.background n = .ok e') : Moves e e' := by
  obtain ⟨i, j, system, hjob, -, rfl⟩ := background_eq_ok h
  have hset : Moves e (e.setJob i { j with mode := .background }) := by
    intro a
    rw [registry_adjust (keyed_of_agrees a) hjob (f := ({ · with mode := .background })) rfl]
    exact .inl (.single (silent_mode _ i _))
  exact hset.quiet (quiet_system _)

/-- A turn that was taken ran a task or heard of an event, for which it may have listened. -/
lemma took_cases {block : Bool} {ws : List Work} (h : e.turn block = .took e' ws) :
    (∃ t ts, e.tasks = t :: ts ∧ (e.withTasks ts).runTask t = (e', ws)) ∨
    ∃ e1 event events, (e1 = e ∨ e1 = e.listen) ∧
      owing (({ e1 with events } : Engine).dispatch event) = (e', ws) := by
  have heard : ∀ {e1 : Engine}, (e1 = e ∨ e1 = e.listen) → e1.hear = some (e', ws) →
      ∃ e1 event events, (e1 = e ∨ e1 = e.listen) ∧
        owing (({ e1 with events } : Engine).dispatch event) = (e', ws) := by
    intro e1 he hh
    unfold hear at hh
    split at hh
    · cases hh
    · exact ⟨e1, _, _, he, Option.some.inj hh⟩
  unfold turn at h
  split at h
  · cases h
    exact .inl ⟨_, _, ‹_›, rfl⟩
  · split at h
    · cases h
      exact .inr (heard (.inl rfl) ‹_›)
    · split at h
      · cases h
      · split at h
        · cases h
        · split at h
          · cases h
            exact .inr (heard (.inr rfl) ‹_›)
          · cases h

/-- Work on a request that holds nothing. -/
inductive Asks : Work → Prop where
  | turns (count : ℕ) (block : Bool) (taken : List Bool) : Asks (.turns count block taken)
  | poll : Asks .poll
  | drain : Asks .drain
  | untilState (id : ℕ) (state : Option JobState) : Asks (.untilState id state)
  | reply (r : Except Fault Reply) : Asks (.reply r)

/-- Such work is followed by more of it, with a turn before that or without one. -/
lemma Asks.perform {w : Work} (hw : Asks w) (e : Engine) :
    (∃ next : Option Work, (∀ w' ∈ next, Asks w') ∧ e.perform w = (e, next.toList)) ∨
    ∃ block e' ws w', e.turn block = .took e' ws ∧ Asks w' ∧ e.perform w = (e', ws ++ [w']) := by
  have hone : ∀ {w' : Work}, Asks w' →
      ∃ next : Option Work, (∀ w' ∈ next, Asks w') ∧ (e, [w']) = (e, next.toList) :=
    fun h => ⟨some _, by simpa using h, rfl⟩
  cases hw with
  | turns count block taken =>
    cases count with
    | zero => exact .inl (hone (.reply _))
    | succ count =>
      simp only [Engine.perform]
      split
      · exact .inr ⟨_, _, _, _, ‹_›, .turns .., rfl⟩
      · exact .inl (hone (.turns ..))
      · exact .inl (hone (.reply _))
  | poll =>
    simp only [Engine.perform]
    split
    · exact .inr ⟨_, _, _, _, ‹_›, .poll, rfl⟩
    · exact .inl (hone (.reply _))
  | drain =>
    simp only [Engine.perform, turnThen]
    split
    · exact .inl (hone .poll)
    split
    · exact .inr ⟨_, _, _, _, ‹_›, .drain, rfl⟩
    · exact .inl (hone .drain)
    · exact .inl (hone (.reply _))
  | untilState id state =>
    simp only [Engine.perform, turnThen]
    split
    · exact .inl (hone (.reply _))
    split
    · exact .inr ⟨_, _, _, _, ‹_›, .untilState id state, rfl⟩
    · exact .inl (hone (.untilState id state))
    · exact .inl (hone (.reply _))
  | reply r => exact .inl ⟨none, by simp, rfl⟩

/-- Whoever waits for a hub takes a turn, unless there is an answer. -/
lemma await_cases (e : Engine) (X : HubId) (v : Waiter) :
    (∃ s, e.hubs.status? X = some s ∧
      e.await X v = ({ e with hubs := e.hubs.release X } : Engine).answer (.ok s) v) ∨
    e.hubs.status? X = none ∧
      ((∃ f, (e.hubs.get? X = none ∨ e.turn true = .stalled) ∧
        e.await X v = e.answer (.error f) v) ∨
      ∃ e' ws, e.turn true = .took e' ws ∧ e.await X v = (e', ws ++ [.await X v])) := by
  rcases hX : e.hubs.get? X with _ | h
  · exact .inr ⟨by simp [Hubs.status?, hX], .inl ⟨.unknownHub X, .inl rfl,
      by simp only [await, hX]⟩⟩
  rcases hs : h.status with _ | s
  · refine .inr ⟨by simp [Hubs.status?, hX, hs], ?_⟩
    have hidle : e.turn true ≠ .idle := by
      unfold turn
      repeat' split
      all_goals simp_all
    rcases ht : e.turn true with ⟨e', ws⟩ | _ | _
    · exact .inr ⟨e', ws, rfl, by simp only [await, hX, hs, turnThen, ht]⟩
    · exact absurd ht hidle
    · exact .inl ⟨.stalled, .inr rfl, by simp only [await, hX, hs, turnThen, ht]⟩
  · exact .inl ⟨s, by simp [Hubs.status?, hX, hs], by simp only [await, hX, hs]⟩

end Engine

end JobShell
