import JobShell.Proofs.Engine.Outlets
import JobShell.Proofs.Engine.Registry

/-!
What does not reach the console.

A job whose streams end in other jobs or in buffers says nothing to anyone: neither what is written
for it nor its start and its end is seen on the console or on the terminal, unless the job has the
terminal or is listed in the job table.
-/

namespace JobShell

open List Option

/-- An end that is neither the console nor the terminal. -/
def Sink.Silent : Sink → Prop
  | .terminal | .console => False
  | .forward _ | .capture _ => True

lemma Sink.silent_lowered {s : Sink} : s.lowered.Silent ↔ s.Silent := by
  cases s <;> exact Iff.rfl

namespace Engine

/-- What is to be seen from outside. -/
def shown (e : Engine) : Console × Terminal := (e.console, e.system.world.terminal)

variable {e : Engine} {id : JobId} {j : Job} {o : Outlet}

lemma shown_system (e : Engine) {system : System}
    (h : system.world.terminal = e.system.world.terminal) :
    ({ e with system } : Engine).shown = e.shown := by
  simp [shown, h]

lemma rousing_shown : Rousing fun e e' => e'.shown = e.shown where
  refl _ := rfl
  trans h1 h2 := h2.trans h1
  system e _ hs := shown_system e (congrArg World.terminal hs.world)
  body _ _ := rfl
  rouse _ _ _ := rfl
  ready _ _ := rfl

lemma shown_pour {sink : Sink} (hs : sink.Silent) (e : Engine) (s : Stream) (data : Bytes) :
    (e.pour sink s data).shown = e.shown := by
  cases sink with
  | terminal | console => exact hs.elim
  | forward next => cases s <;> exact rousing_shown.feed e next data
  | capture key => cases s <;> rfl

lemma shown_send (ho : e.outlet? id = some o) {s : Stream} (hs : (o.sink s).Silent)
    (data : Bytes) : (e.send id s data).shown = e.shown := by
  obtain ⟨j, hj, rfl⟩ := map_eq_some_iff.mp ho
  rw [sink_outlet, Sink.silent_lowered] at hs
  rw [send_eq_pour hj]
  exact shown_pour hs e s data

/-! ### Starting -/

lemma shown_startJob (ho : e.outlet? id = some o) (hs : o.stderr.Silent) (taps : Taps) :
    (e.startJob id .background taps).2.shown = e.shown := by
  obtain ⟨j, hj, rfl⟩ := map_eq_some_iff.mp ho
  have hready : (e.readied id j .background).shown = e.shown := rfl
  rcases hb : j.body with ch | n
  · rw [startJob_chain hj hb]
    dsimp only
    split <;> exact hready
  · rcases hstart : n.start id taps e.system with ⟨d, n', s⟩
    have hterminal : s.world.terminal = e.system.world.terminal := by
      have h := Native.terminal_start id taps n e.system
      rwa [hstart] at h
    have hset : ∀ k,
        (({ e.readied id j .background with system := s } : Engine).setJob id k).shown =
          e.shown := fun k => (shown_system (e.readied id j .background) hterminal).trans hready
    have hjob : ({ e.readied id j .background with system := s } : Engine).job? id = some j := hj
    have hlast : ∀ e2 : Engine, e2.outlet? id = some j.outlet → e2.shown = e.shown →
        (e2.complain id d).shown = e.shown := by
      intro e2 ho2 hs2
      rcases d with _ | d
      · exact hs2
      · exact (shown_send (s := .stderr) ho2 hs _).trans hs2
    have hout : ∀ body live, (({ e.readied id j .background with system := s } : Engine).setJob id
        (begun j .background body live)).outlet? id = some j.outlet := by
      intro body live
      have hsame := (hushed_setJob (k := begun j .background body live) hjob rfl).outlet id
      exact hsame.trans ho
    rw [startJob_native hj hb .background hstart]
    dsimp only
    set k := begun j .background (.native n') !n'.processes.isEmpty
    split
    · exact hlast _ (hout _ _) (hset k)
    · exact hlast _ (hout _ _) (hset k)

lemma shown_startSegments {route : Route} (hr : route.mode = .background) (fed : Bool)
    {js : List JobId} (hs : ∀ id ∈ js, ∃ o, e.outlet? id = some o ∧ o.stderr.Silent) :
    (e.startSegments route fed js).2.shown = e.shown := by
  induction js generalizing fed with
  | nil => rfl
  | cons job rest ih =>
    obtain ⟨o, ho, hsilent⟩ := hs job mem_cons_self
    rcases rest with _ | ⟨next, rest⟩
    · simp only [startSegments, hr]
      exact shown_startJob ho hsilent _
    · obtain ⟨hrest, -⟩ := placed_startSegments e route true (next :: rest)
      simp only [startSegments]
      rw [shown_startJob ((hrest.outlet job).trans ho) hsilent]
      exact ih true fun id hid => hs id (mem_cons_of_mem _ hid)

lemma shown_createSegments (e : Engine) (hub : HubId) (ctx : Context) (title : String)
    (groups : Groups) :
    (e.createSegments hub ctx title groups).2.shown = e.shown := by
  induction groups generalizing e with
  | nil => rfl
  | cons g groups ih =>
    simp only [createSegments]
    rw [ih, createJob_eq]
    rfl

lemma shown_amend (e : Engine) (id : JobId) (f : Job → Job) : (e.amend id f).shown = e.shown := by
  cases h : e.job? id <;> simp only [amend, h] <;> rfl

lemma shown_connectAll (e : Engine) (js : List JobId) : (e.connectAll js).shown = e.shown :=
  connectAll_induction (P := fun e1 => e1.shown = e.shown)
    (fun e1 a b h => by rw [connect_eq, shown_amend, shown_amend, h]) rfl js

lemma shown_subscribe {e' : Engine} {hub : HubId} {cb : Callback}
    (h : e.subscribe hub cb = .ok e') : e'.shown = e.shown := by
  unfold subscribe at h
  split at h
  · cases h
  · cases h
    split <;> rfl

lemma shown_oversee (e : Engine) (hub : HubId) (jobs : List JobId) (launched negated : Bool) :
    (e.oversee hub jobs launched negated).2.shown = e.shown := by
  rcases e.oversee_cases hub jobs launched negated with he | ⟨j, hs⟩
  · rw [he]
    rfl
  · exact shown_subscribe hs

lemma shown_launchJobs {ctx : Context} {key : ℕ} (hr : ctx.route = .capture key) (hub : HubId)
    (commands : List Command)
    (hfresh : ∀ i ∈ range' e.nextJob (e.services.partition commands).length,
      e.outlet? i = none) : (e.launchJobs hub commands ctx).2.2.shown = e.shown := by
  unfold launchJobs
  dsimp only
  generalize e.services.partition commands = groups at hfresh ⊢
  generalize Command.pipeLine commands = title
  rw [(createSegments_eq hub ctx title groups e).1]
  obtain ⟨-, -, -, new, hnew, ho1⟩ := createSegments_outlet e hub ctx title groups
  have hshown := shown_createSegments e hub ctx title groups
  set e1 := (e.createSegments hub ctx title groups).2
  obtain ⟨a, ha⟩ : ∃ a : ℕ, e.nextJob = a := ⟨_, rfl⟩
  rw [ha] at hnew ho1 hfresh ⊢
  obtain ⟨-, -, -, ho2⟩ := connectAll_outlet e1 a groups.length
  rw [shown_startSegments (by rw [hr]; rfl), shown_connectAll, hshown]
  intro id hid
  have hf := hnew id hid
  rw [ho2 id, ho1 id, hfresh id hid, if_pos hid]
  refine ⟨_, rfl, ?_⟩
  have hsilent : (new id).stderr.Silent := by
    rw [hf.stderr, hr]
    trivial
  dsimp only
  split <;> exact hsilent

lemma shown_startPipeline {ctx : Context} {key : ℕ} (hr : ctx.route = .capture key)
    (commands : List Command) (parent : Option HubId) (negated : Bool)
    (hfresh : ∀ i ∈ range' e.nextJob (e.segments commands), e.outlet? i = none) :
    (e.startPipeline commands ctx parent negated).2.shown = e.shown := by
  rw [startPipeline_eq]
  have hhub : (e.createHub parent).2.shown = e.shown := rfl
  split
  · exact hhub
  · rw [shown_oversee, shown_launchJobs hr, hhub]
    exact hfresh

/-! ### Ending -/

lemma shown_passOn (e : Engine) (j : Job) : (e.passOn j).shown = e.shown :=
  rousing_shown.passOn_of_live rfl j

/-- No one hears of the end of a job that is not in the table and does not have the terminal. -/
lemma shown_settle (hj : e.job? id = some j) (ht : j.tableId = none) (ho : e.owner ≠ some id)
    (hk : e.Keyed) (state : JobState) (status : Int) :
    (e.settle id state status).1.shown = e.shown := by
  have howner : (e.passOn j).owner ≠ some id := by
    rwa [show (e.passOn j).owner = e.owner from congrArg Registry.owner (registry_passOn hk j)]
  rw [settle_eq hj]
  change ((e.passOn j).announce id j state status).shown = e.shown
  simp only [announce, ht, if_neg howner]
  exact shown_passOn e j

lemma shown_sendAny (ho : e.outlet? id = some o) {s : Stream} (hs : (o.sink s).Silent)
    (data : Bytes) : (e.sendAny id s data).shown = e.shown := by
  unfold sendAny
  split
  · rfl
  · exact shown_send ho hs data

/-- Of a job of routines no more is seen than what its routines have done to the terminal. -/
lemma shown_runChain (hj : e.job? id = some j) {c : Chain} (hb : j.body = .chain c)
    (hs : ∀ s, (j.outlet.sink s).Silent) (ht : j.tableId = none) (ho : e.owner ≠ some id)
    (hk : e.Keyed) {out : Chain.Outcome} {w : World}
    (hrun : Chain.runAll e.config.failedStatus c.launches c.input e.system.world = (out, w)) :
    (e.runChain id).1.shown = (e.console, w.terminal) := by
  have hout : e.outlet? id = some j.outlet := by rw [outlet?, hj, map_some]
  set e0 := e.used id j c out w
  set e1 := e0.sendAny id .stdout out.stdout
  set e2 := e1.sendAny id .stderr out.stderr
  have hout0 : e0.outlet? id = some j.outlet := ((hushed_used hj c out w).outlet id).trans hout
  have hout1 : e1.outlet? id = some j.outlet := ((sendAny_outlet hout0 _ _).1.outlet id).trans hout0
  have hout2 : e2.outlet? id = some j.outlet := ((sendAny_outlet hout1 _ _).1.outlet id).trans hout1
  have hk0 : e0.Keyed := hk.similar (similar_used hk hj hb out w)
  have hk1 : e1.Keyed := hk0.similar (audible_similar.sendAny _ _ _ _ hk0)
  have hsent : Quiet e0 e2 :=
    (audible_quiet.sendAny _ id _ _).trans (audible_quiet.sendAny _ id _ _)
  have howner : e2.owner = e.owner := congrArg Registry.owner (hsent hk0)
  obtain ⟨k, hk2, hko⟩ := map_eq_some_iff.mp hout2
  rw [runChain_eq hj hb hrun]
  change (e2.settle id .terminated out.status).1.shown = _
  rw [shown_settle hk2 ((congrArg Outlet.tableId hko).trans ht) (howner ▸ ho)
    (hk1.similar (audible_similar.sendAny _ _ _ _ hk1)),
    shown_sendAny hout1 (hs .stderr), shown_sendAny hout0 (hs .stdout)]
  rfl

end Engine

end JobShell
