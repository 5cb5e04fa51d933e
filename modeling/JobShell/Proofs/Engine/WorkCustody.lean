import JobShell.Proofs.Engine.Custody

/-!
The hubs of work in hand.

A piece of work in hand goes on with one hub at most, and an evaluation with the same hub whatever
it comes to. Work on a request goes on with none. Doing the work is a sequence of deals, and it
changes the stores by one at most: a subshell that starts forks one, and one that has ended throws
it away.
-/

namespace JobShell

open Hub Desk Rank Expansion List Option Work

/-- The duties among the work in hand. -/
def Work.duties (ws : List Work) : List Duty :=
  ws.filterMap fun
    | .duty d => some d
    | _ => none

/-- The store of a finalizer that is put off. -/
def Work.finalizes? : Work → Option StoreId
  | .defer (.finalize _ store) => some store
  | _ => none

def Turn.isStalled : Turn → Bool
  | .stalled => true
  | _ => false

/-- What an evaluation comes to goes on with a hub in a store. -/
def Suits (loose : StoreId → Prop) (store : StoreId) (o : Option HubId) (b : Built) : Prop :=
  b.hand? = o.map (·, store) ∧ (b.isBackground = true → loose store)

/-- The hub of an evaluation, which may wait for another one. -/
def holds (o : Option HubId) (store : StoreId) (awaits : Option HubId) : Multiset Hold :=
  (o.toList.map (⟨·, some store, awaits⟩) : List Hold)

/-- The hub that a piece of work goes on with, duties apart. Work on a request has none. -/
inductive Carries (loose : StoreId → Prop) : Work → Multiset Hold → Prop where
  | duty (d : Duty) : Carries loose (.duty d) 0
  | finalize (p : Chain.Pending) {store : StoreId} (hs : loose store) :
      Carries loose (.defer (.finalize p store)) 0
  | advance (r : Runner) : Carries loose (.advance r) {⟨r.hub, some r.ctx.store, none⟩}
  | evaluate {store : StoreId} {x : Expansion Built} {o : Option HubId}
      (hx : x.All (Suits loose store o)) (hn : o = none → loose store) :
      Carries loose (.evaluate store x) (holds o store none)
  | await {X : HubId} {store : StoreId} {key : ℕ} {next : Resumption}
      {o : Option HubId} (hx : ∀ r, (next r).All (Suits loose store o))
      (hn : o = none → loose store) :
      Carries loose (.await X (.evaluation store key next)) (holds o store (some X))
  | request (X : HubId) : Carries loose (.await X .request) 0
  | asks {w : Work} (hw : Engine.Asks w) : Carries loose w 0

inductive CarriesAll (loose : StoreId → Prop) : List Work → Multiset Hold → Prop where
  | nil : CarriesAll loose [] 0
  | cons {w : Work} {ws : List Work} {H H' : Multiset Hold} (h : Carries loose w H)
      (hs : CarriesAll loose ws H') : CarriesAll loose (w :: ws) (H + H')

@[simp] lemma Work.duties_append (ws ws' : List Work) :
    duties (ws ++ ws') = duties ws ++ duties ws' :=
  filterMap_append

@[simp] lemma Work.duties_map (ds : List Duty) : duties (ds.map .duty) = ds := by
  simp [duties, filterMap_map]

section

variable {loose loose' : StoreId → Prop} {w : Work} {ws ws' : List Work} {H H' : Multiset Hold}

lemma CarriesAll.append (h : CarriesAll loose ws H) (h' : CarriesAll loose ws' H') :
    CarriesAll loose (ws ++ ws') (H + H') := by
  induction h with
  | nil => simpa using h'
  | cons hw _ ih =>
    rw [add_assoc]
    exact .cons hw ih

lemma Carries.all (h : Carries loose w H) : CarriesAll loose [w] H := by
  simpa using CarriesAll.cons h .nil

lemma carriesAll_duties (ds : List Duty) : CarriesAll loose (ds.map .duty) 0 := by
  induction ds with
  | nil => exact .nil
  | cons d ds ih => simpa using CarriesAll.cons (.duty d) ih

lemma CarriesAll.mono (h : CarriesAll loose ws H) (hl : ∀ s, loose s → loose' s) :
    CarriesAll loose' ws H := by
  have hsuits : ∀ {store o} (b : Built), Suits loose store o b → Suits loose' store o b :=
    fun _ hb => ⟨hb.1, fun h => hl _ (hb.2 h)⟩
  induction h with
  | nil => exact .nil
  | cons hw _ ih =>
    refine .cons ?_ ih
    cases hw with
    | duty d => exact .duty d
    | finalize p hs => exact .finalize p (hl _ hs)
    | advance r => exact .advance r
    | evaluate hx hn => exact .evaluate (hx.imp hsuits) fun ho => hl _ (hn ho)
    | await hx hn => exact .await (fun r => (hx r).imp hsuits) fun ho => hl _ (hn ho)
    | request X => exact .request X
    | asks hw => exact .asks hw

end

/-- Stores of another shape, with one that was forked, or without one that was thrown away. -/
inductive Reshaped (σ : Shape) : Shape → Prop where
  | same : Reshaped σ σ
  | forked (parent : StoreId) : Reshaped σ (σ.insert (some parent))
  | released (store : StoreId) : Reshaped σ (σ.erase store)

lemma Reshaped.get?_eq {σ σ' : Shape} (h : Reshaped σ σ') (hs : σ.Sound)
    {store : StoreId} (hold : store ∈ σ.keys) (hnew : store ∈ σ'.keys) :
    σ'.get? store = σ.get? store := by
  rw [Slab.mem_keys] at hold hnew
  cases h with
  | same => rfl
  | forked parent =>
    rw [hs.get?_insert, if_neg]
    rintro rfl
    simp [hs.get?_next] at hold
  | released s =>
    rw [Slab.get?_erase] at hnew ⊢
    split at hnew
    · cases hnew
    · rw [if_neg ‹_›]

lemma Callback.reshaped_freed (cb : Callback) (σ : Shape) : Reshaped σ (cb.freed σ) := by
  cases cb with
  | subshell hub store =>
    rw [freed]
    split
    · exact .same
    · exact .released store
  | _ => exact .same

namespace Engine

variable {t : Terms} {loose : StoreId → Prop} {R : Rule} {σ : Shape}
  {log : Log} {H H' : Multiset Hold} {ds : List Duty} {e e' : Engine}
  {hub child : HubId} {parent : Option HubId} {ws ws' : List Work} {w : Work} {r : Runner}
  {items : List Tree.Item} {ctx : Context} {p : Engine × List Work} {commands : List Command}
  {store : StoreId} {next : Resumption} {X : HubId} {v : Waiter}
  {o : Option HubId}

/-- An engine with some work in hand. A list that is to follow a step of it does so before anything
else. -/
inductive Carried (loose : StoreId → Prop) (R : Rule) (log : Log)
    (H : Multiset Hold) (ds : List Duty) (e : Engine) : List Work → Prop where
  | borne {ws : List Work} {H' : Multiset Hold} (h : CarriesAll loose ws H')
      (u : Under loose R log (H' + H) (Work.duties ws ++ ds) e) : Carried loose R log H ds e ws
  | follow {r : Runner} {child : HubId} {ws : List Work} {H' : Multiset Hold}
      (hb : e.Bare child (some r.hub)) (h : CarriesAll loose ws H')
      (u : Under loose R log ({⟨r.hub, some r.ctx.store, none⟩} + (H' + H))
        (Work.duties ws ++ ds) e) :
      Carried loose R log H ds e (.follow r child :: ws)

lemma Carried.imp {R' : Rule} {log' : Log} {loose' : StoreId → Prop}
    (hl : ∀ s, loose s → loose' s)
    (hi : ∀ handles past ds H, R past log (e.desk handles ds H) →
      R' past log' (e.desk handles ds H))
    (hc : Carried loose R log H ds e ws) : Carried loose' R' log' H ds e ws := by
  cases hc with
  | borne h u => exact .borne (h.mono hl) (u.imp hl fun handles past => hi handles past _ _)
  | follow hb h u => exact .follow hb (h.mono hl) (u.imp hl fun handles past => hi handles past _ _)

lemma Carried.one (hw : Carries loose w H') (u : Under loose R log (H' + H) (duties [w] ++ ds) e) :
    Carried loose R log H ds e [w] := .borne hw.all u

lemma Carried.owing {p : Engine × List Duty} (u : Under loose R log H (p.2 ++ ds) p.1) :
    Carried loose R log H ds (owing p).1 (owing p).2 := by
  refine .borne (carriesAll_duties p.2) ?_
  rw [zero_add]
  exact (duties_map p.2).symm ▸ u

lemma Carried.notify (l : Law t R) {s : Option StoreId}
    (u : Under t.loose R log ({⟨hub, s, none⟩} + H) ds e) (status : Int) :
    Carried t.loose R log H ds e [.duty (.notify hub status)] :=
  .one (.duty _) (by rw [zero_add]; exact u.notify l status)

lemma Carried.append (h : Carried loose R log (H' + H) (duties ws' ++ ds) e ws)
    (hs : CarriesAll loose ws' H') : Carried loose R log H ds e (ws ++ ws') := by
  cases h with
  | borne hws u =>
    refine .borne (hws.append hs) ?_
    rwa [add_assoc, duties_append, append_assoc]
  | follow hb hws u =>
    rw [cons_append]
    refine .follow hb (hws.append hs) ?_
    rwa [add_assoc, duties_append, append_assoc]

lemma Under.off (u : Under loose (R.on σ) log H ds e) :
    Under loose R log H ds e ∧ e.stores.shape = σ := by
  obtain ⟨handles, past, hr, hσ⟩ := u.books
  exact ⟨⟨u.queue, handles, past, hr⟩, hσ⟩

lemma Under.on (u : Under loose R log H ds e) : Under loose (R.on e.stores.shape) log H ds e :=
  u.imp (fun _ h => h) fun _ _ hr => ⟨hr, rfl⟩

lemma Carried.off (h : Carried loose (R.on σ) log H ds e ws) :
    Carried loose R log H ds e ws ∧ e.stores.shape = σ := by
  refine ⟨h.imp (fun _ h => h) fun _ _ _ _ hr => hr.1, ?_⟩
  cases h with
  | borne _ u => exact u.off.2
  | follow _ _ u => exact u.off.2

/-- What is left of work that has been done, when stores may have been reshaped. -/
def Leaves (loose : StoreId → Prop) (R : Rule) (σ : Shape) (log : Log)
    (H : Multiset Hold) (ds : List Duty) (p : Engine × List Work) : Prop :=
  Carried loose R log H ds p.1 p.2 ∧ Reshaped σ p.1.stores.shape

lemma Carried.leaves (h : Carried loose (R.on σ) log H ds p.1 p.2) : Leaves loose R σ log H ds p :=
  ⟨h.off.1, h.off.2 ▸ .same⟩

/-! ### Lists and compound commands -/

lemma Under.spawnRunner (l : Law t R) (u : Under t.loose R log H ds e) (steps : List Step)
    (ctx : Context) (hp : Admits t.loose H e.hubs.next ctx.store parent) :
    ∃ e', e.spawnRunner steps ctx parent = (e.hubs.next, e') ∧ Under t.loose R log H ds e' ∧
      e'.Bare e.hubs.next parent := by
  obtain ⟨u1, hbare, -⟩ := u.createHub l hp
  refine ⟨(e.createHub parent).2.defer (.advance { hub := e.hubs.next, steps, ctx }), rfl, ?_,
    hbare⟩
  exact .defer u1 (Task.fits_of_hub rfl (by simp))

/-- An engine under some rule, with some hubs in hand besides others. What it may be given does not
matter. -/
abbrev Upheld (loose : StoreId → Prop) (R : Rule) (log : Log)
    (H : Multiset Hold) (ds : List Duty) (hs : List (HubId × StoreId)) (_ : Multiset Rank)
    (e : Engine) : Prop :=
  Under loose R log (hs.foldr (fun h H => {⟨h.1, some h.2, none⟩} + H) H) ds e

lemma admits_foldr {hs : List (HubId × StoreId)} (hp : Below loose hs store parent) (next : HubId) :
    Admits loose (hs.foldr (fun h H => {⟨h.1, some h.2, none⟩} + H) H) next store parent := by
  cases parent with
  | none => exact .inl hp
  | some p =>
    change (p, store) ∈ hs at hp
    induction hs with
    | nil => cases hp
    | cons k hs ih =>
      rcases mem_cons.mp hp with rfl | hp
      · exact Multiset.mem_add.mpr (.inl (Multiset.mem_singleton_self _))
      · exact Multiset.mem_add.mpr (.inr (ih hp))

lemma control_under (l : Law t R) (ht : t.reshapes = true) :
    Control (Upheld t.loose (R.on σ) log H ds)
      (fun hs V e => Upheld t.loose R log H ds hs V e ∧ Reshaped σ e.stores.shape) t.loose
      (fun _ _ => True) (Leaves t.loose R σ log H ds) where
  keyed u := u.keyed (l.still σ)
  similar u h := u.unmoved h.unmoved
  lighter u _ := u
  createHub u parent store hp := Under.createHub (t := t.still) (l.still σ) u (admits_foldr hp _)
  defer t u ht hst := by
    refine .defer ?_ (Task.fits_of_hub ht (by rintro hub rfl; cases hst))
    rw [Task.hold?, ht, hst]
    exact u
  subscribe cb u hb hst := by
    refine u.subscribe (l.still σ) hb ?_ (by simp [hst])
    cases cb <;> first | rfl | cases hst
  startPipeline u _ commands ctx parent negated hp _ := by
    obtain ⟨launched, e', h⟩ := u.startPipeline (l.still σ) commands ctx (admits_foldr hp _) negated
    exact ⟨_, launched, e', h⟩
  enclose {hs _ e hub} ctx items u := by
    obtain ⟨u1, hσ⟩ := u.off
    have hfork := (e.stores.shape_fork ctx.store).1
    obtain ⟨e', he', u', hσ', hkeep⟩ := u1.enclose l ht (items.map .item)
      { ctx with store := (e.stores.fork ctx.store).1 } hfork
    refine ⟨e', he', ⟨u', ?_⟩, hkeep⟩
    rw [hσ', hσ]
    exact .forked _
  same u := ⟨u.off.1, u.off.2 ▸ .same⟩
  rest := fun ⟨u, hσ⟩ => ⟨.borne .nil (by rw [zero_add]; exact u), hσ⟩
  advance r := fun ⟨u, hσ⟩ _ => ⟨.one (.advance r) u, hσ⟩
  follow r := fun ⟨u, hσ⟩ _ hb => ⟨.follow hb .nil (by rw [zero_add]; exact u), hσ⟩
  notify := fun ⟨u, hσ⟩ status => ⟨.notify l u status, hσ⟩
  sealOff := fun ⟨u, hσ⟩ => ⟨.one (.duty _) (by rw [zero_add]; exact u.sealOff l), hσ⟩
  evaluate {_ _ _ hub _ _} := fun ⟨u, hσ⟩ _ hx =>
    ⟨.one (.evaluate (o := some hub) (hx.imp fun _ h => ⟨h.1, h.2.1⟩) nofun) u, hσ⟩

/-- What is left when work is done, with the job that it settled. -/
def Done (loose : StoreId → Prop) (R : Rule) (log : Log)
    (H : Multiset Hold) (ds : List Duty) (e : Engine) (p : Engine × List Work) : Prop :=
  ∃ ss, Carried loose R (log ++ ss) H ds p.1 p.2 ∧ e.Announces ss p.2

lemma Carried.done (h : Carried loose R log H ds e' ws) (e : Engine) :
    Done loose R log H ds e (e', ws) :=
  ⟨[], by rwa [append_nil], .nothing _⟩

lemma Finishes.done {p : Engine × List Duty} (h : Finishes loose R log H ds e p) :
    Done loose R log H ds e (owing p) := by
  obtain ⟨ss, u, ha⟩ := h
  exact ⟨ss, .owing u, ha⟩

lemma Announces.append {ss : Log} (h : e.Announces ss ws) (ws' : List Work) :
    e.Announces ss (ws ++ ws') := by
  cases h with
  | nothing => exact .nothing _
  | settled hj hub status ws => exact .settled hj hub status (ws ++ ws')

lemma Done.append (h : Done loose R log (H' + H) (duties ws' ++ ds) e p)
    (hs : CarriesAll loose ws' H') : Done loose R log H ds e (p.1, p.2 ++ ws') := by
  obtain ⟨ss, hc, ha⟩ := h
  exact ⟨ss, hc.append hs, ha.append ws'⟩

lemma Done.congr (h : Done loose R log H ds e' p) (hj : e'.jobs = e.jobs) :
    Done loose R log H ds e p := by
  obtain ⟨ss, hc, ha⟩ := h
  exact ⟨ss, hc, ha.congr (by rw [hj])⟩

lemma Done.off (h : Done loose (R.on σ) log H ds e p) :
    Done loose R log H ds e p ∧ Reshaped σ p.1.stores.shape := by
  obtain ⟨ss, hc, ha⟩ := h
  exact ⟨⟨ss, hc.off.1, ha⟩, hc.off.2 ▸ .same⟩

lemma Leaves.done (h : Leaves loose R σ log H ds p) (e : Engine) :
    Done loose R log H ds e p ∧ Reshaped σ p.1.stores.shape := ⟨h.1.done e, h.2⟩

lemma runChain_pending {id : JobId} {u : Task} (h : (e.runChain id).2.2 = some u) :
    ∃ p store, u = .finalize p store := by
  unfold runChain at h
  split at h
  · cases h
  · obtain ⟨p, -, rfl⟩ := map_eq_some_iff.mp h
    exact ⟨p, _, rfl⟩

/-- A task that is taken from the queue goes on with its hub, or ends its job. -/
lemma Under.runTask (l : Law t R) {task : Task} {ts : List Task} (u : Under t.loose R log H ds e)
    (ht : e.tasks = task :: ts) (hf : ∀ w ∈ ((e.withTasks ts).runTask task).2,
      ∀ s, w.finalizes? = some s → t.loose s) :
    Done t.loose R log H ds e ((e.withTasks ts).runTask task) := by
  have u1 := u.pop ht
  have hzero : Under t.loose R log (0 + H) ds (e.withTasks ts) ↔
      Under t.loose R log H ds (e.withTasks ts) := by rw [zero_add]
  cases task with
  | advance r => exact Carried.done (.one (.advance r) u1) e
  | complete hub status => exact Carried.done (.notify l u1 status) e
  | loop hub | choice hub =>
    exact Carried.done (.one (.evaluate (o := some hub) ((all_true _).map fun _ _ => ⟨rfl, nofun⟩)
      nofun) u1) e
  | finalize p store =>
    exact Carried.done (.borne .nil (u1.unmoved (similar_finalize _ p store).unmoved)) e
  | flush hub => exact absurd rfl ((u.queue _ (ht ▸ mem_cons_self)).flush hub)
  | runChain job =>
    have u2 := hzero.mp u1
    have hdone := (u2.retires l (retires_runChain (u2.keyed l) job)).done
    simp only [Engine.runTask] at hf
    set p := (e.withTasks ts).runChain job with hp
    have hrest : CarriesAll t.loose (p.2.2.toList.map .defer) 0 ∧
        duties (p.2.2.toList.map .defer) = [] := by
      rcases hpending : p.2.2 with _ | task
      · exact ⟨.nil, rfl⟩
      · obtain ⟨q, store, rfl⟩ := runChain_pending hpending
        exact ⟨(Carries.finalize q
          (hf (.defer (.finalize q store)) (by simp [hpending]) store rfl)).all, rfl⟩
    have hall : Done t.loose R log (0 + H) (duties (p.2.2.toList.map .defer) ++ ds)
        (e.withTasks ts) (owing (p.1, p.2.1)) := by
      rw [hrest.2, zero_add]
      exact hdone
    exact .congr (hall.append hrest.1) rfl
  | fail job =>
    have u2 := hzero.mp u1
    exact .congr (u2.retires l (retires_settle (u2.keyed l) job rfl _)).done rfl

/-- Whoever evaluates is to wait for a hub, which may be created in the same store. -/
lemma Under.awaiting {quits : Bool} (l : Turns quits R)
    (u : Under loose R log (holds o store none + H) ds e) (hn : o = none → loose store)
    (X : HubId) : Under loose R log (holds o store (some X) + H) ds e ∧
      Admits loose (holds o store (some X) + H) X store none := by
  cases o with
  | none => exact ⟨u, .inl (hn rfl)⟩
  | some hub =>
    exact ⟨Under.turned l u (fun _ h => h) nofun,
      .inr ⟨_, Multiset.mem_add.mpr (.inl mem_cons_self), rfl, rfl⟩⟩

/-- Whoever evaluates starts the pipeline of a substitution, to wait for its hub. -/
lemma Under.startCapture (l : Law t R) (u : Under t.loose R log (holds o store none + H) ds e)
    (hn : o = none → t.loose store) (commands : List Command) (negated : Bool) :
    ∃ key launched e', e.startCapture commands store negated =
        (key, ⟨e.hubs.next, launched, []⟩, e') ∧
      Under t.loose R log (holds o store (some e.hubs.next) + H) ds e' := by
  obtain ⟨u0, hp⟩ := u.awaiting l.turns hn e.hubs.next
  have u1 : Under t.loose R log (holds o store (some e.hubs.next) + H) ds
      e.withCapture := ⟨u0.queue, u0.books⟩
  obtain ⟨launched, e2, he2, u2, -⟩ := u1.startPipeline l commands
    { store, route := .capture e.captures.next } hp negated
  exact ⟨e.captures.next, launched, { e2 with hubs := e2.hubs.retain e.hubs.next },
    by simp only [Engine.startCapture, he2], u2.retain l _⟩

lemma Under.evaluate (l : Law t R) (ht : t.reshapes = true)
    (u : Under t.loose (R.on σ) log (holds o store none + H) ds e) {x : Expansion Built}
    (hx : x.All (Suits t.loose store o)) (hn : o = none → t.loose store) :
    Leaves t.loose R σ log H ds (e.evaluate store x) := by
  cases x with
  | done b =>
    cases o with
    | none =>
      cases b with
      | reply r => exact Carried.leaves (.one (.asks (.reply r)) u)
      | _ => cases hx.1
    | some hub =>
      obtain ⟨T, hT⟩ := exists_fits hx.1
      exact (control_under l ht).built (T := T) (Y := {tree 0}) u
        ⟨_, Multiset.mem_singleton_self _, fun _ => low_lt_tree⟩ hx.1 hx.2 hT trivial
  | value | aliasOf | paths => exact Carried.leaves (.one (.evaluate (hx _) hn) u)
  | capture commands negated next =>
    obtain ⟨key, launched, e', he', u'⟩ := u.startCapture (l.still σ) hn commands negated
    simp only [Engine.evaluate, he', map_nil, nil_append]
    exact Carried.leaves (.one (.await hx hn) u')

/-! ### Turns -/

lemma Under.turn (l : Law t R) {block : Bool} (u : Under t.loose R log H ds e)
    (h : e.turn block = .took e' ws) (hf : ∀ w ∈ ws, ∀ s, w.finalizes? = some s → t.loose s) :
    Done t.loose R log H ds e (e', ws) := by
  rcases took_cases h with ⟨task, ts, ht, h⟩ | ⟨e1, event, events, he, h⟩
  · rw [← h]
    exact u.runTask l ht (by rwa [h])
  · obtain ⟨u1, hj⟩ : Under t.loose R log H ds { e1 with events } ∧ e1.jobs = e.jobs := by
      rcases he with rfl | rfl <;> exact ⟨⟨u.queue, u.books⟩, rfl⟩
    rw [← h]
    exact .congr (u1.retires l (retires_dispatch (u1.keyed l) event)).done hj

/-! ### All work -/

/-- Whether a piece of work may drop a hub. -/
def mayDrop (e : Engine) : Work → Bool
  | .duty (.settle _) => true
  | .await hub _ => (e.hubs.status? hub).isSome
  | _ => false

/-- Whether a piece of work gives up waiting for a hub that has not completed. -/
def givesUp (e : Engine) : Work → Bool
  | .await hub _ => (e.hubs.status? hub).isNone && (e.turn true).isStalled
  | _ => false

/-- What a piece of work does may be dealt. -/
structure Allows (t : Terms) (e : Engine) (w : Work) : Prop where
  drop : e.mayDrop w = true → t.drops = true
  quit : e.givesUp w = true → t.quits = true
  finalizer : ∀ u ∈ (e.perform w).2, ∀ s, u.finalizes? = some s → t.loose s
  background : ∀ r, w = .advance r → ∀ step ∈ r.steps.head?, step.isBackground = true →
    t.loose r.ctx.store

lemma allows_lax {drops : Bool} (h : e.mayDrop w = true → drops = true) : Allows (.lax drops) e w :=
  ⟨h, fun _ => rfl, fun _ _ _ _ => trivial, fun _ _ _ _ _ => trivial⟩

lemma Allows.still (h : Allows t e w) : Allows t.still e w := ⟨h.1, h.2, h.3, h.4⟩

lemma Under.performDuty (l : Law t R) (ht : t.reshapes = true) {d : Duty}
    (u : Under t.loose (R.on σ) log H (d :: ds) e)
    (hdrop : e.mayDrop (.duty d) = true → t.drops = true) :
    Leaves t.loose R σ log H ds (e.perform (.duty d)) := by
  rcases hcall : d.calling? with _ | slot
  · obtain ⟨u', hnone⟩ := u.perform (l.still σ) (by rintro slot rfl; exact hdrop rfl) hcall
    have hperform : e.perform (.duty d) =
        owing ({ e with hubs := (e.hubs.perform d).1 }, (e.hubs.perform d).2.2) := by
      simp only [Engine.perform, hnone, elim_none, nil_append]
      rfl
    rw [hperform]
    exact Carried.leaves (Carried.owing (p := (_, _)) u')
  · obtain ⟨status, key, keys, rfl⟩ : ∃ status key keys,
        d = .deliver slot status (key :: keys) := by
      cases d with
      | deliver k status keys =>
        cases keys with
        | nil => cases hcall
        | cons key keys => cases hcall; exact ⟨status, key, keys, rfl⟩
      | _ => cases hcall
    obtain ⟨hubs, cb, hperform, hcalled, -⟩ := u.deliver (l.still σ)
    obtain ⟨hubs', cb', hperform', -, hpassed⟩ := u.off.1.deliver l
    obtain ⟨rfl, rfl⟩ : hubs = hubs' ∧ cb = cb' := by simpa using hperform.symm.trans hperform'
    simp only [Engine.perform, hperform, elim_some, map_cons, map_nil]
    -- a status that is passed on leaves nothing but duties
    have hpass : ∀ {status' : Int} {stores : Stores}, cb.passes status = some status' →
        stores.shape = cb.freed e.stores.shape →
        Leaves t.loose R σ log H ds ({ e with hubs, stores },
          [.duty (.notify cb.hub status')] ++ [.duty (.deliver slot status [])]) := by
      intro status' stores hp hst
      refine ⟨.borne (carriesAll_duties [.notify cb.hub status', .deliver slot status []]) ?_, ?_⟩
      · rw [zero_add]
        exact hpassed status' stores hp (.inl ht) hst
      · rw [← u.off.2, hst]
        exact cb.reshaped_freed _
    have hcall' : ∀ {store : StoreId}, cb.passes status = none → cb.store? = some store →
        Leaves t.loose R σ log H ds ((({ e with hubs } : Engine).call status cb).1,
          (({ e with hubs } : Engine).call status cb).2 ++ [.duty (.deliver slot status [])]) := by
      intro store hp hst
      have u' := hcalled hp
      rw [hst] at u'
      obtain ⟨hc, hσ⟩ := (control_under (H := H) l ht).call u' hst status
      refine ⟨Carried.append ?_ (Carries.duty (.deliver slot status [])).all, hσ⟩
      rw [zero_add]
      exact hc
    cases cb with
    | subshell hub store => exact hpass rfl (e.stores.shape_release store)
    | negate hub => exact hpass rfl rfl
    | _ => exact hcall' rfl rfl

/-- Whoever waits for a hub goes on with the answer when it has completed, or gives up. -/
lemma Under.answered {quits : Bool} (l : Turns quits R) (hw : Carries loose (.await X v) H')
    (u : Under loose R log (H' + H) ds e)
    (hq : quits = true ∨ ∀ h, e.hubs.get? X = some h → h.status.isSome = true) :
    ∃ H'', Under loose R log (H'' + H) ds e ∧ ∀ {e' : Engine} (result : Except Fault Int),
      Under loose R log (H'' + H) ds e' →
        Carried loose R log H ds (e'.answer result v).1 (e'.answer result v).2 := by
  cases hw with
  | request => exact ⟨_, u, fun _ u => .one (.asks (.reply _)) u⟩
  | @await X store key next o hx hn =>
    refine ⟨holds o store none, ?_, fun {e'} result u => .one (.evaluate (hx _) hn) ?_⟩
    · cases o with
      | none => exact u
      | some hub => exact .turned l u (fun _ h => h) fun _ h => by cases h; exact hq
    · exact ⟨u.queue, u.books⟩
  | asks hw => cases hw

/-- Whoever waits for a hub goes on when it has completed, or takes another turn. -/
lemma Under.await (l : Law t R) (hw : Carries t.loose (.await X v) H')
    (u : Under t.loose R log (H' + H) ds e) (ha : Allows t e (.await X v)) :
    Done t.loose R log H ds e (e.await X v) := by
  rcases await_cases e X v with ⟨s, hs, h⟩ | ⟨hs, ⟨f, hf, h⟩ | ⟨e', ws, ht, h⟩⟩
  · rw [h]
    obtain ⟨H'', u', hgo⟩ := u.answered l.turns hw (.inr fun k hk => by
      simpa [Hubs.status?, hk] using congrArg isSome hs)
    exact (hgo _ (u'.release (l.lull (ha.drop (by simp [mayDrop, hs]))) X)).done e
  · rw [h]
    obtain ⟨H'', u', hgo⟩ := u.answered l.turns hw (by
      rcases hf with hnone | hstall
      · exact .inr fun k hk => by cases hnone.symm.trans hk
      · exact .inl (ha.quit (by simp [givesUp, hs, hstall, Turn.isStalled])))
    exact (hgo _ u').done e
  · have hf := ha.finalizer
    rw [Engine.perform, h] at hf
    rw [h]
    exact (u.turn l ht fun u hu => hf u (mem_append_left _ hu)).append hw.all

lemma Asks.duties (hw : Asks w) : duties [w] = [] := by
  cases hw <;> rfl

lemma Under.perform_work (l : Law t R) (ht : t.reshapes = true) (hw : Carries t.loose w H')
    (u : Under t.loose R log (H' + H) (duties [w] ++ ds) e) (ha : Allows t e w) :
    Done t.loose R log H ds e (e.perform w) ∧
      Reshaped e.stores.shape (e.perform w).1.stores.shape := by
  replace u := u.on
  cases hw with
  | duty d =>
    rw [zero_add] at u
    exact (u.performDuty l ht ha.drop).done e
  | finalize p hs =>
    refine (Carried.leaves (p := e.perform _) (.borne .nil ?_)).done e
    rw [zero_add]
    exact .defer u ⟨by simp, fun s _ h => by cases h; exact hs⟩
  | advance r => exact ((control_under l ht).step u (ha.background r rfl) trivial).done e
  | evaluate hx hn => exact (u.evaluate l ht hx hn).done e
  | await hx hn => exact (u.await (l.still _) (.await hx hn) ha.still).off
  | request X => exact (u.await (l.still _) (.request X) ha.still).off
  | asks hw =>
    have hf := ha.finalizer
    rcases hw.perform e with ⟨next, hnext, h⟩ | ⟨block, e', ws, w', ht, hw', h⟩ <;> rw [h] at hf ⊢
    · rw [hw.duties] at u
      cases next with
      | none => exact ((Carried.borne .nil u).done e).off
      | some w' =>
        exact ((Carried.one (.asks (hnext w' rfl)) (by rwa [(hnext w' rfl).duties])).done e).off
    · rw [hw.duties, ← hw'.duties] at u
      exact ((u.turn (l.still _) ht fun u hu => hf u (mem_append_left _ hu)).append
        (Carries.asks hw').all).off

/-! ### Steps of a machine -/

/-- An engine with all its work in hand. -/
abbrev Busy (R : Rule) (log : Log) (e : Engine) (stack : List Work) : Prop :=
  Carried (fun _ => True) R log 0 [] e stack

lemma Busy.rest (hb : Busy R log e []) : Under (fun _ => True) R log 0 [] e := by
  cases hb with
  | borne h u =>
    cases h
    exact u

lemma Under.atRest (u : Under loose R log 0 [] e) : Carried loose R log 0 [] e [] := .borne .nil u

/-- What is on top of the work in hand, and what stands below it. -/
lemma Carried.top {stack : List Work} (hb : Carried loose R log 0 [] e (w :: stack)) :
    ∃ H, CarriesAll loose stack H ∧
      ((∃ H', Carries loose w H' ∧
        Under loose R log (H' + (H + 0)) (duties [w] ++ (duties stack ++ [])) e) ∨
      ∃ r child, w = .follow r child ∧ e.Bare child (some r.hub) ∧
        Under loose R log ({⟨r.hub, some r.ctx.store, none⟩} + (H + 0))
          (duties stack ++ []) e) := by
  cases hb with
  | borne h u =>
    cases h with
    | cons hw hs =>
      refine ⟨_, hs, .inl ⟨_, hw, ?_⟩⟩
      rwa [← add_assoc, ← append_assoc, ← duties_append]
  | follow hb h u => exact ⟨_, h, .inr ⟨_, _, rfl, hb, u⟩⟩

lemma Carried.step (l : Law t R) (ht : t.reshapes = true) {m : Machine}
    (hb : Carried t.loose R log 0 [] m.engine m.stack)
    (ha : ∀ w ws, m.stack = w :: ws → Allows t m.engine w) :
    Done t.loose R log 0 [] m.engine (m.step.engine, m.step.stack) ∧
      Reshaped m.engine.stores.shape m.step.engine.stores.shape := by
  obtain ⟨e, stack⟩ := m
  rcases stack with _ | ⟨w, stack⟩
  · exact ⟨Carried.done hb e, .same⟩
  change Done t.loose R log 0 [] e ((e.perform w).1, (e.perform w).2 ++ stack) ∧
    Reshaped e.stores.shape (e.perform w).1.stores.shape
  obtain ⟨H, hs, htop⟩ := hb.top
  refine And.imp_left (Done.append · hs) ?_
  rcases htop with ⟨H', hw, u⟩ | ⟨r, child, rfl, hbare, u⟩
  · exact u.perform_work l ht hw (ha w stack rfl)
  · have hbare' : e.Bare child (some (Callback.runner r).hub) := hbare
    obtain ⟨e', hsub, u', -⟩ := u.on.subscribe (l.still _) hbare' rfl (by simp [Callback.store?])
    have hperform : e.perform (.follow r child) = (e', []) := by
      simp only [Engine.perform, Engine.follow, hsub]
      rfl
    rw [hperform]
    exact (Carried.done (.borne .nil (by rw [zero_add]; exact u')) e).off

lemma await_completed (hdrop : e.mayDrop (.await X v) = true) :
    (∀ h, e.hubs.get? X = some h → h.status.isSome = true) ∧ ∃ status,
      e.await X v = ({ e with hubs := e.hubs.release X } : Engine).answer (.ok status) v := by
  obtain ⟨status, hst⟩ := isSome_iff_exists.mp hdrop
  obtain ⟨h, hg, hst⟩ := bind_eq_some_iff.mp hst
  refine ⟨fun k hk => ?_, status, by simp [await, hg, hst]⟩
  cases hg.symm.trans hk
  simp [hst]

lemma Busy.drop (l : Lull R) (hl : Turns true R) {stack : List Work}
    (hb : Busy R log e (w :: stack))
    (hdrop : e.mayDrop w = true) : Busy R log (e.perform w).1 ((e.perform w).2 ++ stack) := by
  obtain ⟨H, hs, ⟨H', hw, u⟩ | ⟨r, child, rfl, -⟩⟩ := hb.top
  swap
  · cases hdrop
  refine Carried.append ?_ hs
  cases w with
  | duty d =>
    cases d with
    | settle slot =>
      cases hw with
      | duty =>
        rw [zero_add] at u
        refine .borne .nil ?_
        rw [zero_add]
        exact u.settled l
      | asks hw => cases hw
    | _ => cases hdrop
  | await X v =>
    obtain ⟨hdone, status, hawait⟩ := await_completed hdrop
    obtain ⟨H'', u', hgo⟩ := u.answered hl hw (.inr hdone)
    rw [perform, hawait]
    exact hgo _ (u'.release l X)
  | _ => cases hdrop

end Engine

end JobShell
