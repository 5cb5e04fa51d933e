import JobShell.Proofs.Engine.Control
import JobShell.Proofs.Engine.JobEnd

/-!
What the work on a stack owes.

Each piece of work in hand drives a hub, tells one, or waits for one, and has a weight of its own.
Doing it leaves an engine in order with less work to do: all that is started for a command outweighs
neither the command nor the evaluation that asked for it.
-/

namespace JobShell

open Accounts Rank Expansion List Multiset

/-- The debts of a piece of work, the buffer it will take, and its weight. -/
inductive Owes : Work → List Mark → Multiset ℕ → Multiset Rank → Prop where
  | duty (d : Duty) : Owes (.duty d) d.marks 0 d.weight
  | finalize (p : Chain.Pending) (store : StoreId) : Owes (.defer (.finalize p store)) [] 0 {low 3}
  | advance (r : Runner) : Owes (.advance r) [.drive r.hub] 0 (r.weight + {low 2})
  | evaluate {store : StoreId} {x : Expansion Built} {t : HubId} {T : Multiset Rank}
    (hx : x.All (Fits t T)) : Owes (.evaluate store x) [.drive t] 0 (T + {asking x.height})
  | await {X : HubId} {store : StoreId} {key : ℕ} {next : Resumption}
    {t : HubId} {T : Multiset Rank} (hx : ∀ r, (next r).All (Fits t T)) :
    Owes (.await X (.evaluation store key next)) [.await X, .drive t] {key}
      (T + {asking (rest next)})

inductive OwesAll : List Work → List Mark → Multiset ℕ → Multiset Rank → Prop where
  | nil : OwesAll [] [] 0 0
  | cons {w : Work} {ws : List Work} {M M' : List Mark} {K K' : Multiset ℕ} {V V' : Multiset Rank}
    (h : Owes w M K V) (hs : OwesAll ws M' K' V') : OwesAll (w :: ws) (M ++ M') (K + K') (V + V')

lemma OwesAll.append {ws ws' : List Work} {M M' : List Mark} {K K' : Multiset ℕ}
    {V V' : Multiset Rank} (h : OwesAll ws M K V) (h' : OwesAll ws' M' K' V') :
    OwesAll (ws ++ ws') (M ++ M') (K + K') (V + V') := by
  induction h with
  | nil => simpa using h'
  | cons hw _ ih =>
    rw [append_assoc, add_assoc, add_assoc]
    exact .cons hw ih

lemma Owes.all {w : Work} {M : List Mark} {K : Multiset ℕ} {V : Multiset Rank} (h : Owes w M K V) :
    OwesAll [w] M K V := by
  simpa using OwesAll.cons h .nil

lemma owesAll_duties (ds : List Duty) :
    OwesAll (ds.map .duty) (ds.flatMap Duty.marks) 0 ((ds : Multiset Duty).bind Duty.weight) := by
  induction ds with
  | nil => simpa using OwesAll.nil
  | cons d ds ih => simpa [← cons_coe] using OwesAll.cons (Owes.duty d) ih

namespace Engine

variable {e e' : Engine} {Q : (HubId → ℕ) → Prop} {X : List JobId} {S : Multiset StoreId}
  {K : Multiset ℕ} {M : List Mark} {W : Multiset Rank} {hub : HubId} {items : List Tree.Item}
  {ctx : Context} {cb : Callback}

lemma InOrder.forget (o : InOrder Q X S K M e) : InOrder (fun _ => True) X S K M e := by
  obtain ⟨birth, clock, hbal, -⟩ := o.books
  exact { o with books := ⟨birth, clock, hbal, trivial⟩ }

/-- An engine in order between two pieces of work, all that it has in hand being owed to it. -/
abbrev Tidy (K : Multiset ℕ) (M : List Mark) (e : Engine) : Prop :=
  InOrder (fun _ => True) [] 0 K M e

/-- Some work is owed to an engine in order, which has less of it to do than before. -/
def Owing (M : List Mark) (K : Multiset ℕ) (W : Multiset Rank) (e : Engine) (ws : List Work) :
    Prop :=
  ∃ M' K' V, OwesAll ws M' K' V ∧ Tidy (K' + K) (M' ++ M) e ∧ Lighter (e.weight + V) W

/-- Some work is owed, or a list follows a step of it, and then nothing is. -/
def Proceeds (M : List Mark) (K : Multiset ℕ) (W : Multiset Rank) (p : Engine × List Work) : Prop :=
  Owing M K W p.1 p.2 ∨ ∃ r child e', p.2 = [.follow r child] ∧
    p.1.subscribe child (.runner r) = .ok e' ∧ Owing M K W e' []

lemma Owing.one {w : Work} {M' : List Mark} {V : Multiset Rank} (hw : Owes w M' 0 V)
    (o : Tidy K (M' ++ M) e) (hl : Lighter (e.weight + V) W) : Owing M K W e [w] :=
  ⟨M', 0, V, hw.all, by rw [zero_add]; exact o, hl⟩

lemma Owing.none (o : Tidy K M e) (hl : Lighter e.weight W) : Owing M K W e [] :=
  ⟨[], 0, 0, .nil, by rw [zero_add]; exact o, by rw [add_zero]; exact hl⟩

/-! ### Lists -/

/-- A list that is started has a hub of its own, which a task goes on with. -/
lemma InOrder.spawnRunner (o : InOrder Q X S K M e) (steps : List Step) (ctx : Context)
    (parent : Option HubId) (hp : ∀ p, parent = some p → .drive p ∈ M) :
    ∃ child e', e.spawnRunner steps ctx parent = (child, e') ∧
      InOrder (Young child M) X S K M e' ∧
      e'.weight =
        e.weight + ({low 3} + (({ hub := child, steps, ctx } : Runner).weight + {low 4})) ∧
      e'.Bare child parent ∧ ∀ b q, e.Bare b q → b ≠ child ∧ e'.Bare b q := by
  obtain ⟨o1, hw1, hb1, hkeep⟩ := o.createHub parent hp (Young (e.createHub parent).1 M)
    fun _ _ _ _ hyoung => hyoung
  refine ⟨(e.createHub parent).1, (e.createHub parent).2.defer (.advance
    { hub := (e.createHub parent).1, steps, ctx }), rfl, ?_, ?_, hb1, hkeep⟩
  · exact .defer (t := .advance _) o1 (by simp)
  · rw [weight_defer, hw1, Task.weight, add_assoc]

/-! ### Compound commands -/

lemma InOrder.fork (o : InOrder Q X S K M e) (store : StoreId) :
    InOrder Q X ({(e.stores.fork store).1} + S) K M
      { e with stores := (e.stores.fork store).2 } := by
  refine { o with stores := ⟨o.stores.1.insert _, ?_⟩ }
  show (e.stores.slab.insert _).keys = _
  rw [Slab.keys_insert o.stores.1, o.stores.2, add_assoc]
  exact add_left_comm _ _ _

lemma InOrder.releaseStore {store : StoreId} (o : InOrder Q X ({store} + S) K M e) :
    InOrder Q X S K M { e with stores := e.stores.release store } := by
  have hkeys : e.stores.slab.keys = {store} + ({Stores.root} + (S + forks e.hubs.entries)) := by
    rw [o.stores.2]
    ac_rfl
  have hne : store ≠ Stores.root := by
    rintro rfl
    have hnd := hkeys ▸ e.stores.slab.nodup_keys
    simp at hnd
  have hrel : e.stores.release store = ⟨e.stores.slab.erase store⟩ := by
    simp [Stores.release, hne]
  rw [hrel]
  exact { o with stores := ⟨o.stores.1.erase _, Slab.keys_erase hkeys⟩ }

/-! ### Hubs in hand -/

/-- An engine in order that is owed some hubs, and may be given work of less than some weight. -/
structure Affords (M : List Mark) (K : Multiset ℕ) (W : Multiset Rank)
    (hs : List (HubId × StoreId)) (V : Multiset Rank) (e : Engine) : Prop where
  tidy : Tidy K (hs.map (fun h => .drive h.1) ++ M) e
  spare : ∀ V', Lighter V' V → Lighter (e.weight + V') W

lemma Affords.spend {hs : List (HubId × StoreId)} {V X : Multiset Rank}
    (a : Affords M K W hs (X + V) e)
    (hw : e'.weight = e.weight + X) : ∀ V', Lighter V' V → Lighter (e'.weight + V') W := by
  intro V' hV
  rw [hw, add_assoc]
  exact a.spare _ (by simpa only [add_comm X] using hV.add_right X)

lemma control_affords (M : List Mark) (K : Multiset ℕ) (W : Multiset Rank) :
    Control (Affords M K W) (Affords M K W) (fun _ => True)
      (fun e e' => e'.system.nextPid = e.system.nextPid) (Proceeds M K W) where
  keyed a := a.tidy.keyed
  similar a hs := ⟨a.tidy.similar hs, hs.weight ▸ a.spare⟩
  lighter a h := ⟨a.tidy, fun V' hV => a.spare V' (hV.trans h)⟩
  createHub {hs _ _} a parent store hp := by
    obtain ⟨o, hw, hb⟩ := a.tidy.createHub parent (by
      rintro p rfl
      simpa using .inl ⟨store, hp⟩) (fun _ => True) fun _ _ _ _ _ => trivial
    exact ⟨⟨o, a.spend hw⟩, hb⟩
  defer t a ht hst := by
    refine ⟨InOrder.defer (t := t) ?_ (by rintro hub rfl; cases ht), a.spend (weight_defer _ t)⟩
    simpa [Task.marks, ht] using a.tidy
  subscribe cb a hb hst := by
    have hf : cb.forks = 0 := by cases cb <;> first | rfl | cases hst
    obtain ⟨e', hsub, o, hw, hkeep⟩ := InOrder.subscribe cb (S := 0)
      (by simpa [hf] using a.tidy) hb rfl
    exact ⟨e', hsub, ⟨o, a.spend hw⟩, hkeep⟩
  startPipeline {hs V Y e} a hy commands ctx parent negated hp hpid := by
    obtain ⟨hub, launched, e', he', o, ⟨X, hw, hlow⟩, hb⟩ :=
      a.tidy.startPipeline commands ctx parent negated
        (by rintro p rfl; simpa using .inl ⟨ctx.store, hp⟩) hpid
    obtain ⟨z, hz, hz'⟩ := hy
    refine ⟨hub, launched, e', he',
      ⟨o.forget, Affords.spend (e := e) (X := X) ⟨a.tidy, fun V' hV => ?_⟩ hw⟩, hb⟩
    refine a.spare V' (hV.trans ?_)
    rw [add_left_comm]
    refine lighter_add V hz fun y hy => ?_
    rcases mem_add.mp hy with hy | hy
    · obtain ⟨n, rfl⟩ := hlow y hy
      exact hz' n
    · rw [Multiset.mem_singleton.mp hy]
      exact hz' 3
  enclose {hs V e hub} ctx items a := by
    rw [← add_assoc] at a
    obtain ⟨child, e1, he1, o1, hw1, hb1, hkeep⟩ := (a.tidy.fork ctx.store).spawnRunner
      (items.map .item) { ctx with store := (e.stores.fork ctx.store).1 } (some hub) (by simp)
    obtain ⟨e2, hsub, o2, hw2, hkeep2⟩ := InOrder.subscribe (.subshell hub _) o1.forget hb1 rfl
    refine ⟨e2, by simpa [spawnItems, he1] using hsub, ⟨o2, a.spend ?_⟩, fun b q hb => ?_⟩
    · rw [hw2, hw1, weight_runner, add_assoc]
      rfl
    · obtain ⟨hne, hb'⟩ := hkeep b q hb
      exact hkeep2 b q hne hb'
  same a := a
  rest a := .inl (.none a.tidy (by
    simpa using a.spare 0 (lighter_of (Multiset.mem_singleton_self _) (by simp))))
  advance r a hv := .inl (.one (.advance r) a.tidy (a.spare _ hv))
  follow r a hv hb := by
    obtain ⟨e', hsub, o, hw, -⟩ := InOrder.subscribe (.runner r) (S := 0)
      (by simpa [Callback.forks] using a.tidy) hb rfl
    exact .inr ⟨r, _, e', rfl, hsub, .none o (hw ▸ a.spare _ hv)⟩
  notify a status := .inl (.one (.duty (.notify _ status)) a.tidy
    (a.spare _ (lighter_of (Multiset.mem_singleton_self _) (by simp [Duty.weight]))))
  sealOff a := .inl (.one (.duty (.sealOff _)) a.tidy
    (a.spare _ (lighter_of (Multiset.mem_singleton_self _) (by simp [Duty.weight]))))
  evaluate a hv hx := .inl (.one (.evaluate (hx.imp fun _ h => h.2.2)) a.tidy (a.spare _ hv))

lemma Tidy.affords {hub : HubId} (o : Tidy K (.drive hub :: M) e) (store : StoreId)
    (V : Multiset Rank) : Affords M K (e.weight + V) [(hub, store)] V e :=
  ⟨o, fun V' hV => by simpa only [add_comm e.weight] using hV.add_right e.weight⟩

lemma InOrder.advance {r : Runner} (o : Tidy K (.drive r.hub :: M) e)
    (hpid : (e.advance r).1.system.nextPid = e.system.nextPid) :
    Proceeds M K (e.weight + (r.weight + {low 2})) (e.advance r) :=
  (control_affords M K _).step (Tidy.affords o r.ctx.store _) (fun _ _ _ => trivial)
    hpid

/-! ### Callbacks and tasks -/

lemma call_ne_follow (e : Engine) (status : Int) (cb : Callback) (r : Runner) (child : HubId) :
    (e.call status cb).2 ≠ [.follow r child] := by
  cases cb <;> simp only [call, stepDone] <;> try split
  all_goals simp [owing, conclude, iterate, follow]

/-- A subscriber that is called goes on with the hub it was left. -/
lemma InOrder.call (o : InOrder (fun _ => True) [] cb.forks K (.drive cb.hub :: M) e)
    (status : Int) :
    Owing M K (e.weight + (cb.weight + {low 1})) (e.call status cb).1 (e.call status cb).2 := by
  have hnotify : ∀ {e' : Engine} {hub : HubId} {Z : Multiset Rank} (s : Int), e'.weight = e.weight →
      Tidy K (.drive hub :: M) e' → low 2 ∈ Z →
      Owing M K (e.weight + (Z + {low 1})) e' [.duty (.notify hub s)] := by
    intro e' hub Z s hw o' hZ
    refine .one (.duty (.notify hub s)) o' ?_
    rw [hw]
    exact lighter_add _ (z := low 2) (by simp [hZ]) (by simp [Duty.weight])
  have hcall : ∀ store, cb.forks = 0 → cb.store? = some store →
      Owing M K (e.weight + (cb.weight + {low 1})) (e.call status cb).1 (e.call status cb).2 := by
    intro store hf hst
    rw [hf] at o
    refine ((control_affords M K _).call (Tidy.affords o store _) hst
      status).resolve_right ?_
    rintro ⟨r, child, -, h, -⟩
    exact call_ne_follow e status cb r child h
  cases cb with
  | subshell hub store =>
    exact hnotify status rfl (InOrder.releaseStore (S := 0) o) (by simp [Callback.weight])
  | negate hub => exact hnotify _ rfl o (by simp [Callback.weight])
  | _ => exact hcall _ rfl rfl

lemma Sheds.lighter (h : Sheds e e') {V : Multiset Rank} (hV : ∀ y ∈ V, y < low 6) :
    Lighter (e'.weight + V) (e.weight + Z) := by
  obtain ⟨W, A, hW, hA, hlow⟩ := h
  rw [hW, hA, add_assoc, add_assoc]
  refine lighter_add W (z := low 6) (by simp) fun y hy => ?_
  rcases mem_add.mp hy with hy | hy
  · rw [hlow y hy]
    simp
  · exact hV y hy

/-- A task that is taken from the queue goes on with its hub, or ends its job. -/
lemma InOrder.runTask {t : Task} {ts : List Task} (o : Tidy K M e) (ht : e.tasks = t :: ts) :
    Owing M K e.weight ((e.withTasks ts).runTask t).1
      ((e.withTasks ts).runTask t).2 := by
  obtain ⟨o1, hw1, hflush⟩ := o.pop ht
  set e1 : Engine := (e.withTasks ts) with he1
  rw [hw1]
  cases t with
  | advance r =>
    exact .one (.advance r) o1 (lighter_keep _ _ (z := low 4) (by simp) (by simp))
  | complete hub status =>
    exact .one (.duty (.notify hub status)) o1
      (lighter_add _ (z := low 4) (by simp [Task.weight]) (by simp [Duty.weight]))
  | loop hub name words body ctx =>
    refine .one (.evaluate (t := hub) (T := {tree (sizeOf body + 1)}) ?_) o1
      (lighter_add _ (z := tree (sizeOf body + 2)) (by simp [Task.weight]) (by simp))
    exact (all_true _).map fun _ _ => ⟨rfl, rfl⟩
  | choice hub subject arms ctx =>
    refine .one (.evaluate (t := hub) (T := {tree (sizeOf arms)}) ?_) o1
      (lighter_add _ (z := tree (sizeOf arms + 1)) (by simp [Task.weight]) (by simp))
    exact (all_chooseArm ctx.scope subject arms).map fun _ h => ⟨rfl, _, rfl, h⟩
  | finalize p store =>
    have hs := similar_finalize e1 p store
    refine .none (o1.similar hs) ?_
    change Lighter (e1.finalize p store).weight _
    rw [hs.weight]
    exact lighter_more _ (z := low 2) (by simp [Task.weight])
  | flush hub => exact absurd rfl (hflush hub)
  | runChain job =>
    rcases hj : e1.job? job with _ | j
    · have hrun : e1.runTask (.runChain job) = (e1, []) := by
        simp [Engine.runTask, Engine.runChain, chain?, hj]
      rw [hrun]
      exact .none (o1.discharge (by simp [hj]))
        (lighter_more _ (z := low 5) (by simp [Task.weight]))
    rcases hb : j.body with c | n
    · obtain ⟨e', s, pending, hrun, o', hshed, hpend⟩ := o1.runChain hj hb
      have hrun' : e1.runTask (.runChain job) =
          (e', .duty (.notify j.hub s) :: pending.toList.map .defer) := by
        simp [Engine.runTask, hrun]
      rw [hrun']
      have howes : ∃ V : Multiset Rank, OwesAll (pending.toList.map .defer) [] 0 V ∧
          ∀ y ∈ V, y < low 6 := by
        rcases pending with _ | t
        · exact ⟨0, .nil, by simp⟩
        · obtain ⟨p, store, rfl⟩ := hpend t rfl
          exact ⟨{low 3}, (Owes.finalize p store).all, by simp⟩
      obtain ⟨V, hV, hlt⟩ := howes
      refine ⟨[.drive j.hub], 0, _, .cons (.duty (.notify j.hub s)) hV,
        by rw [zero_add]; exact o', ?_⟩
      exact hshed.lighter (by simpa [Duty.weight] using hlt)
    · -- a job of processes fails by another task
      have hrun : e1.runTask (.runChain job) = (e1, []) := by
        simp [Engine.runTask, Engine.runChain, chain?, hj, hb]
      rw [hrun]
      refine .none (o1.discharge fun k hk => ?_)
        (lighter_more _ (z := low 5) (by simp [Task.weight]))
      cases hj.symm.trans hk
      have hd := o.due _ (o.keyed.mem_iff.mpr hj) (by simp)
      simp only [Due, hb, ht, List.mem_cons, reduceCtorEq, false_or] at hd ⊢
      exact hd
  | fail job =>
    rcases hj : e1.job? job with _ | j
    · have hrun : e1.runTask (.fail job) = (e1, []) := by
        simp [Engine.runTask, Engine.settle, owing, hj]
      rw [hrun]
      exact .none (o1.discharge (by simp [hj]))
        (lighter_more _ (z := low 5) (by simp [Task.weight]))
    · obtain ⟨e', he', o', hshed⟩ := o1.settle hj .failed rfl e1.config.failedStatus
      have hrun : e1.runTask (.fail job) =
          (e', [.duty (.notify j.hub e1.config.failedStatus)]) := by
        simp only [Engine.runTask, owing, he', List.map_cons, map_nil]
      rw [hrun]
      exact .one (.duty (.notify j.hub _)) o' (hshed.lighter (by simp [Duty.weight]))

/-! ### Evaluations -/

variable {t : HubId} {T Z : Multiset Rank}

lemma InOrder.built (o : Tidy K (.drive t :: M) e) {b : Built} (hb : Fits t T b) (hZ : Heavy Z)
    (hpid : (e.built b).1.system.nextPid = e.system.nextPid) :
    Proceeds M K (e.weight + (T + Z)) (e.built b) := by
  obtain ⟨store, hhand⟩ := hb.hand
  exact (control_affords M K _).built (Tidy.affords o store _) hZ hhand
    (fun _ => trivial) hb hpid

/-- The pipeline of a substitution has a buffer, and someone waits for it. -/
lemma InOrder.startCapture (o : Tidy K M e) (commands : List Command) (store : StoreId)
    (negated : Bool)
    (hpid : (e.startCapture commands store negated).2.2.system.nextPid = e.system.nextPid) :
    ∃ key hub launched e', e.startCapture commands store negated = (key, ⟨hub, launched, []⟩, e') ∧
      Tidy ({key} + K) (.await hub :: M) e' ∧ Grows e e' := by
  have o1 : Tidy ({e.captures.next} + K) M e.withCapture := by
    refine { o with captures := ⟨o.captures.1.insert _, ?_⟩ }
    rw [Slab.keys_insert o.captures.1, o.captures.2]
  obtain ⟨hub, launched, e2, he2, o2, hg2, hb2⟩ := o1.startPipeline commands
    { store, route := .capture e.captures.next } none negated (by simp) hpid
  obtain ⟨o3, hw3⟩ := o2.retain hb2 fun birth hy => hy
  refine ⟨e.captures.next, hub, launched, { e2 with hubs := e2.hubs.retain hub }, ?_, o3.forget, ?_⟩
  · simp only [Engine.startCapture, he2]
  · obtain ⟨A, hA, hlow⟩ := hg2
    exact ⟨A, hw3.trans hA, hlow⟩

lemma InOrder.takeCapture {key : ℕ} (o : Tidy ({key} + K) M e) (status : Int) :
    Tidy K M (e.takeCapture key status).2 :=
  { o with captures := ⟨o.captures.1.erase _, Slab.keys_erase o.captures.2⟩ }

/-- An evaluation weighs less with each answer, and what is started for it less than the answer. -/
lemma InOrder.evaluate (o : Tidy K (.drive t :: M) e) {store : StoreId} {x : Expansion Built}
    (hx : x.All (Fits t T)) (hpid : (e.evaluate store x).1.system.nextPid = e.system.nextPid) :
    Proceeds M K (e.weight + (T + {asking x.height})) (e.evaluate store x) := by
  have hanswer : ∀ {ι : Type} {next : ι → Expansion Built} (i : ι), (next i).All (Fits t T) →
      Proceeds M K (e.weight + (T + {asking (rest next)})) (e, [.evaluate store (next i)]) := by
    intro ι next i hi
    refine .inl (.one (.evaluate hi) o (lighter_keep _ _ (Multiset.mem_singleton_self _) ?_))
    simpa using height_lt_rest next i
  cases x with
  | done b => exact o.built hx ⟨_, Multiset.mem_singleton_self _, fun n => low_lt_asking⟩ hpid
  | value | aliasOf | paths => exact hanswer _ (hx _)
  | capture commands negated next =>
    obtain ⟨key, hub, launched, e', he', o', A, hA, hlow⟩ :=
      o.startCapture commands store negated hpid
    simp only [Engine.evaluate, he', map_nil, nil_append]
    refine .inl ⟨_, _, _, (Owes.await hx).all, o', ?_⟩
    have hw : e'.weight + (T + {asking (rest next)}) =
        e.weight + (T + (A + {asking (rest next)})) := by
      rw [hA]
      ac_rfl
    rw [hw]
    refine lighter_keep _ _ (Multiset.mem_singleton_self _) fun y hy => ?_
    rcases mem_add.mp hy with hy | hy
    · obtain ⟨n, rfl⟩ := hlow y hy
      exact low_lt_asking
    · rw [Multiset.mem_singleton.mp hy, asking_lt_asking]
      exact rest_lt_height commands negated next

end Engine

end JobShell
