import JobShell.Proofs.Engine.Desk
import JobShell.Proofs.Engine.JobOrder

/-!
Moves of control.

Whoever drives a hub has it in hand, with the store in which to go on and a weight that may be
spent. An account of the hubs in hand follows control through lists, compound commands and
evaluations, if it follows each hub that is created, left to a task or a subscriber, or told.
-/

namespace JobShell

open Rank Expansion List Multiset JobShell.Tree Callback

/-- The store that a task carries. -/
def Task.store? : Task → Option StoreId
  | .advance r => some r.ctx.store
  | .loop _ _ _ _ ctx | .choice _ _ _ ctx => some ctx.store
  | .finalize _ store => some store
  | .complete _ _ | .flush _ | .runChain _ | .fail _ => none

/-- The hub that an evaluation goes on with, and the store. -/
def Built.hand? : Built → Option (HubId × StoreId)
  | .command r _ _ | .pipeline r _ _ _ => some (r.hub, r.ctx.store)
  | .loop l _ => some (l.hub, l.ctx.store)
  | .choice hub ctx _ => some (hub, ctx.store)
  | .reply _ => none

/-- Whether a list goes on without waiting for what an evaluation comes to. -/
def Built.isBackground : Built → Bool
  | .command _ background _ | .pipeline _ background _ _ => background
  | _ => false

/-- Whether a list goes on without waiting for a step. -/
def Step.isBackground : Step → Bool
  | .ready c => c.background
  | .item i => i.background

/-- What an evaluation comes to goes on with a hub, and weighs no more than it was given. -/
def Fits (t : HubId) (T : Multiset Rank) : Built → Prop
  | .command r _ _ | .pipeline r _ _ _ => r.hub = t ∧ r.weight = T
  | .loop l _ => l.hub = t ∧ T = {tree (sizeOf l.body + 1)}
  | .choice hub _ body =>
    hub = t ∧ ∃ n, T = {tree n} ∧ ∀ items, body = .ok (some items) → sizeOf items ≤ n
  | .reply _ => False

lemma exists_fits {b : Built} {h : HubId × StoreId} (hb : b.hand? = some h) :
    ∃ T, Fits h.1 T b := by
  cases b with
  | command r | pipeline r => cases hb; exact ⟨_, rfl, rfl⟩
  | loop l => cases hb; exact ⟨_, rfl, rfl⟩
  | choice hub ctx body =>
    cases hb
    rcases body with f | _ | items
    · exact ⟨_, rfl, 0, rfl, by simp⟩
    · exact ⟨_, rfl, 0, rfl, by simp⟩
    · exact ⟨_, rfl, sizeOf items, rfl, by simp⟩
  | reply r => cases hb

lemma Fits.hand {t : HubId} {T : Multiset Rank} {b : Built} (h : Fits t T b) :
    ∃ store, b.hand? = some (t, store) := by
  cases b with
  | reply r => exact h.elim
  | _ => exact ⟨_, by rw [← h.1]; rfl⟩

namespace Engine

/-- Whoever starts something has its parent in hand, or it is in a store of `B`. -/
abbrev Below (B : StoreId → Prop) (hs : List (HubId × StoreId)) (store : StoreId)
    (parent : Option HubId) : Prop :=
  parent.elim (B store) fun p => (p, store) ∈ hs

/-- An account of the hubs in hand: `A` holds of them, a weight to be spent and an engine, `Z` where
a subshell may have started, and `C` of an engine with the work that is left. Pipelines do no more
to an engine than `G` says. -/
structure Control (A Z : List (HubId × StoreId) → Multiset Rank → Engine → Prop)
    (B : StoreId → Prop) (G : Engine → Engine → Prop) (C : Engine × List Work → Prop) : Prop where
  keyed {hs V e} (a : A hs V e) : e.Keyed
  similar {hs V e e'} (a : A hs V e) (h : Similar e e') : A hs V e'
  lighter {hs V V' e} (a : A hs V e) (h : Lighter V' V) : A hs V' e
  createHub {hs V e} (a : A hs ({low 3} + V) e) (parent : Option HubId) (store : StoreId)
    (hp : Below B hs store parent) :
    A ((e.hubs.next, store) :: hs) V (e.createHub parent).2 ∧
      (e.createHub parent).2.Bare e.hubs.next parent ∧
      ∀ b q, e.Bare b q → b ≠ e.hubs.next ∧ (e.createHub parent).2.Bare b q
  defer {hs V e hub store} (t : Task) (a : A ((hub, store) :: hs) (t.weight + V) e)
    (ht : t.hub? = some hub) (hst : t.store? = some store) : A hs V (e.defer t)
  subscribe {hs V e child store} (cb : Callback) (a : A ((cb.hub, store) :: hs) (cb.weight + V) e)
    (hb : e.Bare child (some cb.hub)) (hst : cb.store? = some store) :
    ∃ e', e.subscribe child cb = .ok e' ∧ A hs V e' ∧ ∀ b q, b ≠ child → e.Bare b q → e'.Bare b q
  startPipeline {hs V Y e} (a : A hs (V + Y) e) (hy : Heavy Y) (commands : List Command)
    (ctx : Context) (parent : Option HubId) (negated : Bool)
    (hp : Below B hs ctx.store parent)
    (hg : G e (e.startPipeline commands ctx parent negated).2) :
    ∃ hub launched e', e.startPipeline commands ctx parent negated = (⟨hub, launched, []⟩, e') ∧
      A hs (V + {low 3}) e' ∧ e'.Bare hub parent
  enclose {hs V e hub} (ctx : Context) (items : List Tree.Item)
    (a : A ((hub, ctx.store) :: hs) ({low 3} + (Tree.weight items + {low 4}) + ({low 2} + V)) e) :
    let s := e.stores.fork ctx.store
    let p := { e with stores := s.2 }.spawnItems items { ctx with store := s.1 } (some hub)
    ∃ e', p.2.subscribe p.1 (.subshell hub s.1) = .ok e' ∧ Z hs V e' ∧
      ∀ b q, e.Bare b q → e'.Bare b q
  same {hs V e} (a : A hs V e) : Z hs V e
  rest {e} (z : Z [] {low 1} e) : C (e, [])
  advance {V e} (r : Runner) (z : Z [(r.hub, r.ctx.store)] V e)
    (hv : Lighter (r.weight + {low 2}) V) :
    C (e, [.advance r])
  follow {V e child} (r : Runner) (z : Z [(r.hub, r.ctx.store)] V e)
    (hv : Lighter (r.weight + {low 2}) V) (hb : e.Bare child (some r.hub)) :
    C (e, [.follow r child])
  notify {e hub store} (z : Z [(hub, store)] {low 2} e) (status : Int) :
    C (e, [.duty (.notify hub status)])
  sealOff {e hub store} (z : Z [(hub, store)] {low 2} e) : C (e, [.duty (.sealOff hub)])
  evaluate {V T e hub store x} (z : Z [(hub, store)] V e) (hv : Lighter (T + {asking x.height}) V)
    (hx : x.All fun b => b.hand? = some (hub, store) ∧ (b.isBackground = true → B store) ∧
      Fits hub T b) : C (e, [.evaluate store x])

namespace Control

variable {A Z : List (HubId × StoreId) → Multiset Rank → Engine → Prop} {B : StoreId → Prop}
  {G : Engine → Engine → Prop} {C : Engine × List Work → Prop} {hs : List (HubId × StoreId)}
  {V Y : Multiset Rank} {e : Engine} {hub : HubId} {parent : Option HubId} {ctx : Context}
  {r : Runner} {node : Node}

variable (K : Control A Z B G C)
include K

/-! ### Lists and compound commands -/

lemma spawnItems (items : List Item) (ctx : Context) (parent : Option HubId)
    (a : A hs ({low 3} + (Tree.weight items + {low 4}) + V) e) (hp : Below B hs ctx.store parent) :
    ∃ child e', e.spawnItems items ctx parent = (child, e') ∧ A hs V e' ∧ e'.Bare child parent ∧
      ∀ b q, e.Bare b q → b ≠ child ∧ e'.Bare b q := by
  rw [add_assoc, ← weight_runner items e.hubs.next ctx] at a
  obtain ⟨a1, hb1, hkeep⟩ := K.createHub a parent ctx.store hp
  exact ⟨e.hubs.next, _, rfl,
    K.defer (.advance { hub := e.hubs.next, steps := items.map .item, ctx }) a1 rfl rfl, hb1, hkeep⟩

/-- Whoever drives a hub starts a list below it and goes on when that completes. -/
lemma part (ctx : Context) (cb : Callback) (items : List Item)
    (a : A ((hub, ctx.store) :: hs) ({low 3} + (Tree.weight items + {low 4}) + (cb.weight + V)) e)
    (hcb : cb.hub = hub) (hst : cb.store? = some ctx.store) :
    ∃ e', (e.spawnItems items ctx (some hub)).2.follow hub
        (e.spawnItems items ctx (some hub)).1 cb = (e', []) ∧
      A hs V e' ∧ ∀ b q, e.Bare b q → e'.Bare b q := by
  subst hcb
  obtain ⟨child, e1, he1, a1, hb1, hkeep⟩ := K.spawnItems items ctx (some cb.hub) a
    mem_cons_self
  obtain ⟨e2, hsub, a2, hkeep2⟩ := K.subscribe cb a1 hb1 hst
  refine ⟨e2, by simp [he1, Engine.follow, hsub], a2, fun b q hb => ?_⟩
  obtain ⟨hne, hb'⟩ := hkeep b q hb
  exact hkeep2 b q hne hb'

/-- What is started for a compound command weighs less than the command. -/
lemma spawnNode (a : A hs (V + {tree (sizeOf node)}) e) (hn : Compound node) (ctx : Context)
    (parent : Option HubId) (hp : Below B hs ctx.store parent) :
    ∃ hub e', e.spawnNode node ctx parent = (hub, e', []) ∧ Z hs (V + {low 1}) e' ∧
      e'.Bare hub parent := by
  have hcreate : e.createHub parent = (e.hubs.next, (e.createHub parent).2) := rfl
  have hopen : ∀ X : Multiset Rank, (∀ y ∈ X, y < tree (sizeOf node)) →
      A ((e.hubs.next, ctx.store) :: hs) (X + (V + {low 1})) (e.createHub parent).2 ∧
        (e.createHub parent).2.Bare e.hubs.next parent := by
    intro X hX
    have hl : Lighter ({low 3} + (X + (V + {low 1}))) (V + {tree (sizeOf node)}) := by
      rw [show {low 3} + (X + (V + {low 1})) = V + ({low 3} + X + {low 1}) by ac_rfl]
      refine lighter_add _ (Multiset.mem_singleton_self _) fun y hy => ?_
      simp only [mem_add, Multiset.mem_singleton] at hy
      rcases hy with (rfl | hy) | rfl
      · exact low_lt_tree
      · exact hX y hy
      · exact low_lt_tree
    obtain ⟨a1, hb1, -⟩ := K.createHub (K.lighter a hl) parent ctx.store hp
    exact ⟨a1, hb1⟩
  generalize (e.createHub parent).2 = e1 at hopen hcreate
  have hparts : ∀ (items : List Item) (W : Multiset Rank),
      (∀ y ∈ Tree.weight items, y < tree (sizeOf node)) → (∀ y ∈ W, y < tree (sizeOf node)) →
      ∀ y ∈ {low 3} + (Tree.weight items + {low 4}) + W, y < tree (sizeOf node) := by
    intro items W hi hc y hy
    simp only [mem_add, Multiset.mem_singleton] at hy
    rcases hy with (rfl | hy | rfl) | hy
    · exact low_lt_tree
    · exact hi y hy
    · exact low_lt_tree
    · exact hc y hy
  -- a part that is run first has the rest of the command follow it
  have hpart : ∀ (items : List Item) (cb : Callback), cb.hub = e.hubs.next →
      cb.store? = some ctx.store → (∀ y ∈ Tree.weight items, y < tree (sizeOf node)) →
      (∀ y ∈ cb.weight, y < tree (sizeOf node)) →
      ∃ e', (e1.spawnItems items ctx (some e.hubs.next)).2.follow e.hubs.next
          (e1.spawnItems items ctx (some e.hubs.next)).1 cb = (e', []) ∧ Z hs (V + {low 1}) e' ∧
        e'.Bare e.hubs.next parent := by
    intro items cb hcb hst hi hc
    obtain ⟨a1, hb1⟩ := hopen _ (hparts items _ hi hc)
    rw [add_assoc] at a1
    obtain ⟨e2, he2, a2, hkeep⟩ := K.part ctx cb items a1 hcb hst
    exact ⟨e2, he2, K.same a2, hkeep _ _ hb1⟩
  cases node with
  | command | pipeline => exact hn.elim
  | logical op left right =>
    obtain ⟨e2, he2, h2⟩ := hpart [⟨left, false⟩] (.logical e.hubs.next op right ctx) rfl rfl
      (by simp [Tree.weight]; omega) (by simp [Callback.weight])
    exact ⟨_, e2, by simp only [Engine.spawnNode, hcreate, he2], h2⟩
  | conditional condition onSuccess onFailure =>
    have hbody : ∀ body : Option (List Item),
        sizeOf body ≤ sizeOf (Node.conditional condition onSuccess onFailure) →
        ∀ y ∈ body.elim 0 Tree.weight,
          y < tree (sizeOf (Node.conditional condition onSuccess onFailure)) := by
      intro body hle y hy
      rcases body with _ | items
      · simp at hy
      · refine lt_of_mem_weight ?_ y hy
        simp at hle ⊢
        omega
    obtain ⟨e2, he2, h2⟩ := hpart condition (.branch e.hubs.next onSuccess onFailure ctx) rfl rfl
      (lt_of_mem_weight (by simp; omega)) (by
        intro y hy
        simp only [Callback.weight, mem_add, Multiset.mem_singleton] at hy
        rcases hy with (hy | hy) | rfl
        · exact hbody onSuccess (by simp; omega) y hy
        · exact hbody onFailure (by simp) y hy
        · exact low_lt_tree)
    exact ⟨_, e2, by simp only [Engine.spawnNode, hcreate, he2], h2⟩
  | loop name words body =>
    have hname : 0 < sizeOf name := by
      cases name
      simp
    have hwords : 0 < sizeOf words := by cases words <;> simp
    obtain ⟨a1, hb1⟩ := hopen (Task.weight (.loop e.hubs.next name words body ctx))
      (by simp [Task.weight]; omega)
    exact ⟨_, _, by simp only [Engine.spawnNode, hcreate], K.same (K.defer _ a1 rfl rfl), hb1⟩
  | choice subject arms =>
    have hsubject : 0 < sizeOf subject := by
      cases subject
      simp
    obtain ⟨a1, hb1⟩ := hopen (Task.weight (.choice e.hubs.next subject arms ctx))
      (by simp [Task.weight]; omega)
    exact ⟨_, _, by simp only [Engine.spawnNode, hcreate], K.same (K.defer _ a1 rfl rfl), hb1⟩
  | subshell body =>
    obtain ⟨a1, hb1⟩ := hopen _
      (hparts body {low 2} (Tree.lt_of_mem_weight (by simp)) (by simp))
    rw [add_assoc] at a1
    obtain ⟨e2, he2, z2, hkeep⟩ := K.enclose ctx body a1
    refine ⟨_, e2, ?_, z2, hkeep _ _ hb1⟩
    simp only [Engine.spawnNode, hcreate, Engine.follow, he2]

/-- The last part of a command: its hub is sealed, and completes with the part. -/
lemma conclude (items : List Tree.Item) (a : A [(hub, ctx.store)] (Tree.weight items + {low 5}) e) :
    C (owing (e.conclude hub items ctx)) := by
  have hl : Lighter ({low 3} + (Tree.weight items + {low 4}) + {low 2})
      (Tree.weight items + {low 5}) := by
    rw [show {low 3} + (Tree.weight items + {low 4}) + {low 2} =
      Tree.weight items + ({low 3} + {low 4} + {low 2}) by ac_rfl]
    exact lighter_add _ (Multiset.mem_singleton_self _) (by simp)
  obtain ⟨child, e1, he1, a1, -⟩ := K.spawnItems items ctx (some hub) (K.lighter a hl)
    mem_cons_self
  simp only [Engine.conclude, he1]
  exact K.sealOff (K.same a1)

/-- A loop runs for its next value, and then for those after it. -/
lemma iterate (l : Loop) (a : A [(l.hub, l.ctx.store)] ((loop l).weight + {low 1}) e) :
    C (owing (e.iterate l)) := by
  rcases hv : l.values with _ | ⟨v, values⟩
  · simp only [Engine.iterate, hv]
    refine K.notify (K.same (K.lighter a ?_)) _
    exact lighter_of (z := low 5) (by simp [Callback.weight]) (by simp)
  · have hl : Lighter ({low 3} + (Tree.weight l.body + {low 4}) +
        ((loop { l with values }).weight + {low 1})) ((loop l).weight + {low 1}) := by
      have hnew : {low 3} + (Tree.weight l.body + {low 4}) +
          ((loop { l with values }).weight + {low 1}) = Tree.weight l.body +
          (loop { l with values }).weight + {low 1} + ({low 3} + {low 4}) := by ac_rfl
      have hold : (loop l).weight + {low 1} = Tree.weight l.body +
          (loop { l with values }).weight + {low 1} + {low 5} := by
        simp only [Callback.weight, hv, length_cons, succ_nsmul]
        ac_rfl
      rw [hnew, hold]
      exact lighter_add _ (Multiset.mem_singleton_self _) (by simp)
    obtain ⟨e', he', a', -⟩ := K.part { l.ctx with scope := l.ctx.scope.push [(l.name, v)] }
      (.loop { l with values }) l.body (K.lighter a hl) rfl rfl
    simp only [Engine.iterate, hv, he']
    exact K.rest (K.same a')

lemma failHub {store : StoreId} (a : A [(hub, store)] Y e) (hy : Heavy Y) (f : Fault) :
    C (owing (e.failHub hub f)) := by
  obtain ⟨z, hz, hlow⟩ := hy
  have a' := K.lighter a (lighter_of (Y := {low 2}) hz (by simp [hlow]))
  exact K.notify (K.same (K.similar a' (similar_report e f))) _

/-! ### Steps of a list -/

lemma stepDone (r : Runner) (a : A [(r.hub, r.ctx.store)] V e) (hv : Lighter (r.weight + {low 2}) V)
    (status : Int) : C (e.stepDone r status) :=
  K.advance { r with foreground := some status }
    (K.same (K.similar a (similar_record e r status))) hv

section

variable (r : Runner) (a : A [(r.hub, r.ctx.store)] (r.weight + Y) e) (hy : Heavy Y)
include a hy

lemma pipelineStep (commands : List Command) {background : Bool}
    (hb : background = true → B r.ctx.store) (negated : Bool)
    (hg : G e (e.pipelineStep r commands background negated).1) :
    C (e.pipelineStep r commands background negated) := by
  have hv : Lighter (r.weight + {low 2}) (r.weight + {low 3}) :=
    lighter_add _ (Multiset.mem_singleton_self _) (by simp)
  cases background with
  | true =>
    obtain ⟨hub, launched, e', he', a', -⟩ := K.startPipeline a hy commands r.ctx.inBackground none
      negated (hb rfl) (by simpa [Engine.pipelineStep] using hg)
    simp only [Engine.pipelineStep, he', if_true, map_nil, nil_append]
    exact K.advance { r with background := _ } (K.same a') hv
  | false =>
    obtain ⟨hub, launched, e', he', a', hb'⟩ := K.startPipeline a hy commands r.ctx (some r.hub)
      negated mem_cons_self (by simpa [Engine.pipelineStep] using hg)
    simp only [Engine.pipelineStep, he', Bool.false_eq_true, if_false, map_nil, nil_append]
    exact K.follow r (K.same a') hv hb'

lemma commandStep (c : Command) (hb : c.background = true → B r.ctx.store)
    (hg : G e (e.commandStep r c).1) : C (e.commandStep r c) := by
  unfold Engine.commandStep at hg ⊢
  by_cases hc : c.assignmentOnly = true
  · have hs := similar_stores e (Stores.shape_foldl (fun s b => s.shape_set r.ctx.store b.1 b.2)
      e.stores c.assignments)
    rw [if_pos hc]
    exact K.stepDone r (K.similar a hs) (hy.lighter _ 2) 0
  · rw [if_neg hc] at hg ⊢
    rcases hcontrol : e.jobControl? c r.ctx.route with _ | ⟨status, e'⟩
    · rw [hcontrol] at hg
      exact K.pipelineStep r a hy [c] hb false hg
    · exact K.stepDone r (K.similar a (similar_jobControl? (K.keyed a) hcontrol))
        (hy.lighter _ 2) status

lemma faultStep (f : Fault) : C (e.faultStep r f) :=
  K.stepDone r (K.similar a (similar_report e f)) (hy.lighter _ 2) _

end

lemma step (a : A [(r.hub, r.ctx.store)] (r.weight + {low 2}) e)
    (hback : ∀ step ∈ r.steps.head?, step.isBackground = true → B r.ctx.store)
    (hg : G e (e.advance r).1) : C (e.advance r) := by
  rcases hr : r.steps with _ | ⟨step, steps⟩
  · simp only [Engine.advance, hr]
    rw [show r.weight + {low 2} = {low 2} by simp [Runner.weight, hr]] at a
    exact K.notify (K.same a) _
  have hb := hback step (by simp [hr])
  have hweight : r.weight + {low 2} =
      ({ r with steps } : Runner).weight + ({step.rank} + {low 2}) := by
    simp only [Runner.weight, hr, List.map_cons, ← cons_coe, ← singleton_add]
    ac_rfl
  rw [hweight] at a
  have hstep : step.rank ∈ ({step.rank} + {low 2} : Multiset Rank) := by simp
  -- an evaluation weighs less than the command it is for
  have heval : ∀ x : Expansion Built, (x.All fun b => b.hand? = some (r.hub, r.ctx.store) ∧
        (b.isBackground = true → B r.ctx.store) ∧ Fits r.hub ({ r with steps } : Runner).weight b) →
      asking x.height < step.rank → C (e, [.evaluate r.ctx.store x]) :=
    fun x hx hlt => K.evaluate (K.same a) (lighter_add _ hstep (by simpa using hlt)) hx
  rcases step with c | ⟨node, background⟩
  · simp only [Engine.advance, hr] at hg ⊢
    exact K.commandStep { r with steps } a ⟨_, hstep, fun _ => low_lt_tree⟩ c hb hg
  · by_cases hn : Compound node
    · rw [advance_compound hn hr]
      have a' : A [(r.hub, r.ctx.store)]
          (({ r with steps } : Runner).weight + {low 2} + {tree (sizeOf node)}) e := by
        rw [add_assoc, add_comm {low 2}]
        exact a
      have hv : Lighter (({ r with steps } : Runner).weight + {low 2})
          (({ r with steps } : Runner).weight + {low 2} + {low 1}) :=
        lighter_more _ (Multiset.mem_singleton_self _)
      cases background with
      | true =>
        obtain ⟨child, e', he', z', -⟩ := K.spawnNode a' hn r.ctx.inBackground none (hb rfl)
        simp only [he', if_true, map_nil, nil_append]
        exact K.advance { r with steps, background := some 0 } z' hv
      | false =>
        obtain ⟨child, e', he', z', hbare⟩ := K.spawnNode a' hn r.ctx (some r.hub)
          mem_cons_self
        simp only [he', Bool.false_eq_true, if_false, map_nil, nil_append]
        exact K.follow { r with steps } z' hv hbare
    · cases node with
      | command | pipeline =>
        simp only [Engine.advance, hr]
        exact heval _ ((all_true _).map fun _ _ => ⟨rfl, hb, rfl, rfl⟩) asking_lt_tree
      | _ => exact absurd trivial hn

/-! ### Callbacks and evaluations -/

/-- A subscriber that is called goes on with its hub, in the store that it carries. -/
lemma call {cb : Callback} {store : StoreId} (a : A [(cb.hub, store)] (cb.weight + {low 1}) e)
    (hs : cb.store? = some store) (status : Int) : C (e.call status cb) := by
  have hless : ∀ {X : Multiset Rank} (Y : Multiset Rank), cb.weight = X + Y →
      Lighter X (cb.weight + {low 1}) := by
    intro X Y hcb
    rw [hcb, add_assoc]
    exact lighter_more X (z := low 1) (by simp)
  have hnotify : low 5 ∈ cb.weight → A [(cb.hub, store)] {low 2} e := fun hm =>
    K.lighter a (lighter_of (z := low 5) (by simp [hm]) (by simp))
  cases cb with
  | subshell | negate => cases hs
  | runner r =>
    cases hs
    exact K.stepDone r a (hless 0 (by simp [Callback.weight])) status
  | logical hub op right ctx =>
    cases hs
    simp only [Engine.call]
    split
    · exact K.conclude [⟨right, false⟩]
        (K.lighter a (hless 0 (by simp [Callback.weight, Tree.weight])))
    · exact K.notify (K.same (hnotify (by simp [Callback.weight]))) status
  | branch hub onSuccess onFailure ctx =>
    cases hs
    simp only [Engine.call]
    split
    · rename_i items hitems
      refine K.conclude items (K.lighter a ?_)
      split at hitems
      · refine hless (onFailure.elim 0 Tree.weight) ?_
        simp only [Callback.weight, hitems, Option.elim]
        ac_rfl
      · refine hless (onSuccess.elim 0 Tree.weight) ?_
        simp only [Callback.weight, hitems, Option.elim]
        ac_rfl
    · exact K.notify (K.same (hnotify (by simp [Callback.weight]))) 0
  | loop l =>
    cases hs
    exact K.iterate { l with status } a

lemma built {h : HubId × StoreId} {T : Multiset Rank} (a : A [h] (T + Y) e) (hy : Heavy Y)
    {b : Built} (hb : b.hand? = some h) (hr : b.isBackground = true → B h.2) (hf : Fits h.1 T b)
    (hg : G e (e.built b).1) : C (e.built b) := by
  have hheavy : Heavy (T + Y) := by
    obtain ⟨z, hz, hlow⟩ := hy
    exact ⟨z, mem_add.mpr (.inr hz), hlow⟩
  have hlight : ∀ {n : ℕ} {X : Multiset Rank}, (∀ y ∈ X, y < tree n) → Lighter X ({tree n} + Y) :=
    fun h => lighter_of (mem_add.mpr (.inl (Multiset.mem_singleton_self _))) h
  cases b with
  | command r background c =>
    cases hb
    obtain ⟨-, rfl⟩ := hf
    cases c with
    | ok c => exact K.commandStep r a hy _ hr hg
    | error f => exact K.faultStep r a hy f
  | pipeline r background negated cs =>
    cases hb
    obtain ⟨-, rfl⟩ := hf
    cases cs with
    | ok cs => exact K.pipelineStep r a hy cs hr negated hg
    | error f => exact K.faultStep r a hy f
  | loop l values =>
    cases hb
    cases values with
    | ok values =>
      obtain ⟨-, rfl⟩ := hf
      refine K.iterate { l with values } (K.lighter a (hlight fun y hy => ?_))
      have hbody : ∀ y ∈ Tree.weight l.body, y < tree (sizeOf l.body + 1) :=
        lt_of_mem_weight (Nat.le_succ _)
      simp only [Callback.weight, mem_add, Multiset.mem_singleton] at hy
      rcases hy with (hy | rfl) | rfl
      · rcases mem_add.mp (mem_of_mem_nsmul hy) with hy | hy
        · exact hbody y hy
        · rw [Multiset.mem_singleton.mp hy]
          exact low_lt_tree
      · exact low_lt_tree
      · exact low_lt_tree
    | error f => exact K.failHub a hheavy f
  | choice hub ctx body =>
    cases hb
    rcases body with f | _ | items
    · exact K.failHub a hheavy f
    · obtain ⟨-, n, rfl, -⟩ := hf
      exact K.notify (K.same (K.lighter a (hlight (by simp)))) 0
    · obtain ⟨-, n, rfl, hbody⟩ := hf
      refine K.conclude items (K.lighter a (hlight fun y hy => ?_))
      rcases mem_add.mp hy with hy | hy
      · exact lt_of_mem_weight (hbody items rfl) y hy
      · rw [Multiset.mem_singleton.mp hy]
        exact low_lt_tree
  | reply r => cases hb

end Control

end Engine

end JobShell
