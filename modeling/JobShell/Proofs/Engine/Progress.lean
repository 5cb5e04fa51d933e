import JobShell.Proofs.Engine.Debts
import JobShell.Proofs.Engine.Refinement

/-!
Every run comes to its end.

While no process is started, each piece of work leaves less to do than there was, so a machine
comes to the work at the bottom of its stack. Whoever waits there for a hub finds it completed, or
a task that has to be done first; and once there is no task, an engine in order is at rest.
-/

namespace JobShell

open Accounts Rank Expansion Machine JobShell.Tree List Option Multiset Engine InOrder

namespace Engine

variable {e e' : Engine} {K K' : Multiset ℕ} {M M' : List Mark} {W V : Multiset Rank}
  {ws ws' : List Work} {Q : (HubId → ℕ) → Prop} {X : HubId}

/-! ### One piece of work -/

lemma Owing.append (h : Owing (M' ++ M) (K' + K) W e ws) (hs : OwesAll ws' M' K' V) :
    Owing M K (W + V) e (ws ++ ws') := by
  obtain ⟨M1, K1, V1, hws, o, hl⟩ := h
  refine ⟨M1 ++ M', K1 + K', V1 + V, hws.append hs, ?_, ?_⟩
  · rw [append_assoc, add_assoc]
    exact o
  · rw [← add_assoc]
    exact hl.add_right V

/-- A duty that is done leaves less to do, also if a subscriber is called for it. -/
lemma InOrder.performDuty {d : Duty} (o : Tidy K (d.marks ++ M) e) :
    Owing M K (e.weight + d.weight) (e.perform (.duty d)).1 (e.perform (.duty d)).2 := by
  rcases o.solvent.perform with ⟨hubs, ds, hd, hp⟩ | ⟨hub, s, key, keys, rfl⟩
  · obtain ⟨o', hl⟩ := o.performed hp
    simp only [perform, hd, Option.elim, nil_append]
    exact ⟨_, 0, _, owesAll_duties ds, by rw [zero_add]; exact o', hl⟩
  · obtain ⟨cb, hubs, hd, o1, hw1⟩ := deliver o keys
    simp only [perform, hd, Option.elim]
    have hcall := call (M := keys.map (.deliver hub s) ++ M) (e := { e with hubs })
      (by simpa using o1) s
    have hnext : OwesAll [.duty (.deliver hub s keys)] (keys.map (.deliver hub s)) 0
        (Multiset.replicate (keys.length + 1) (low 1)) := (Owes.duty (.deliver hub s keys)).all
    have hweight : e.weight + (Duty.deliver hub s (key :: keys)).weight =
        ({ e with hubs } : Engine).weight + (cb.weight + {low 1}) +
          Multiset.replicate (keys.length + 1) (low 1) := by
      rw [hw1, Duty.weight, length_cons, replicate_succ _ (keys.length + 1), ← singleton_add]
      ac_rfl
    rw [hweight]
    refine .append ?_ hnext
    rw [zero_add]
    exact hcall

/-- When there is no task, there is no job: the oldest one would have nothing to wait for. -/
lemma InOrder.jobs_eq_nil {S : Multiset StoreId}
    (o : InOrder Q [] S K M e) (ht : e.tasks = []) : e.jobs = [] := by
  have hnone : ∀ id j, (id, j) ∉ e.jobs := by
    intro id
    induction id using Nat.strong_induction_on with
    | _ id ih =>
      intro j hm
      have hd := o.due _ hm (by simp)
      unfold Due at hd
      split at hd
      · rcases hd.2 with h | ⟨-, f, hlt, k, hk, -⟩
        · simp [ht] at h
        · exact ih f hlt k hk
      · simp [ht] at hd
  exact eq_nil_iff_forall_not_mem.mpr fun p => hnone p.1 p.2

lemma InOrder.drivers_eq_zero {S : Multiset StoreId}
    (o : InOrder Q [] S K M e) (ht : e.tasks = []) : e.drivers = 0 := by
  simp [drivers, ht, o.jobs_eq_nil ht]

/-- Whoever waits finds the hub completed, or a task to be done first. -/
lemma InOrder.status_or_task (o : Tidy K (.await X :: M) e) :
    ∃ h, e.hubs.get? X = some h ∧ (h.status.isSome = true ∨ ∃ t ts, e.tasks = t :: ts) := by
  obtain ⟨birth, clock, hbal, -⟩ := o.books
  obtain ⟨h, hh⟩ := hbal.alive mem_cons_self
  refine ⟨h, Slab.mem_entries.mp hh, ?_⟩
  rcases ht : e.tasks with _ | ⟨t, ts⟩
  · rw [o.drivers_eq_zero ht] at hbal
    exact .inl (hbal.completed hh)
  · exact .inr ⟨t, ts, rfl⟩

lemma perform_await {h : Hub Callback} {t : Task} {ts : List Task}
    (hX : e.hubs.get? X = some h) (hn : h.status = none) (ht : e.tasks = t :: ts) (w : Waiter) :
    e.perform (.await X w) = (((e.withTasks ts).runTask t).1,
      ((e.withTasks ts).runTask t).2 ++ [.await X w]) := by
  simp only [perform, await, hX, hn, turnThen, turn, ht]

/-- An evaluation that waits for a pipeline goes on when that has completed. -/
lemma InOrder.performAwait {t : HubId} {store : StoreId} {key : ℕ} {T : Multiset Rank}
    {next : Resumption} (hx : ∀ r, (next r).All (Fits t T))
    (o : Tidy ({key} + K) (.await X :: .drive t :: M) e) :
    let w : Work := .await X (.evaluation store key next)
    Owing M K (e.weight + (T + {asking (rest next)})) (e.perform w).1 (e.perform w).2 := by
  intro w
  obtain ⟨h, hX, hready⟩ := o.status_or_task
  rcases hs : h.status with _ | s
  · obtain ⟨task, ts, ht⟩ := hready.resolve_left (by simp [hs])
    rw [perform_await hX hs ht]
    exact .append (o.runTask ht) (Owes.await hx).all
  · obtain ⟨h', hX', hrelease⟩ := o.release (L := []) nofun
    cases hX.symm.trans hX'
    obtain ⟨o1, hw1⟩ := hrelease (by simp [hs])
    have hp : e.perform w = ((({ e with hubs := e.hubs.release X } : Engine).takeCapture key s).2,
        [.evaluate store (next (.ok
          (({ e with hubs := e.hubs.release X } : Engine).takeCapture key s).1))]) := by
      simp only [w, perform, await, hX, hs, answer]
      rfl
    rw [hp, ← hw1]
    refine .one (.evaluate (hx _)) (o1.takeCapture s) ?_
    refine lighter_keep _ _ (Multiset.mem_singleton_self _) ?_
    simpa using height_lt_rest next _

lemma perform_proceeds {w : Work} (hw : Owes w M' K' V) (o : Tidy (K' + K) (M' ++ M) e)
    (hpid : (e.perform w).1.system.nextPid = e.system.nextPid) :
    Proceeds M K (e.weight + V) (e.perform w) := by
  cases hw with
  | duty d => exact .inl (performDuty (by simpa using o))
  | finalize p store =>
    have o' : Tidy K M e := by simpa using o
    refine .inl (Owing.none (InOrder.defer (t := .finalize p store) o' (by simp)) ?_)
    change Lighter (e.defer (.finalize p store)).weight _
    rw [weight_defer]
    exact lighter_add _ (Multiset.mem_singleton_self _) (by simp [Task.weight])
  | advance r => exact InOrder.advance (by simpa using o) hpid
  | evaluate hx => exact InOrder.evaluate (by simpa using o) hx hpid
  | await hx => exact .inl (performAwait hx o)

/-! ### All work -/

end Engine

namespace Machine

/-- No process is started by what a machine does. -/
def StartsNone (m : Machine) : Prop :=
  ∀ n, (step^[n] m).engine.system.nextPid = m.engine.system.nextPid

lemma StartsNone.perform {e : Engine} {w : Work} {stack : List Work}
    (h : StartsNone ⟨e, w :: stack⟩) : (e.perform w).1.system.nextPid = e.system.nextPid ∧
      StartsNone ⟨(e.perform w).1, (e.perform w).2 ++ stack⟩ := by
  have hone := h 1
  refine ⟨hone, fun n => ?_⟩
  have hn := h (n + 1)
  rw [Function.iterate_succ_apply] at hn
  exact hn.trans hone.symm

/-- A machine that has come to its end starts nothing any more, so there is only so much to look
at. -/
lemma startsNone_of_end {m : Machine} {k : ℕ} (hk : (step^[k] m).stack = [])
    (h : ∀ n ≤ k, (step^[n] m).engine.system.nextPid = m.engine.system.nextPid) : StartsNone m := by
  have hstay : ∀ n, step^[n] (step^[k] m) = step^[k] m := by
    intro n
    induction n with
    | zero => rfl
    | succ n ih =>
      rw [Function.iterate_succ_apply', ih]
      rcases hm : step^[k] m with ⟨e, stack⟩
      rw [hm] at hk
      cases hk
      rfl
  intro n
  rcases Nat.lt_or_ge k n with hlt | hle
  · obtain ⟨d, rfl⟩ := Nat.exists_eq_add_of_le hlt.le
    rw [Nat.add_comm, Function.iterate_add_apply, hstay]
    exact h k le_rfl
  · exact h n hle

lemma run_add {m : Machine} {fuel : ℕ} {p : Except Fault Reply × Engine}
    (h : run fuel m = some p) (k : ℕ) : run (fuel + k) m = some p := by
  induction fuel generalizing m with
  | zero => cases h
  | succ fuel ih =>
    rw [Nat.succ_add]
    rcases m with ⟨e, _ | ⟨w, stack⟩⟩
    · exact h
    · cases w with
      | reply r => exact h
      | _ => exact ih h

end Machine

namespace Engine

variable {e e' : Engine} {K A : Multiset ℕ} {M B : List Mark} {V : Multiset Rank}
  {ws below : List Work}

/-- A piece of work that takes tasks until it has what it waits for. -/
structure Bottom (w : Work) (A : Multiset ℕ) (B : List Mark) (Ready : Engine → Prop) : Prop where
  work : ∀ r, w ≠ .reply r
  turn : ∀ e, Tidy A B e → ¬ Ready e → ∃ t ts, e.tasks = t :: ts ∧
    e.perform w = (((e.withTasks ts).runTask t).1,
      ((e.withTasks ts).runTask t).2 ++ [w])

variable {w : Work} {Ready : Engine → Prop}

lemma not_reply_of_owesAll {u : Work} (h : OwesAll (u :: ws) M K V) : ∀ r, u ≠ .reply r := by
  rintro r rfl
  cases h with
  | cons hw _ => cases hw

/-- All work on a stack is done, down to one that waits. The induction is on how much there is to
do, in the engine and on the stack above. -/
lemma leads_bottom (hb : Bottom w A B Ready) (h : OwesAll ws M K V) (o : Tidy (K + A) (M ++ B) e)
    (hpid : StartsNone ⟨e, ws ++ w :: below⟩) :
    Leads (fun m => m.stack = w :: below ∧ Tidy A B m.engine ∧ Ready m.engine ∧ StartsNone m)
      ⟨e, ws ++ w :: below⟩ := by
  induction hW : e.weight + V using wellFounded_lighter.induction generalizing e ws M K V with
  | _ W ih =>
    subst hW
    -- what is left of the work is owed again, or one more step makes it so
    have hgo : ∀ {e' : Engine} {us rest : List Work} {M' : List Mark} {K' : Multiset ℕ}
        {V' : Multiset Rank}, OwesAll rest M' K' V' →
        Proceeds (M' ++ B) (K' + A) (e.weight + V - V') (e', us) → V' ≤ e.weight + V →
        StartsNone ⟨e', us ++ (rest ++ w :: below)⟩ →
        Leads (fun m => m.stack = w :: below ∧ Tidy A B m.engine ∧ Ready m.engine ∧ StartsNone m)
          ⟨e', us ++ (rest ++ w :: below)⟩ := by
      intro e' us rest M' K' V' hrest hp hle hnone
      have howed : ∀ {e' : Engine} {us : List Work},
          Owing (M' ++ B) (K' + A) (e.weight + V - V') e' us →
          StartsNone ⟨e', us ++ (rest ++ w :: below)⟩ →
          Leads (fun m => m.stack = w :: below ∧ Tidy A B m.engine ∧ Ready m.engine ∧ StartsNone m)
            ⟨e', us ++ (rest ++ w :: below)⟩ := by
        rintro e' us ⟨M1, K1, V1, hus, o', hl⟩ hnone
        rw [← append_assoc] at hnone ⊢
        refine ih (e'.weight + (V1 + V')) ?_ (hus.append hrest) ?_ hnone rfl
        · have h' := hl.add_right V'
          rw [add_assoc, Multiset.sub_add_cancel hle] at h'
          exact h'
        · rw [append_assoc, add_assoc]
          exact o'
      rcases hp with hp | ⟨r, child, e'', hus, hsub, hp⟩
      · exact howed hp hnone
      · dsimp only at hus hsub
        subst hus
        have hperform : e'.perform (.follow r child) = (e'', []) := by
          simp only [perform, follow, hsub, owing, map_nil]
        obtain ⟨-, hnone'⟩ := StartsNone.perform hnone
        refine .step (by simp) ?_
        rw [hperform] at hnone' ⊢
        exact howed hp hnone'
    cases h with
    | nil =>
      by_cases hr : Ready e
      · exact .here ⟨rfl, by simpa using o, hr, hpid⟩
      · obtain ⟨t, ts, ht, hperform⟩ := hb.turn e (by simpa using o) hr
        obtain ⟨-, hnone⟩ := hpid.perform
        refine .step hb.work ?_
        rw [hperform, append_assoc] at hnone ⊢
        refine hgo .nil (.inl ?_) (zero_le _) hnone
        simpa using InOrder.runTask (M := B) (K := A) (by simpa using o) ht
    | @cons u us M1 M2 K1 K2 V1 V2 hu hus =>
      obtain ⟨hstep, hnone⟩ := StartsNone.perform hpid
      refine .step (not_reply_of_owesAll (.cons hu hus)) ?_
      refine hgo hus ?_ ?_ hnone
      · have hp := perform_proceeds (M := M2 ++ B) (K := K2 + A) hu
          (by rwa [append_assoc, add_assoc] at o) hstep
        rwa [← add_assoc, Multiset.add_sub_cancel_right]
      · rw [← add_assoc]
        exact le_add_left _ _

/-! ### Engines at rest -/

/-- An engine that has nothing to do and holds on to nothing. -/
structure AtRest (e : Engine) : Prop extends e.Idle where
  live : e.live = 0
  events : e.events = []
  stores : e.stores.slab.Sound ∧ e.stores.slab.keys = {Stores.root}

lemma atRest_fresh (config : Config) (services : Services) (system : System) (console : Console) :
    AtRest { config, services, system, console } := by
  have hstores : ({} : Stores).slab.Sound := ⟨by decide, by decide⟩
  exact { tasks := rfl, hubs := ⟨Slab.sound_empty, rfl⟩, captures := ⟨Slab.sound_empty, rfl⟩
          jobs := rfl, table := rfl, owner := rfl, live := rfl, events := rfl
          stores := ⟨hstores, rfl⟩ }

lemma AtRest.tidy (h : e.AtRest) : Tidy 0 [] e where
  hubs := h.hubs.1
  books := by
    refine ⟨fun _ => 0, 0, ?_, trivial⟩
    rw [h.hubs.2]
    have hd : e.drivers = 0 := by simp [drivers, h.tasks, h.jobs]
    rw [hd]
    exact ⟨.empty, by simp, by simp [settling], by simp [settling], trivial, by simp⟩
  captures := ⟨h.captures.1, by simp [Slab.keys, h.captures.2]⟩
  stores := ⟨h.stores.1, by rw [h.stores.2, h.hubs.2]; rfl⟩
  keyed := by simp [Keyed, h.jobs]
  numbered := by simp [h.jobs]
  due := by simp [h.jobs]
  listed := by simp [h.table]
  owner := by simp [h.owner]
  live := h.live
  events := by simp [h.events]
  flushes := by simp [h.tasks]

/-- An engine in order that has no task and nothing to hear is at rest. -/
lemma InOrder.atRest (o : Tidy 0 [] e) (ht : e.tasks = []) (he : e.events = []) : e.AtRest := by
  have hjobs := o.jobs_eq_nil ht
  obtain ⟨birth, clock, hbal, -⟩ := o.books
  rw [o.drivers_eq_zero ht] at hbal
  have hhubs := hbal.eq_zero
  exact {
    tasks := ht
    hubs := ⟨o.hubs, hhubs⟩
    captures := ⟨o.captures.1, map_eq_zero.mp o.captures.2⟩
    jobs := hjobs
    table := eq_nil_iff_forall_not_mem.mpr fun t h => by
      obtain ⟨p, hp, -⟩ := o.listed t h
      simp [hjobs] at hp
    owner := eq_none_iff_forall_ne_some.mpr fun id h => by simpa [hjobs] using o.owner id h
    live := o.live
    events := he
    stores := ⟨o.stores.1, by rw [o.stores.2, hhubs]; rfl⟩ }

/-! ### Running and draining -/

lemma bottom_await (X : HubId) (v : Waiter) (A : Multiset ℕ) (M : List Mark) :
    Bottom (.await X v) A (.await X :: M) fun e => (e.hubs.status? X).isSome := by
  refine ⟨by simp, fun e o hn => ?_⟩
  obtain ⟨h, hX, hready⟩ := o.status_or_task
  have hs : h.status = none := by simpa [Hubs.status?, hX] using hn
  obtain ⟨t, ts, ht⟩ := hready.resolve_left (by simp [hs])
  exact ⟨t, ts, ht, perform_await hX hs ht _⟩

lemma bottom_drain : Bottom .drain 0 [] fun e => e.tasks = [] := by
  refine ⟨by simp, fun e o hn => ?_⟩
  obtain ⟨t, ts, ht⟩ := exists_cons_of_ne_nil hn
  exact ⟨t, ts, ht, by simp [perform, ht, turnThen, turn]⟩

/-- A machine that leads to a reply gives it whenever there is enough fuel. -/
lemma drive_of_leads {stack : List Work} {P : Engine → Except Fault Reply → Prop}
    (h : Leads (fun m => ∃ r rest, m.stack = .reply r :: rest ∧ P m.engine r) ⟨e, stack⟩) :
    ∃ N r e', P e' r ∧ ∀ fuel, N ≤ fuel → drive fuel stack e = (r, e') := by
  obtain ⟨⟨e', stack'⟩, k, ⟨r, rest, hstack, hp⟩, hrun⟩ := h.run
  cases hstack
  refine ⟨k + 1, r, e', hp, fun fuel hf => ?_⟩
  obtain ⟨d, rfl⟩ := Nat.exists_eq_add_of_le hf
  have hd := hrun (d + 1)
  rw [show d + 1 + k = k + 1 + d by omega] at hd
  rw [drive, hd]
  rfl

lemma InOrder.spawn (o : Tidy K M e) (script : Tree.Script) :
    Tidy K (.await (e.spawn script).1 :: M) (e.spawn script).2 := by
  obtain ⟨hub, e1, he1, o1, -, hb, -⟩ := o.spawnRunner (script.items.map .item) {} none (by simp)
  obtain ⟨o2, -⟩ := o1.retain hb fun birth hy => hy
  simpa only [Engine.spawn, Engine.spawnItems, he1] using o2.forget

/-- A script runs to its end, if it starts no process, and leaves an engine in order. -/
lemma InOrder.run (o : Tidy 0 [] e) (script : Tree.Script)
    (hpid : StartsNone ⟨(e.spawn script).2, [.await (e.spawn script).1 .request]⟩) :
    ∃ N s e', Tidy 0 [] e' ∧ ∀ fuel, N ≤ fuel → e.run fuel script = (.ok (.status s), e') := by
  obtain ⟨X, e1, hspawn⟩ : ∃ X e1, e.spawn script = (X, e1) := ⟨_, _, rfl⟩
  have o1 := o.spawn script
  rw [hspawn] at o1 hpid
  have hdone : Leads (fun m => ∃ r rest, m.stack = .reply r :: rest ∧
      ∃ s, r = .ok (.status s) ∧ Tidy 0 [] m.engine) ⟨e1, [.await X .request]⟩ := by
    refine (leads_bottom (bottom_await X .request 0 []) .nil (by simpa using o1) hpid).bind ?_
    rintro ⟨e2, stack⟩ ⟨hstack, o2, hr, -⟩
    cases hstack
    obtain ⟨h, hX, hrelease⟩ := o2.release (L := []) nofun
    obtain ⟨s, hs⟩ := isSome_iff_exists.mp hr
    have hst : h.status = some s := by simpa [Hubs.status?, hX] using hs
    obtain ⟨o3, -⟩ := hrelease (by simp [hst])
    refine .step (by simp) (.here ⟨.ok (.status s), [], ?_, s, rfl, ?_⟩) <;>
      simp only [perform, await, hX, hst, answer]
    · rfl
    · exact o3
  obtain ⟨N, r, e', ⟨s, rfl, o'⟩, hdrive⟩ :=
    drive_of_leads (P := fun e r => ∃ s, r = .ok (.status s) ∧ Tidy 0 [] e) hdone
  refine ⟨N, s, e', o', fun fuel hf => ?_⟩
  simpa only [Engine.run, hspawn, wait] using hdrive fuel hf

/-- To interrupt whoever has the terminal changes nothing that is kept of jobs. -/
lemma similar_interrupt (e : Engine) : Similar e e.interrupt := by
  unfold interrupt
  split
  · exact similar_system e (Native.still_signal _ _ _).nextPid
  · exact .refl e

lemma InOrder.heard (o : Tidy K M e) {events : List Event} (hev : e.events = .interrupt :: events) :
    Tidy K M ({ e with events } : Engine).interrupt := by
  have o' : Tidy K M { e with events } :=
    { o with events := fun ev hm => o.events ev (by simp [hev, hm]) }
  exact o'.similar (similar_interrupt _)

lemma InOrder.leads_poll (o : Tidy 0 [] e) (ht : e.tasks = []) :
    Leads (fun m => ∃ r rest, m.stack = .reply r :: rest ∧ (r = .ok .nothing ∧ m.engine.AtRest))
      ⟨e, [.poll]⟩ := by
  induction hev : e.events generalizing e with
  | nil =>
    refine .step (by simp) ?_
    rw [show e.perform .poll = (e, [.reply (.ok .nothing)]) by
      simp [perform, turn, ht, hear, hev]]
    exact .here ⟨_, [], rfl, rfl, o.atRest ht hev⟩
  | cons event events ih =>
    obtain rfl := o.events event (by simp [hev])
    have hs := similar_interrupt { e with events }
    refine .step (by simp) ?_
    rw [show e.perform .poll = (({ e with events } : Engine).interrupt, [.poll]) by
      simp [perform, turn, ht, hear, hev, dispatch, owing]]
    exact ih (o.heard hev) (hs.tasks.trans ht) hs.events

lemma InOrder.drain (o : Tidy 0 [] e) (hpid : StartsNone ⟨e, [.drain]⟩) :
    ∃ N e', e'.AtRest ∧ ∀ fuel, N ≤ fuel → e.drain fuel = (.ok .nothing, e') := by
  have hdone : Leads (fun m => ∃ r rest, m.stack = .reply r :: rest ∧
      (r = .ok .nothing ∧ m.engine.AtRest)) ⟨e, [.drain]⟩ := by
    refine (leads_bottom bottom_drain .nil (by simpa using o) hpid).bind ?_
    rintro ⟨e1, stack⟩ ⟨hstack, o1, ht, -⟩
    cases hstack
    dsimp only at ht o1
    have hlive := o1.live
    have hdrain : e1.perform .drain = (e1, [.poll]) := by simp [perform, ht, hlive]
    refine .step (by simp) ?_
    rw [hdrain]
    exact o1.leads_poll ht
  obtain ⟨N, r, e', ⟨rfl, hrest⟩, hdrive⟩ :=
    drive_of_leads (P := fun e r => r = .ok .nothing ∧ e.AtRest) hdone
  exact ⟨N, e', hrest, hdrive⟩

/-- A script whose commands are routines, or cannot be started as processes, runs to its end from
an engine at rest: it is answered with a status, never as stalled and never for want of a hub. What
it left in the background is done by draining, and then the engine is at rest again. -/
theorem run_drain_atRest (e : Engine) (he : e.AtRest) (script : Tree.Script)
    (hrun : StartsNone ⟨(e.spawn script).2, [.await (e.spawn script).1 .request]⟩)
    (hdrain : ∀ fuel s e', e.run fuel script = (.ok (.status s), e') → StartsNone ⟨e', [.drain]⟩) :
    ∃ N s e₁ e₂, (∀ fuel, N ≤ fuel → e.run fuel script = (.ok (.status s), e₁)) ∧
      (∀ fuel, N ≤ fuel → e₁.drain fuel = (.ok .nothing, e₂)) ∧ e₂.AtRest := by
  obtain ⟨N₁, s, e₁, o₁, hran⟩ := he.tidy.run script hrun
  obtain ⟨N₂, e₂, hrest, hdrained⟩ := o₁.drain (hdrain N₁ s e₁ (hran N₁ le_rfl))
  exact ⟨max N₁ N₂, s, e₁, e₂, fun fuel hf => hran fuel ((le_max_left _ _).trans hf),
    fun fuel hf => hdrained fuel ((le_max_right _ _).trans hf), hrest⟩

/-- `nothing 5<&- | say b; (say a) &`: the first command cannot be started, for no process has its
fifth descriptor redirected, and the last one is still to run when the list has ended. -/
def leavesBehind : Script :=
  ⟨[⟨.pipeline [⟨[], some ⟨[.literal "nothing"]⟩, [], [⟨.dupInput, some 5, ⟨[.literal "-"]⟩⟩]⟩,
      ⟨[], some ⟨[.literal "say"]⟩, [⟨[.literal "b"]⟩], []⟩] false, false⟩,
    ⟨.subshell [⟨say "a", false⟩], true⟩]⟩

lemma drive_unique {stack : List Work} {f k : ℕ} {e1 e2 : Engine} {v1 v2 : Reply}
    (h1 : e.drive f stack = (.ok v1, e1)) (h2 : e.drive k stack = (.ok v2, e2)) : e1 = e2 := by
  have hsome : ∀ {fuel : ℕ} {v : Reply} {e' : Engine}, e.drive fuel stack = (.ok v, e') →
      Machine.run fuel ⟨e, stack⟩ = some (.ok v, e') := by
    intro fuel v e' h
    rw [drive] at h
    rcases hm : Machine.run fuel ⟨e, stack⟩ with _ | p
    · rw [hm] at h
      cases h
    · rw [hm] at h
      exact congrArg some h
  have hf := run_add (hsome h1) k
  have hk := run_add (hsome h2) f
  rw [Nat.add_comm, hf] at hk
  cases hk
  rfl

lemma run_eq_drive (fuel : ℕ) (script : Script) :
    e.run fuel script = (e.spawn script).2.drive fuel [.await (e.spawn script).1 .request] := rfl

theorem run_drain_atRest_leavesBehind :
    ∃ N s e₁ e₂, (∀ fuel, N ≤ fuel → talking.run fuel leavesBehind = (.ok (.status s), e₁)) ∧
      (∀ fuel, N ≤ fuel → e₁.drain fuel = (.ok .nothing, e₂)) ∧ e₂.AtRest := by
  refine run_drain_atRest talking (atRest_fresh {} talking.services {} _) leavesBehind ?_ ?_
  · exact startsNone_of_end (k := 30) (length_eq_zero_iff.mp (by decide +kernel))
      (by decide +kernel)
  · intro fuel s e' h
    have hok : (talking.run 30 leavesBehind).1.toBool = true := by decide +kernel
    have he' : e' = (talking.run 30 leavesBehind).2 := by
      rcases hr : talking.run 30 leavesBehind with ⟨_ | v, e''⟩
      · simp [hr, Except.toBool] at hok
      · rw [run_eq_drive] at h hr
        exact drive_unique h hr
    subst he'
    exact startsNone_of_end (k := 30) (length_eq_zero_iff.mp (by decide +kernel))
      (by decide +kernel)

end Engine

end JobShell
