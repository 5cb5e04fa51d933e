import JobShell.Proofs.Engine.Effects
import JobShell.Proofs.Engine.Life
import JobShell.Proofs.Engine.Progress

/-!
All that a machine has in hand is accounted for.

From one request to the next the engine is in order: what stands on the stack is owed to it, down to
whoever answers the request, and each hub that a request left behind is kept for someone who may
still ask for it. Main statement: while no process is started, each piece of work and each request
keeps it so. Hence the buffers there are belong to the evaluations on the
stack that wait for a pipeline, one to each, and the hub of such a pipeline is there.
-/

namespace JobShell

open Accounts Rank Expansion Engine List Option InOrder Work

/-- Work on a request. -/
inductive Answers : Work → Prop where
  | evaluate {store : StoreId} {x : Expansion Built} (hx : x.All fun b => b.hand? = none) :
      Answers (.evaluate store x)
  | await {X : HubId} {store : StoreId} {key : ℕ} {next : Resumption}
      (hx : ∀ r, (next r).All fun b => b.hand? = none) :
      Answers (.await X (.evaluation store key next))
  | request (X : HubId) : Answers (.await X .request)
  | asks {w : Work} (hw : Engine.Asks w) : Answers w

namespace Work

/-- The buffer that someone waits for. -/
def key? : Work → Option ℕ
  | .await _ (.evaluation _ key _) => some key
  | _ => none

/-- The buffers that are waited for on a stack. -/
def keys (ws : List Work) : Multiset ℕ := (ws.filterMap key? : List ℕ)

/-- The hub of a pipeline that someone waits for. -/
def mark? : Work → Option Mark
  | .await X (.evaluation _ _ _) => some (.await X)
  | _ => none

lemma keys_append (ws ws' : List Work) : keys (ws ++ ws') = keys ws + keys ws' := by
  simp [Work.keys]

lemma mem_keys {ws : List Work} {X : HubId} {store : StoreId} {key : ℕ}
    {next : Resumption}
    (h : .await X (.evaluation store key next) ∈ ws) : key ∈ keys ws :=
  mem_filterMap.mpr ⟨_, h, rfl⟩

end Work

lemma OwesAll.keys_eq {ws : List Work} {M : List Mark} {K : Multiset ℕ} {V : Multiset Rank}
    (h : OwesAll ws M K V) : K = keys ws := by
  induction h with
  | nil => rfl
  | @cons w ws M M' K K' V V' hw _ ih =>
    have hkey : K = keys [w] := by cases hw <;> rfl
    rw [hkey, ih, ← Work.keys_append]
    rfl

lemma OwesAll.await_mem {ws : List Work} {M : List Mark} {K : Multiset ℕ} {V : Multiset Rank}
    (h : OwesAll ws M K V) {X : HubId} {store : StoreId} {key : ℕ}
    {next : Resumption}
    (hm : .await X (.evaluation store key next) ∈ ws) : .await X ∈ M := by
  induction h with
  | nil => cases hm
  | cons hw _ ih =>
    rcases mem_cons.mp hm with rfl | hm
    · cases hw
      simp
    · exact mem_append_right _ (ih hm)

namespace Engine

variable {e e' : Engine} {K : Multiset ℕ} {M : List Mark} {W V : Multiset Rank} {B : List HubId}
  {w : Work} {ws us stack : List Work} {last : Option Work}

/-- What whoever answers a request and those who may ask later on hold. -/
def held (last : Option Work) (B : List HubId) : List Mark :=
  (last.bind Work.mark?).toList ++ B.map .await

/-- All work on a stack is owed to an engine in order, or a list is about to follow a step of it,
and then all other work is. -/
inductive Accounted (e : Engine) : List Work → Prop where
  | owed {ws : List Work} {last : Option Work} {M : List Mark} {K : Multiset ℕ}
      {V : Multiset Rank} {B : List HubId} (hlast : ∀ w ∈ last, Answers w)
      (h : OwesAll ws M K V) (o : Tidy (K + Work.keys last.toList) (M ++ held last B) e) :
      Accounted e (ws ++ last.toList)
  | follow {r : Runner} {child : HubId} {e' : Engine} {ws : List Work} {last : Option Work}
      {M : List Mark} {K : Multiset ℕ} {V : Multiset Rank} {B : List HubId}
      (hsub : e.subscribe child (.runner r) = .ok e') (hlast : ∀ w ∈ last, Answers w)
      (h : OwesAll ws M K V) (o : Tidy (K + Work.keys last.toList) (M ++ held last B) e') :
      Accounted e (.follow r child :: (ws ++ last.toList))

/-! ### Inner work -/

lemma Owing.accounted (hp : Owing (M ++ held last B) (K + keys last.toList) W e us)
    (hs : OwesAll ws M K V) (hlast : ∀ w ∈ last, Answers w) :
    Accounted e (us ++ (ws ++ last.toList)) := by
  obtain ⟨M', K', V', hus, o, -⟩ := hp
  rw [← append_assoc, ← add_assoc] at o
  rw [← append_assoc]
  exact .owed hlast (hus.append hs) o

lemma Proceeds.accounted {p : Engine × List Work}
    (hp : Proceeds (M ++ held last B) (K + keys last.toList) W p) (hs : OwesAll ws M K V)
    (hlast : ∀ w ∈ last, Answers w) : Accounted p.1 (p.2 ++ (ws ++ last.toList)) := by
  rcases hp with hp | ⟨r, child, e', hus, hsub, M', K', V', hus', o, -⟩
  · exact hp.accounted hs hlast
  · cases hus'
    rw [hus]
    rw [zero_add, nil_append] at o
    exact .follow hsub hlast hs o

/-! ### Work on requests -/

lemma Accounted.rest (hc : Accounted e []) : ∃ B : List HubId, Tidy 0 (B.map .await) e := by
  generalize hs : ([] : List Work) = stack at hc
  cases hc with
  | @owed ws last M K V B hlast h o =>
    obtain ⟨rfl, hl⟩ := append_eq_nil_iff.mp hs.symm
    cases h
    obtain rfl : last = none := by simpa using hl
    exact ⟨B, by simpa [held, Work.keys] using o⟩
  | follow => cases hs

lemma InOrder.accounted (o : Tidy 0 (B.map .await) e) : Accounted e [] := by
  have hlast : ∀ w ∈ (none : Option Work), Answers w := by simp
  exact .owed hlast .nil (by simpa [held, Work.keys] using o)

/-- Whoever answers a request holds a buffer only if it waits for one. -/
lemma InOrder.answering (hw : Answers w) (o : Tidy (keys [w]) (held (some w) B) e) :
    Accounted e [w] := by
  have hlast : ∀ w' ∈ some w, Answers w' := by simpa using hw
  exact .owed hlast .nil (by simpa using o)

lemma InOrder.turned (hw : Answers w) (o : Tidy (keys [w]) (held (some w) B) e) {t : Task}
    {ts : List Task} (ht : e.tasks = t :: ts) :
    Accounted ((e.withTasks ts).runTask t).1
      (((e.withTasks ts).runTask t).2 ++ [w]) := by
  have hlast : ∀ w' ∈ some w, Answers w' := by simpa using hw
  have h := o.runTask ht
  rw [← zero_add (keys [w]), ← nil_append (held (some w) B)] at h
  exact Owing.accounted h .nil hlast

lemma InOrder.alone (o : Tidy 0 (B.map .await) e) (hw : Answers w) (hk : w.key? = none)
    (hm : w.mark? = none) : Accounted e [w] :=
  answering (B := B) hw (by simpa [Work.keys, hk, held, hm] using o)

lemma Asks.holds (hw : Asks w) : w.key? = none ∧ w.mark? = none := by
  cases hw <;> exact ⟨rfl, rfl⟩

lemma InOrder.asking (o : Tidy 0 (B.map .await) e) (hw : Asks w) : Accounted e [w] :=
  o.alone (.asks hw) hw.holds.1 hw.holds.2

/-- Someone who holds nothing takes a turn. -/
lemma InOrder.took (o : Tidy 0 (B.map .await) e) (hw : Answers w) (hk : w.key? = none)
    (hm : w.mark? = none) {block : Bool} (h : e.turn block = .took e' ws) :
    Accounted e' (ws ++ [w]) := by
  rcases took_quiet o.events o.live h with ⟨t, ts, ht, h⟩ | ⟨events, hev, h⟩ <;>
    obtain ⟨rfl, rfl⟩ := Prod.ext_iff.mp h
  · exact turned (B := B) hw (by simpa [Work.keys, hk, held, hm] using o) ht
  · exact (o.heard hev).alone hw hk hm

/-- A hub that no one may ask for is not there any more once it has completed. -/
lemma InOrder.mem_of_completed (o : Tidy K (B.map .await) e) {X : HubId} {h : Hub Callback}
    (hX : e.hubs.get? X = some h) (hs : h.status.isSome = true) : X ∈ B := by
  obtain ⟨birth, clock, hbal, -⟩ := o.books
  have hmem : (X, h) ∈ e.hubs.entries := Slab.mem_entries.mpr hX
  have hpos : 0 < h.retained := by
    refine Nat.pos_of_ne_zero fun hr => ?_
    have hset := mem_settling.mp (hbal.dropped _ hmem hs hr)
    simp at hset
  have hw : Mark.await X ∈ wants e.hubs.entries :=
    mem_wants.mpr ⟨_, hmem, Hub.mem_wants.mpr (.inr (.inr ⟨hpos, rfl⟩))⟩
  rw [← hbal.balance] at hw
  simp only [Multiset.mem_add, Multiset.mem_map, mem_due, reduceCtorEq, and_false, exists_false,
    false_or, mem_gives] at hw
  rcases hw with ⟨hw, -⟩ | ⟨p, -, hw⟩
  · simpa using hw
  · rcases Hub.mem_gives.mp hw with ⟨t, -, ht⟩ | ⟨-, q, -, ht⟩ <;> cases ht

/-- Whoever was asked for a hub lets it go when it has completed, and then it is not kept any
longer. -/
lemma InOrder.letGo (o : Tidy K (B.map .await) e) {X : HubId} {h : Hub Callback}
    (hX : e.hubs.get? X = some h) (hs : h.status.isSome = true) :
    ∃ B' : List HubId, Tidy K (B'.map .await) { e with hubs := e.hubs.release X } := by
  obtain ⟨L, R, rfl⟩ := append_of_mem (o.mem_of_completed hX hs)
  rw [map_append, map_cons] at o
  obtain ⟨h', hX', hrelease⟩ := o.release fun m hm => by
    obtain ⟨Y, -, rfl⟩ := mem_map.mp hm
    exact ⟨Y, rfl⟩
  cases hX.symm.trans hX'
  exact ⟨L ++ R, by rw [map_append]; exact (hrelease hs).1⟩

/-- Work on a request leaves an engine that all work is owed to. -/
lemma InOrder.answered (hw : Answers w) (o : Tidy (keys [w]) (held (some w) B) e)
    (hpid : (e.perform w).1.system.nextPid = e.system.nextPid) :
    Accounted (e.perform w).1 (e.perform w).2 := by
  cases hw with
  | @evaluate store x hx =>
    have o0 : Tidy 0 (B.map .await) e := o
    cases x with
    | done b =>
      cases b with
      | reply r => exact o0.asking (.reply r)
      | _ => cases hx
    | value | aliasOf | paths => exact o0.alone (.evaluate (hx _)) rfl rfl
    | capture commands negated next =>
      obtain ⟨key, hub, launched, e', he', o', -⟩ := o0.startCapture commands store negated hpid
      simp only [Engine.perform, Engine.evaluate, he', map_nil, nil_append]
      rw [add_zero] at o'
      exact answering (B := B) (.await hx) o'
  | @await X store key next hx =>
    have o0 : Tidy ({key} + 0) (.await X :: B.map .await) e := by
      rw [add_zero]
      exact o
    obtain ⟨h, hX, hready⟩ := o0.status_or_task
    rcases hs : h.status with _ | s
    · obtain ⟨t, ts, ht⟩ := hready.resolve_left (by simp [hs])
      rw [perform_await hX hs ht]
      exact o.turned (.await hx) ht
    · obtain ⟨h', hX', hrelease⟩ := o0.release (L := []) (by simp)
      cases hX.symm.trans hX'
      have o1 := (hrelease (by simp [hs])).1.takeCapture s
      simp only [Engine.perform, Engine.await, hX, hs, answer]
      exact o1.alone (.evaluate (hx _)) rfl rfl
  | request X =>
    have o0 : Tidy 0 (B.map .await) e := o
    simp only [Engine.perform]
    rcases await_cases e X .request with ⟨s, hs, h⟩ | ⟨-, ⟨f, -, h⟩ | ⟨e', ws, ht, h⟩⟩ <;> rw [h]
    · obtain ⟨h, hX, hs⟩ := bind_eq_some_iff.mp hs
      obtain ⟨B', o1⟩ := o0.letGo hX (by simp [hs])
      exact o1.asking (.reply _)
    · exact o0.asking (.reply _)
    · exact o0.took (.request X) rfl rfl ht
  | asks hw =>
    have o0 : Tidy 0 (B.map .await) e := by
      cases hw <;> exact o
    rcases hw.perform e with ⟨next, hnext, h⟩ | ⟨block, e', ws, w', ht, hw', h⟩ <;> rw [h]
    · cases next with
      | none => exact o0.accounted
      | some w' => exact o0.asking (hnext w' rfl)
    · exact o0.took (.asks hw') hw'.holds.1 hw'.holds.2 ht

/-- Each piece of work leaves an engine that all other work is owed to. -/
lemma Accounted.perform (hc : Accounted e (w :: stack))
    (hpid : (e.perform w).1.system.nextPid = e.system.nextPid) :
    Accounted (e.perform w).1 ((e.perform w).2 ++ stack) := by
  generalize hs : w :: stack = whole at hc
  cases hc with
  | @owed ws last M K V B hlast h o =>
    cases h with
    | nil =>
      rcases last with _ | w'
      · cases hs
      · obtain ⟨rfl, rfl⟩ := cons.inj hs
        rw [append_nil]
        exact answered (B := B) (hlast w rfl) (by simpa using o) hpid
    | cons hw hws =>
      obtain ⟨rfl, rfl⟩ := cons.inj hs
      rw [append_assoc, add_assoc] at o
      exact (perform_proceeds hw o hpid).accounted hws hlast
  | follow hsub hlast h o =>
    obtain ⟨rfl, rfl⟩ := cons.inj hs
    simp only [Engine.perform, Engine.follow, hsub, owing, map_nil, nil_append]
    exact .owed hlast h o

/-- An engine is in order unless a list is about to follow a step of it. -/
lemma Accounted.tidy (hc : Accounted e (w :: stack)) (hw : ∀ r child, w ≠ .follow r child) :
    ∃ A M, Tidy A M e := by
  generalize hs : w :: stack = whole at hc
  cases hc with
  | owed hlast h o => exact ⟨_, _, o⟩
  | follow hsub hlast h o => exact absurd (cons.inj hs).1 (hw _ _)

/-! ### Requests -/

lemma Begins.accounted {m : Machine} (hb : e.Begins m) (hc : Accounted e [])
    (hpid : m.engine.system.nextPid = e.system.nextPid) : Accounted m.engine m.stack := by
  obtain ⟨B, o⟩ := hc.rest
  cases hb with
  | spawn script => exact InOrder.accounted (B := _ :: B) (o.spawn script)
  | wait hub => exact o.alone (.request hub) rfl rfl
  | @runCommands commands hub e' h =>
    obtain ⟨child, e1, he1, o1, -, hbare, -⟩ :=
      o.spawnRunner (commands.map .ready) {} none (by simp)
    obtain ⟨rfl, rfl⟩ := Prod.mk.inj (he1.symm.trans h)
    have o2 := (o1.retain hbare fun birth hy => hy).1.forget
    exact alone (B := child :: B) o2 (.request child) rfl rfl
  | @runPipeline commands negated s e' h =>
    have hpid' : (e.startPipeline commands {} none negated).2.system.nextPid =
        e.system.nextPid := by
      rw [h]
      exact hpid
    obtain ⟨hub, launched, e1, he1, o1, -, hbare⟩ :=
      o.startPipeline commands {} none negated (by simp) hpid'
    obtain ⟨rfl, rfl⟩ := Prod.mk.inj (he1.symm.trans h)
    have o2 := (o1.retain hbare fun birth hy => hy).1.forget
    exact alone (B := hub :: B) o2 (.request hub) rfl rfl
  | takeTurns count block => exact o.asking (.turns ..)
  | poll => exact o.asking .poll
  | drain => exact o.asking .drain
  | runUntil id state => exact o.asking (.untilState id state)
  | evaluateAs x f => exact o.alone (.evaluate ((all_true _).map fun _ _ => rfl)) rfl rfl
  | setVariable name v =>
    exact (o.similar (similar_stores e (Stores.shape_set e.stores _ name v))).accounted
  | interrupt => exact (o.similar (similar_interrupt e)).accounted
  | postInterrupt =>
    have o' : Tidy 0 (B.map .await) e.postInterrupt :=
      { o with events := by simpa [Engine.postInterrupt, or_imp, forall_and] using o.events }
    exact o'.accounted
  | foreground h => exact (o.similar (similar_foreground o.keyed h)).accounted
  | background h => exact (o.similar (similar_background o.keyed h)).accounted

lemma accounted_initial (config : Config) (services : Services) (system : System) (direct : Bool) :
    Accounted (initial config services system direct) [] :=
  accounted (B := []) (atRest_fresh config services system _).tidy

/-! ### What can be seen -/

/-- An engine whose jobs have numbers of their own, that has no news of processes, and that has
a buffer for each one who waits for it on a stack. -/
structure Neat (e : Engine) (stack : List Work) : Prop where
  keyed : e.Keyed
  numbered : ∀ p ∈ e.jobs, p.1 < e.nextJob
  live : e.live = 0
  events : ∀ event ∈ e.events, event = .interrupt
  captures : e.captures.Sound ∧ e.captures.keys = Work.keys stack
  awaited : ∀ X store key next, .await X (.evaluation store key next) ∈ stack →
    (e.hubs.get? X).isSome = true

lemma InOrder.neat (hlast : ∀ w ∈ last, Answers w) (h : OwesAll ws M K V)
    (o : Tidy (K + keys last.toList) (M ++ held last B) e) : Neat e (ws ++ last.toList) where
  keyed := o.keyed
  numbered := o.numbered
  live := o.live
  events := o.events
  captures := ⟨o.captures.1, by rw [o.captures.2, h.keys_eq, Work.keys_append]⟩
  awaited X store key next hm := by
    obtain ⟨birth, clock, hbal, -⟩ := o.books
    have hmark : .await X ∈ M ++ held last B := by
      rcases mem_append.mp hm with hm | hm
      · exact mem_append_left _ (h.await_mem hm)
      · obtain rfl : last = some _ := by simpa using hm
        exact mem_append_right _ mem_cons_self
    obtain ⟨h, hh⟩ := hbal.alive hmark
    exact isSome_iff_exists.mpr ⟨h, Slab.mem_entries.mp hh⟩

lemma unchanged_subscribe {hub : HubId} {cb : Callback} (h : e.subscribe hub cb = .ok e') :
    e'.jobs = e.jobs ∧ e'.nextJob = e.nextJob ∧ e'.live = e.live ∧ e'.events = e.events ∧
      e'.captures = e.captures ∧ ∀ X, (e'.hubs.get? X).isSome = (e.hubs.get? X).isSome := by
  unfold subscribe at h
  split at h
  · cases h
  · rename_i key hubs hsub
    cases h
    obtain ⟨k, -, hk⟩ := map_eq_some_iff.mp hsub
    obtain ⟨-, rfl⟩ := Prod.mk.inj hk
    have hhubs : ∀ (f : Hub Callback → Hub Callback) X,
        ((e.hubs.update hub f).get? X).isSome = (e.hubs.get? X).isSome := by
      intro f X
      rw [Hubs.get?_update]
      split
      · rename_i he
        rw [he, isSome_map]
      · rfl
    split <;> exact ⟨rfl, rfl, rfl, rfl, rfl, hhubs _⟩

lemma Accounted.neat (hc : Accounted e stack) : Neat e stack := by
  cases hc with
  | owed hlast h o => exact neat hlast h o
  | @follow r child e' ws last M K V B hsub hlast h o =>
    have hn := neat hlast h o
    obtain ⟨hjobs, hnext, hlive, hevents, hcaptures, hhubs⟩ := unchanged_subscribe hsub
    refine ⟨?_, ?_, hlive ▸ hn.live, hevents ▸ hn.events, ?_, fun X store key next hm => ?_⟩
    · rw [Keyed, ← hjobs]
      exact hn.keyed
    · rw [← hjobs, ← hnext]
      exact hn.numbered
    · rw [← hcaptures]
      exact hn.captures
    · rw [← hhubs X]
      refine hn.awaited X store key next ?_
      rcases mem_cons.mp hm with hm | hm
      · cases hm
      · exact hm

end Engine

end JobShell
