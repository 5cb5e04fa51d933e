import JobShell.Proofs.Engine.Order
import JobShell.Proofs.Grouping

/-!
Jobs in order.

A job that has been made waits to be started; one that was started and one that is fed are sure to
end; and with its end a job leaves its hub to be completed. A pipeline is made of such jobs.
-/

namespace JobShell

open Accounts Rank List

/-- A chain that was started and cannot run waits for its input. -/
lemma Chain.start_waiting {ch : Chain} {taps : Taps} (hq : ch.queued = false)
    (h : ¬ (ch.start taps).1 = true) : taps.stdin = true ∧ (ch.start taps).2.queued = false := by
  unfold Chain.start Chain.ready at h ⊢
  split at h
  · exact absurd rfl h
  · rename_i hc
    rw [if_neg hc]
    simp only [hq, Bool.not_false, Bool.and_true, Bool.true_and, Bool.or_eq_true,
      Bool.not_eq_true', not_or, Bool.not_eq_false] at hc
    exact ⟨hc.2, hq⟩

namespace Engine

variable {e e' e'' : Engine} {Q : (HubId → ℕ) → Prop} {X X' : List JobId} {S : Multiset StoreId}
  {K : Multiset ℕ} {M : List Mark} {c : HubId} {id next : JobId} {j j' : Job} {js : List JobId}
  {q : Option HubId}

/-- Work has been added, of small ranks only. -/
def Grows (e e' : Engine) : Prop := ∃ A, e'.weight = e.weight + A ∧ ∀ y ∈ A, ∃ n, y = low n

lemma Similar.grows (hs : Similar e e') : Grows e e' := ⟨0, by simp [hs.weight], by simp⟩

lemma Grows.trans (h1 : Grows e e') (h2 : Grows e' e'') : Grows e e'' := by
  obtain ⟨A, hA, hlow⟩ := h1
  obtain ⟨B, hB, hlow'⟩ := h2
  refine ⟨A + B, by rw [hB, hA, add_assoc], fun y hy => ?_⟩
  rcases Multiset.mem_add.mp hy with hy | hy
  · exact hlow y hy
  · exact hlow' y hy

/-! ### One job -/

lemma InOrder.mono (o : InOrder Q X S K M e) (hX : ∀ x ∈ X, x ∈ X') : InOrder Q X' S K M e :=
  { o with due := fun p hp hn => o.due p hp fun h => hn (hX _ h) }

lemma InOrder.discharge (o : InOrder Q (id :: X) S K M e)
    (hd : ∀ j, e.job? id = some j → e.Due id j) : InOrder Q X S K M e := by
  refine { o with due := fun p hp hn => ?_ }
  by_cases hid : p.1 = id
  · subst hid
    exact hd p.2 (o.keyed.mem_iff.mp hp)
  · exact o.due p hp (by simp [hid, hn])

lemma feeds_setJob (hk : e.Keyed) (hj : e.job? id = some j) (j' : Job)
    (hf : ∀ next, j.stdout = .forward next → j'.stdout = .forward next) {f i : JobId}
    (h : e.Feeds f i) : (e.setJob id j').Feeds f i := by
  obtain ⟨hlt, k, hk', hout⟩ := h
  obtain ⟨l1, l2, hl, hid, hset, -⟩ := hk.split hj
  refine ⟨hlt, ?_⟩
  rw [hset]
  rw [hl] at hk'
  rcases mem_append.mp hk' with hm | hm
  · exact ⟨k, mem_append_left _ hm, hout⟩
  · rcases mem_cons.mp hm with hm | hm
    · cases hm
      exact ⟨j', by simp, hf i hout⟩
    · exact ⟨k, by simp [hm], hout⟩

lemma InOrder.setJob (o : InOrder Q X S K M e) (hj : e.job? id = some j) (hX : id ∈ X) (j' : Job)
    (hhub : j'.hub = j.hub) (htab : j'.tableId = j.tableId)
    (hf : ∀ next, j.stdout = .forward next → j'.stdout = .forward next) :
    InOrder Q X S K M (e.setJob id j') ∧ (e.setJob id j').weight = e.weight := by
  obtain ⟨l1, l2, hl, hid, hset, -⟩ := o.keyed.split hj
  have hids : (e.setJob id j').jobs.map Prod.fst = e.jobs.map Prod.fst := by
    simp [hset, hl]
  have hdrivers : (e.setJob id j').drivers = e.drivers := by
    simp only [drivers, hset, hl, map_append, map_cons, hhub]
    rfl
  have hother : ∀ p ∈ (e.setJob id j').jobs, p ∈ e.jobs ∨ p = (id, j') := by
    intro p hp
    rw [hset] at hp
    rw [hl]
    simp only [mem_append, mem_cons] at hp ⊢
    tauto
  refine ⟨{ o with
    books := ?_
    keyed := by rw [Keyed, hids]; exact o.keyed
    numbered := fun p hp => ?_
    due := fun p hp hn => ?_
    listed := fun t ht => ?_
    owner := fun i hi => hids ▸ o.owner i hi }, ?_⟩
  · rw [hdrivers]
    exact o.books
  · rcases hother p hp with hp | rfl
    · exact o.numbered p hp
    · exact o.numbered (id, j) (by simp [hl])
  · rcases hother p hp with hp | rfl
    · exact (o.due p hp hn).mono (fun _ h _ => h) fun f h => feeds_setJob o.keyed hj j' hf h
    · exact absurd hX hn
  · obtain ⟨p, hp, hpt⟩ := o.listed t ht
    rw [hl] at hp
    rw [hset]
    rcases mem_append.mp hp with hm | hm
    · exact ⟨p, by simp [hm], hpt⟩
    · rcases mem_cons.mp hm with rfl | hm
      · exact ⟨(id, j'), by simp, htab.trans hpt⟩
      · exact ⟨p, by simp [hm], hpt⟩
  · simp only [weight, hset, hl, length_append, length_cons]
    rfl

lemma drivers_append (hj : e'.jobs = e.jobs ++ [(id, j)]) (ht : e'.tasks = e.tasks) :
    e'.drivers = j.hub ::ₘ e.drivers := by
  simp only [drivers, hj, ht, map_append, map_cons, map_nil, ← Multiset.coe_add,
    Multiset.coe_singleton, ← Multiset.singleton_add]
  ac_rfl

lemma Keyed.append (hk : e.Keyed) (hn : ∀ p ∈ e.jobs, p.1 < id)
    (hj : e'.jobs = e.jobs ++ [(id, j)]) : e'.Keyed := by
  rw [Keyed, hj]
  exact nodup_append_new hk hn

lemma InOrder.addJob (o : InOrder Q X S K (.drive j.hub :: M) e) {table : JobTable}
    (ht : ∀ t ∈ table.entries, (∃ t' ∈ e.table.entries, t'.1 = t.1) ∨ j.tableId = some t.1) :
    let e' := { e with nextJob := e.nextJob + 1, table, jobs := e.jobs ++ [(e.nextJob, j)] }
    InOrder Q (e.nextJob :: X) S K M e' ∧ e'.weight = e.weight + {low 6} ∧
      e'.job? e.nextJob = some j := by
  intro e'
  obtain ⟨birth, clock, hbal, hq⟩ := o.books
  have hkeyed : e'.Keyed := o.keyed.append o.numbered rfl
  refine ⟨{ o with
    books := ⟨birth, clock, ?_, hq⟩
    keyed := hkeyed
    numbered := lt_of_mem_append_new o.numbered
    due := fun p hp hn => ?_
    listed := fun t htm => ?_
    owner := fun i hi => ?_ }, ?_, hkeyed.mem_iff.mp (by simp [e'])⟩
  · have hdrivers : e'.drivers = j.hub ::ₘ e.drivers := drivers_append rfl rfl
    rw [hdrivers]
    exact Balanced.drive_iff.mp hbal
  · rcases mem_append.mp hp with hp | hp
    · refine (o.due p hp fun h => hn (mem_cons_of_mem _ h)).mono (fun _ h _ => h) ?_
      rintro f ⟨hlt, k, hk, hout⟩
      exact ⟨hlt, k, mem_append_left _ hk, hout⟩
    · rw [mem_singleton.mp hp] at hn
      simp at hn
  · rcases ht t htm with ⟨t', ht', he⟩ | he
    · obtain ⟨p, hp, hpt⟩ := o.listed t' ht'
      exact ⟨p, mem_append_left _ hp, he ▸ hpt⟩
    · exact ⟨(e.nextJob, j), by simp [e'], he⟩
  · simp [e', o.owner i hi]
  · simp only [weight, e', length_append, length_singleton, Multiset.replicate_succ,
      ← Multiset.singleton_add]
    ac_rfl

/-! ### Making jobs -/

/-- A job that has not been started, under a hub. -/
structure Unstarted (e : Engine) (c : HubId) (id : JobId) (j : Job) : Prop where
  job : e.job? id = some j
  hub : e.Bare j.hub (some c)
  chain : ∀ ch, j.body = .chain ch → ch.queued = false
  native : ∀ n, j.body = .native n → n.processes = [] ∧ n.openStreams = 0 ∧ n.failed = false

lemma entries_enter (t : JobTable) (job : JobId) (listed : Listing) :
    ∀ u ∈ (enter t job listed).2.entries,
      (∃ u' ∈ t.entries, u'.1 = u.1) ∨ (enter t job listed).1 = some u.1 := by
  intro u hu
  rcases listed with _ | ⟨foreground, title⟩
  · exact .inl ⟨u, hu, rfl⟩
  · rcases mem_cons.mp ((JobTable.perm_insertEntry _ _).mem_iff.mp hu) with h | h
    · exact .inr (by rw [h]; rfl)
    · exact .inl ⟨u, h, rfl⟩

lemma createJob_eq (e : Engine) (kind : JobKind) (commands : List Command) (store : StoreId)
    (sink : Sink) (listed : Listing) :
    e.createJob kind commands c store sink listed = (e.nextJob,
      { (e.createHub (some c)).2 with
        nextJob := e.nextJob + 1
        table := (enter e.table e.nextJob listed).2
        jobs := e.jobs ++
          [(e.nextJob, e.newJob kind commands (e.createHub (some c)).1 store sink listed)] }) := by
  rfl

lemma job?_append {js : List (JobId × Job)} (h : e.job? id = some j) (hj : e'.jobs = e.jobs ++ js) :
    e'.job? id = some j := by
  rw [job?] at h ⊢
  rw [hj, lookup_append, h, Option.some_or]

lemma InOrder.createJob (o : InOrder (Young c M) X S K (.drive c :: M) e) (kind : JobKind)
    (commands : List Command) (store : StoreId) (sink : Sink) (listed : Listing) :
    ∃ e' j, e.createJob kind commands c store sink listed = (e.nextJob, e') ∧
      InOrder (Young c M) (e.nextJob :: X) S K (.drive c :: M) e' ∧ Grows e e' ∧
      e'.Unstarted c e.nextJob j ∧ j.stdout = sink ∧ e'.nextJob = e.nextJob + 1 ∧
      (∀ id j, e.Unstarted c id j → e'.Unstarted c id j) ∧
      (∀ b q, e.Bare b q → e'.Bare b q) ∧ e'.system = e.system := by
  obtain ⟨o1, hw, hbare, hkeep⟩ := o.createHub (some c)
    (fun p hp => by cases hp; exact mem_cons_self) (Young c M)
    fun _ _ hy hsame _ => o.solvent.young_congr hy hsame
  set hub := (e.createHub (some c)).1 with hhub
  obtain ⟨o2, hw2, hjob⟩ := o1.addJob (j := e.newJob kind commands hub store sink listed)
    (entries_enter e.table e.nextJob listed)
  refine ⟨_, e.newJob kind commands hub store sink listed,
    createJob_eq e kind commands store sink listed,
    o2, ?_, ⟨hjob, hbare, ?_, ?_⟩, rfl, rfl, fun id j hu => ⟨?_, ?_, hu.chain, hu.native⟩, ?_, rfl⟩
  · exact ⟨{low 3} + {low 6}, by rw [← add_assoc, ← hw]; exact hw2, by simp⟩
  · intro ch hch
    cases kind <;> cases hch
    rfl
  · intro n hn
    cases kind <;> cases hn
    exact ⟨rfl, rfl, rfl⟩
  · exact job?_append hu.job rfl
  · exact (hkeep _ _ hu.hub).2
  · exact fun b q hb => (hkeep b q hb).2

/-- A job that has not been connected to another. -/
def Loose (e : Engine) (c : HubId) (id : JobId) : Prop :=
  ∃ j, e.Unstarted c id j ∧ ∀ next, j.stdout ≠ .forward next

lemma InOrder.createSegments (o : InOrder (Young c M) X S K (.drive c :: M) e) (ctx : Context)
    (title : String) (groups : Groups) :
    ∃ js e', e.createSegments c ctx title groups = (js, e') ∧
      InOrder (Young c M) (js ++ X) S K (.drive c :: M) e' ∧ Grows e e' ∧
      js.length = groups.length ∧ js.Pairwise (· < ·) ∧
      (∀ id ∈ js, e.nextJob ≤ id ∧ e'.Loose c id) ∧
      (∀ id j, e.Unstarted c id j → e'.Unstarted c id j) ∧
      (∀ b q, e.Bare b q → e'.Bare b q) ∧ e'.system = e.system := by
  induction groups generalizing e X with
  | nil =>
    exact ⟨[], e, rfl, o, (Similar.refl e).grows, rfl, .nil, by simp, fun _ _ h => h,
      fun _ _ h => h, rfl⟩
  | cons g groups ih =>
    obtain ⟨kind, commands⟩ := g
    obtain ⟨e1, j, he1, o1, hg1, hu, hsink, hnext, hkeep1, hbare1, hsys1⟩ :=
      o.createJob kind commands ctx.store ctx.route.sink
        (if groups.isEmpty then ctx.route.listed?.map (·, title) else none)
    obtain ⟨js, e2, he2, o2, hg2, hlen, hsorted, hjs, hkeep2, hbare2, hsys2⟩ := ih o1
    have hlt : ∀ id ∈ js, e.nextJob < id := by
      intro id hid
      have hle := (hjs id hid).1
      rw [hnext] at hle
      exact hle
    refine ⟨e.nextJob :: js, e2, ?_, o2.mono ?_, hg1.trans hg2, by simp [hlen],
      pairwise_cons.mpr ⟨?_, hsorted⟩, ?_, fun id j h => hkeep2 id j (hkeep1 id j h),
      fun b q h => hbare2 b q (hbare1 b q h), hsys2.trans hsys1⟩
    · simp only [createSegments, he1, he2]
    · intro x hx
      simp only [mem_append, mem_cons, cons_append] at hx ⊢
      tauto
    · exact hlt
    · intro id hid
      rcases mem_cons.mp hid with rfl | hid
      · refine ⟨le_rfl, j, hkeep2 _ j hu, fun next hf => ?_⟩
        rw [hsink] at hf
        cases hr : ctx.route <;> rw [hr] at hf <;> cases hf
      · exact ⟨(hlt id hid).le, (hjs id hid).2⟩

/-! ### Connecting jobs -/

lemma Unstarted.setJob_ne (hu : e.Unstarted c id j) {i : JobId} {k : Job} (hi : id ≠ i) :
    (e.setJob i k).Unstarted c id j :=
  ⟨by rw [job?_setJob, if_neg hi, hu.job], hu.hub, hu.chain, hu.native⟩

lemma Unstarted.setJob (hu : e.Unstarted c id j) (hhub : j'.hub = j.hub) (hb : j'.body = j.body) :
    (e.setJob id j').Unstarted c id j' :=
  ⟨job?_setJob_self e id hu.job j', by rw [hhub]; exact hu.hub, fun ch h => hu.chain ch (hb ▸ h),
    fun n h => hu.native n (hb ▸ h)⟩

lemma InOrder.connect {a b : JobId} (o : InOrder Q X S K M e) (ha : e.Loose c a)
    (hb : e.Loose c b) (haX : a ∈ X) (hab : a < b) :
    InOrder Q X S K M (e.connect a b) ∧ (e.connect a b).weight = e.weight ∧
      (e.connect a b).Feeds a b ∧ (∀ f i, e.Feeds f i → (e.connect a b).Feeds f i) ∧
      (∃ j, (e.connect a b).Unstarted c a j) ∧
      (∀ id, id ≠ a → e.Loose c id → (e.connect a b).Loose c id) ∧
      (∀ id j, id ≠ a → id ≠ b → e.Unstarted c id j → (e.connect a b).Unstarted c id j) ∧
      (e.connect a b).hubs = e.hubs ∧ (e.connect a b).system = e.system := by
  obtain ⟨ja, hua, hloose⟩ := ha
  obtain ⟨jb, hub, hloose'⟩ := hb
  have hne : b ≠ a := (Nat.ne_of_lt hab).symm
  have hforward : ∀ next, ja.stdout = .forward next →
      ({ ja with stdout := .forward b } : Job).stdout = .forward next :=
    fun next h => absurd h (hloose next)
  obtain ⟨o1, hw1⟩ := o.setJob hua.job haX { ja with stdout := .forward b } rfl rfl hforward
  set e1 := e.setJob a { ja with stdout := .forward b } with he1
  have hub1 : e1.Unstarted c b jb := hub.setJob_ne hne
  have hsim : Similar e1 (e1.setJob b { jb with feeder := some a }) :=
    similar_setJob o1.keyed hub1.job ⟨rfl, rfl, rfl, fun _ => Iff.rfl, .refl _⟩
  have heq : e.connect a b = e1.setJob b { jb with feeder := some a } := by
    simp only [Engine.connect, hua.job, ← he1, hub1.job]
  have hua1 : e1.Unstarted c a { ja with stdout := .forward b } := hua.setJob rfl rfl
  rw [heq]
  refine ⟨o1.similar hsim, hsim.weight.trans hw1, ?_, fun f i h => ?_, ?_, fun id hid hl => ?_,
    fun id j hid hid' hu => ?_, rfl, rfl⟩
  · exact hsim.feeds ⟨hab, _, o1.keyed.mem_iff.mpr hua1.job, rfl⟩
  · exact hsim.feeds (feeds_setJob o.keyed hua.job _ hforward h)
  · exact ⟨_, hua1.setJob_ne hne.symm⟩
  · obtain ⟨j, hu, hj⟩ := hl
    by_cases hib : id = b
    · subst hib
      cases hu.job.symm.trans hub.job
      exact ⟨_, hub1.setJob rfl rfl, hj⟩
    · exact ⟨j, (hu.setJob_ne hid).setJob_ne hib, hj⟩
  · exact (hu.setJob_ne hid).setJob_ne hid'

lemma InOrder.connectAll (o : InOrder Q X S K M e) (hs : js.Pairwise (· < ·))
    (hX : ∀ id ∈ js, id ∈ X) (hl : ∀ id ∈ js, e.Loose c id) :
    InOrder Q X S K M (e.connectAll js) ∧ (e.connectAll js).weight = e.weight ∧
      js.IsChain (e.connectAll js).Feeds ∧ (∀ id ∈ js, ∃ j, (e.connectAll js).Unstarted c id j) ∧
      (∀ f i, e.Feeds f i → (e.connectAll js).Feeds f i) ∧
      (∀ id j, id ∉ js → e.Unstarted c id j → (e.connectAll js).Unstarted c id j) ∧
      (e.connectAll js).hubs = e.hubs ∧ (e.connectAll js).system = e.system := by
  induction js generalizing e with
  | nil => exact ⟨o, rfl, .nil, by simp, fun _ _ h => h, fun _ _ _ h => h, rfl, rfl⟩
  | cons a js ih =>
    cases js with
    | nil =>
      obtain ⟨j, hu, -⟩ := hl a (by simp)
      refine ⟨o, rfl, .singleton a, ?_, fun _ _ h => h, fun _ _ _ h => h, rfl, rfl⟩
      intro id hid
      rw [mem_singleton.mp hid]
      exact ⟨j, hu⟩
    | cons b js =>
      obtain ⟨hlt, hs'⟩ := pairwise_cons.mp hs
      obtain ⟨o1, hw1, hfeeds, hkeep1, hua, hloose, hu1, hh1, hsys1⟩ :=
        o.connect (hl a (by simp)) (hl b (by simp)) (hX a (by simp)) (hlt b (by simp))
      have hne : ∀ id ∈ b :: js, id ≠ a := fun id hid => (Nat.ne_of_lt (hlt id hid)).symm
      obtain ⟨o2, hw2, hchain, hu2, hkeep2, hother, hh2, hsys2⟩ := ih o1 hs'
        (fun id hid => hX id (mem_cons_of_mem _ hid))
        fun id hid => hloose id (hne id hid) (hl id (mem_cons_of_mem _ hid))
      refine ⟨o2, hw2.trans hw1, .cons_cons (hkeep2 _ _ hfeeds) hchain, ?_,
        fun f i h => hkeep2 f i (hkeep1 f i h), ?_, hh2.trans hh1, hsys2.trans hsys1⟩
      · intro id hid
        rcases mem_cons.mp hid with rfl | hid
        · obtain ⟨j, hu⟩ := hua
          exact ⟨j, hother id j (fun h => hne id h rfl) hu⟩
        · exact hu2 id hid
      · intro id j hid hu
        simp only [mem_cons, not_or] at hid
        exact hother id j (by simp [hid]) (hu1 id j hid.1 hid.2.1 hu)

/-! ### Starting jobs -/

lemma Unstarted.similar (hu : e.Unstarted c id j) (hk : e.Keyed) (hs : Similar e e') :
    ∃ j', e'.Unstarted c id j' := by
  obtain ⟨⟨i, j'⟩, hm, rfl, hsim⟩ := hs.jobs.of_mem (hk.mem_iff.mpr hu.job)
  have hbody := hsim.body
  have hbare : e'.Bare j'.hub (some c) := by
    rw [Bare, hs.hubs, hsim.hub]
    exact hu.hub
  refine ⟨j', (hk.similar hs).mem_iff.mp hm, hbare, fun ch hch => ?_, fun n hn => ?_⟩
  · rcases hb : j.body with ch' | n' <;> rw [hch, hb] at hbody
    · cases hbody with
      | chain _ hqueued => exact hqueued.trans (hu.chain ch' hb)
    · cases hbody
  · rcases hb : j.body with ch' | n' <;> rw [hn, hb] at hbody
    · cases hbody
    · cases hbody with
      | native hp ho hf =>
        obtain ⟨hp', ho', hf'⟩ := hu.native n' hb
        exact ⟨hp.trans hp', ho.trans ho', hf.trans hf'⟩

/-- What stays when some jobs are changed. -/
structure Beside (Y : List JobId) (e e' : Engine) : Prop where
  hubs : e'.hubs = e.hubs
  feeds : ∀ {f i : JobId}, e.Feeds f i → e'.Feeds f i
  unstarted : ∀ {c : HubId} {i : JobId} {j : Job}, i ∉ Y → e.Unstarted c i j →
    ∃ j', e'.Unstarted c i j'
  place : ∀ {i : JobId} {j : Job}, e.job? i = some j → ∃ j', e'.job? i = some j' ∧ j'.hub = j.hub

lemma Beside.trans {Y Y' : List JobId} (h1 : Beside Y e e') (h2 : Beside Y' e' e'') :
    Beside (Y ++ Y') e e'' where
  hubs := h2.hubs.trans h1.hubs
  feeds := fun h => h2.feeds (h1.feeds h)
  unstarted := by
    intro c i j hi hu
    obtain ⟨j', hu'⟩ := h1.unstarted (fun h => hi (mem_append_left _ h)) hu
    exact h2.unstarted (fun h => hi (mem_append_right _ h)) hu'
  place := by
    intro i j hj
    obtain ⟨j', hj', hh'⟩ := h1.place hj
    obtain ⟨j'', hj'', hh''⟩ := h2.place hj'
    exact ⟨j'', hj'', hh''.trans hh'⟩

lemma Similar.beside (hs : Similar e e') (hk : e.Keyed) : Beside [] e e' where
  hubs := hs.hubs
  feeds := hs.feeds
  unstarted := fun _ hu => hu.similar hk hs
  place := by
    intro i j hj
    obtain ⟨⟨i', j'⟩, hm, rfl, hsim⟩ := hs.jobs.of_mem (hk.mem_iff.mpr hj)
    exact ⟨j', (hk.similar hs).mem_iff.mp hm, hsim.hub⟩

lemma beside_setJob (hk : e.Keyed) (hj : e.job? id = some j) (k : Job) (hhub : k.hub = j.hub)
    (hf : ∀ next, j.stdout = .forward next → k.stdout = .forward next) :
    Beside [id] e (e.setJob id k) where
  hubs := rfl
  feeds := feeds_setJob hk hj k hf
  unstarted := fun hi hu => ⟨_, hu.setJob_ne (by simpa using hi)⟩
  place := by
    intro i k' hk'
    rw [job?_setJob]
    split
    · rename_i hi
      subst hi
      rw [hj] at hk' ⊢
      cases hk'
      exact ⟨k, rfl, hhub⟩
    · exact ⟨k', hk', rfl⟩

lemma beside_of_jobs (hh : e'.hubs = e.hubs) (hj : e'.jobs = e.jobs) : Beside [] e e' := by
  have hjob : ∀ i, e'.job? i = e.job? i := fun i => by rw [job?, job?, hj]
  refine ⟨hh, ?_, fun _ hu => ?_, fun h => ?_⟩
  · rintro f n ⟨hlt, k, hk, hout⟩
    exact ⟨hlt, k, hj ▸ hk, hout⟩
  · refine ⟨_, (hjob _).trans hu.job, ?_, hu.chain, hu.native⟩
    rw [Bare, hh]
    exact hu.hub
  · exact ⟨_, (hjob _).trans h, rfl⟩

lemma similar_readied (h : e.job? id = some j) (mode : Mode) : Similar e (e.readied id j mode) := by
  have htable : ∀ e : Engine, Similar e
      { e with table := j.tableId.elim e.table fun n => (e.table.update n .running none).2 } := by
    intro e
    refine similar_table e ?_
    rcases j.tableId with _ | n
    · exact fun t ht => ⟨t, ht, rfl⟩
    · exact entries_update e.table n .running none
  unfold readied
  dsimp only
  split
  · exact (similar_takeTerminal h j.tableId).trans (htable _)
  · exact htable e

lemma readied_eq (e : Engine) (id : JobId) (j : Job) (mode : Mode) :
    (e.readied id j mode).jobs = e.jobs ∧ (e.readied id j mode).system = e.system := by
  unfold readied
  dsimp only
  split <;> exact ⟨rfl, rfl⟩

lemma job?_readied {id : JobId} {j : Job} (hj : e.job? id = some j) (mode : Mode) :
    (e.readied id j mode).job? id = some j := by
  rw [job?, (e.readied_eq id j mode).1]
  exact hj

lemma startJob_chain (h : e.job? id = some j) {ch : Chain} (hb : j.body = .chain ch) (mode : Mode)
    (taps : Taps) :
    (e.startJob id mode taps).2 =
      let e1 := (e.readied id j mode).setJob id (begun j mode (.chain (ch.start taps).2) j.live)
      if (ch.start taps).1 then e1.defer (.runChain id) else e1 := by
  simp only [startJob, h, hb]

/-- A job of processes that is started: it has processes that may report, or fails later on. -/
lemma startJob_native (h : e.job? id = some j) {n n' : Native} (hb : j.body = .native n)
    (mode : Mode) {taps : Taps} {d : Option String} {s : System}
    (hs : n.start id taps e.system = (d, n', s)) :
    (e.startJob id mode taps).2 =
      let e1 := ({ e.readied id j mode with system := s } : Engine).setJob id
        (begun j mode (.native n') !n'.processes.isEmpty)
      let e2 :=
        if !n'.processes.isEmpty then { e1 with live := e1.live + 1 } else e1.defer (.fail id)
      e2.complain id d := by
  simp only [startJob, h, hb, (e.readied_eq id j mode).2, hs]

lemma keyed_setJob (hk : e.Keyed) (hj : e.job? id = some j) (k : Job) : (e.setJob id k).Keyed := by
  obtain ⟨l1, l2, hl, -, hset, -⟩ := hk.split hj
  rw [Keyed, hset]
  rw [Keyed, hl] at hk
  simpa using hk

lemma nextPid_startJob_native (hk : e.Keyed) (hj : e.job? id = some j) {n n' : Native}
    (hb : j.body = .native n) (mode : Mode) {taps : Taps} {d : Option String} {s : System}
    (hs : n.start id taps e.system = (d, n', s)) :
    (e.startJob id mode taps).2.system.nextPid = s.nextPid := by
  have hreadied := hk.similar (similar_readied hj mode)
  have hjob := job?_readied hj mode
  have hkeyed : ∀ k, (({ e.readied id j mode with system := s } : Engine).setJob id k).Keyed :=
    fun k => keyed_setJob (e := { e.readied id j mode with system := s }) hreadied hjob k
  have hlast : ∀ e2 : Engine, e2.Keyed → e2.system = s →
      (e2.complain id d).system.nextPid = s.nextPid :=
    fun e2 hk2 hs2 => (audible_similar.complain e2 id d hk2).nextPid.trans (by rw [hs2])
  rw [startJob_native hj hb mode hs]
  dsimp only
  split <;> exact hlast _ (hkeyed _) rfl

/-- Starting a job leaves the others alone, and gives no number of a process back. -/
lemma Unstarted.beside_startJob (hu : e.Unstarted c id j) (hk : e.Keyed) (mode : Mode)
    (taps : Taps) :
    Beside [id] e (e.startJob id mode taps).2 ∧ (e.startJob id mode taps).2.Keyed ∧
      e.system.nextPid ≤ (e.startJob id mode taps).2.system.nextPid := by
  obtain ⟨hjobs, hsys⟩ := e.readied_eq id j mode
  have hs := similar_readied hu.job mode
  have hready : Beside [] e (e.readied id j mode) := beside_of_jobs hs.hubs hjobs
  have hjob := job?_readied hu.job mode
  rcases hb : j.body with ch | n
  · rw [startJob_chain hu.job hb]
    set k := begun j mode (.chain (ch.start taps).2) j.live with hk'
    have hset := hready.trans (beside_setJob (hk.similar hs) hjob k rfl fun _ h => h)
    have hkeyed := keyed_setJob (hk.similar hs) hjob k
    have hle : e.system.nextPid ≤ (e.readied id j mode).system.nextPid := by rw [hsys]
    dsimp only
    split
    · exact ⟨hset.trans (beside_of_jobs rfl rfl), hkeyed, hle⟩
    · exact ⟨hset, hkeyed, hle⟩
  · rcases hstart : n.start id taps e.system with ⟨d, n', s⟩
    obtain ⟨hp, ho, hf⟩ := hu.native n hb
    have hle : e.system.nextPid ≤ (e.startJob id mode taps).2.system.nextPid := by
      rw [nextPid_startJob_native hk hu.job hb mode hstart,
        Native.nextPid_start id taps hstart hp ho hf]
      exact Nat.le_add_right _ _
    refine and_assoc.mp ⟨?_, hle⟩
    rw [startJob_native hu.job hb mode hstart]
    set k := begun j mode (.native n') !n'.processes.isEmpty with hk'
    let e1 : Engine := { e.readied id j mode with system := s }
    have hkeyed : e1.Keyed := by
      rw [Keyed, hjobs]
      exact hk
    have hsys : Beside [] (e.readied id j mode) e1 := beside_of_jobs rfl rfl
    have hset : Beside [id] e (e1.setJob id k) :=
      (hready.trans hsys).trans (beside_setJob (e := e1) hkeyed hjob k rfl fun _ h => h)
    have hlast : ∀ e2 : Engine, e2.hubs = (e1.setJob id k).hubs → e2.jobs = (e1.setJob id k).jobs →
        Beside [id] e (e2.complain id d) ∧
          (e2.complain id d).Keyed := by
      intro e2 hh2 hj2
      have hk2 : e2.Keyed := by
        rw [Keyed, hj2]
        exact keyed_setJob (e := e1) hkeyed hjob k
      have hd := audible_similar.complain e2 id d hk2
      exact ⟨(hset.trans (beside_of_jobs hh2 hj2)).trans (hd.beside hk2), hk2.similar hd⟩
    dsimp only
    split <;> exact hlast _ rfl rfl

lemma InOrder.ensure {t : Task} (o : InOrder Q (id :: X) S K M e) (hj : e.job? id = some j)
    (ht : t.job? = some id) (hd : (e.defer t).Due id j) :
    InOrder Q X S K M (e.defer t) ∧ (e.defer t).weight = e.weight + {low 5} := by
  have hmarks : t.marks = [] := by cases t <;> first | rfl | cases ht
  have hflush : ∀ hub, t ≠ .flush hub := by
    rintro hub rfl
    cases ht
  have hweight : t.weight = {low 5} := by cases t <;> first | rfl | cases ht
  have o' : InOrder Q (id :: X) S K (t.marks ++ M) e := by
    rw [hmarks]
    exact o
  refine ⟨(o'.defer hflush).discharge fun k hk => ?_, ?_⟩
  · cases hj.symm.trans hk
    exact hd
  · rw [weight_defer, hweight]

lemma InOrder.startJob (o : InOrder Q (id :: X) S K M e) (hu : e.Unstarted c id j) (mode : Mode)
    (taps : Taps) (hfed : taps.stdin = true → ∃ f, e.Feeds f id)
    (hpid : (e.startJob id mode taps).2.system.nextPid = e.system.nextPid) :
    InOrder Q X S K M (e.startJob id mode taps).2 ∧ Grows e (e.startJob id mode taps).2 := by
  have hs := similar_readied hu.job mode
  have hjob := job?_readied hu.job mode
  rcases hb : j.body with ch | n
  · -- a chain that cannot run yet is fed by another job
    have hqueued := hu.chain ch hb
    rw [startJob_chain hu.job hb]
    set k := begun j mode (.chain (ch.start taps).2) j.live with hk
    obtain ⟨o1, hw1⟩ := (o.similar hs).setJob hjob (by simp) k rfl rfl fun _ h => h
    have hjob1 := job?_setJob_self (e.readied id j mode) id hjob k
    have hstarted : (ch.start taps).2.started = true := by
      simp only [Chain.start, Chain.ready]
      split <;> rfl
    dsimp only
    split
    · obtain ⟨o2, hw2⟩ := o1.ensure (t := .runChain id) hjob1 rfl
        ⟨hstarted, .inl (by simp [Engine.defer])⟩
      exact ⟨o2, {low 5}, by rw [hw2, hw1, hs.weight], by simp⟩
    · rename_i hready
      have hwait := Chain.start_waiting hqueued hready
      obtain ⟨f, hf⟩ := hfed hwait.1
      have hfeeds : ((e.readied id j mode).setJob id k).Feeds f id :=
        feeds_setJob (o.keyed.similar hs) hjob k (fun _ h => h) (hs.feeds hf)
      refine ⟨o1.discharge fun k' hk' => ?_, 0, ?_, by simp⟩
      · cases hjob1.symm.trans hk'
        exact ⟨hstarted, .inr ⟨hwait.2, f, hfeeds⟩⟩
      · rw [hw1, hs.weight, add_zero]
  · -- no process was started, so the job fails on a later turn
    obtain ⟨hp, ho, hf⟩ := hu.native n hb
    rcases hstart : n.start id taps e.system with ⟨d, n', s⟩
    have hsame := Native.nextPid_start id taps hstart hp ho hf
    rw [← nextPid_startJob_native o.keyed hu.job hb mode hstart, hpid] at hsame
    have hempty : n'.processes = [] := length_eq_zero_iff.mp (Nat.left_eq_add.mp hsame)
    have hsys : Similar (e.readied id j mode) { e.readied id j mode with system := s } := by
      refine similar_system _ ?_
      rw [(e.readied_eq id j mode).2, ← hpid, nextPid_startJob_native o.keyed hu.job hb mode hstart]
    rw [startJob_native hu.job hb mode hstart]
    set k := begun j mode (.native n') !n'.processes.isEmpty with hk
    obtain ⟨o1, hw1⟩ := (o.similar (hs.trans hsys)).setJob hjob (by simp) k rfl rfl fun _ h => h
    have hjob1 := job?_setJob_self { e.readied id j mode with system := s } id hjob k
    obtain ⟨o2, hw2⟩ := o1.ensure (t := .fail id) hjob1 rfl (by simp [Due, hk, begun, Engine.defer])
    simp only [hempty, isEmpty_nil, Bool.not_true, Bool.false_eq_true, if_false] at o2 hw2 ⊢
    have hsim := audible_similar.complain _ id d o2.keyed
    refine ⟨o2.similar hsim, {low 5}, ?_, by simp⟩
    rw [hsim.weight, hw2, hw1, (hs.trans hsys).weight]

lemma beside_startSegments (hk : e.Keyed) (hs : js.Nodup)
    (hu : ∀ id ∈ js, ∃ j, e.Unstarted c id j) (route : Route) (fed : Bool) :
    Beside js e (e.startSegments route fed js).2 ∧ (e.startSegments route fed js).2.Keyed ∧
      e.system.nextPid ≤ (e.startSegments route fed js).2.system.nextPid := by
  induction js generalizing fed with
  | nil => exact ⟨beside_of_jobs rfl rfl, hk, le_rfl⟩
  | cons id js ih =>
    obtain ⟨j, huj⟩ := hu id (by simp)
    cases js with
    | nil => exact huj.beside_startJob hk _ _
    | cons next js =>
      obtain ⟨hid, hs'⟩ := nodup_cons.mp hs
      obtain ⟨hb1, hk1, hle1⟩ := ih hs' (fun i hi => hu i (mem_cons_of_mem _ hi)) true
      obtain ⟨j', huj'⟩ := hb1.unstarted hid huj
      obtain ⟨hb2, hk2, hle2⟩ := huj'.beside_startJob hk1 .background
        { stdin := fed, stdout := true,
          stderr :=
            (route.taps (e.startSegments route true (next :: js)).2.config.inheritTerminal).stderr }
      refine ⟨?_, hk2, hle1.trans hle2⟩
      have hb := hb1.trans hb2
      refine ⟨hb.hubs, hb.feeds, fun hi => hb.unstarted ?_, hb.place⟩
      simp only [mem_append, mem_cons, not_mem_nil, or_false, not_or] at hi ⊢
      tauto

/-- The jobs of a pipeline are started from the last one on; all of them are sure to end. -/
lemma InOrder.startSegments (o : InOrder Q (js ++ X) S K M e) (hs : js.Nodup)
    (hu : ∀ id ∈ js, ∃ j, e.Unstarted c id j) (hc : js.IsChain e.Feeds) (route : Route) (fed : Bool)
    (hfed : fed = true → ∀ id ∈ js.head?, ∃ f, e.Feeds f id)
    (hpid : (e.startSegments route fed js).2.system.nextPid = e.system.nextPid) :
    InOrder Q X S K M (e.startSegments route fed js).2 ∧
      Grows e (e.startSegments route fed js).2 := by
  induction js generalizing X fed with
  | nil => exact ⟨o, (Similar.refl e).grows⟩
  | cons id js ih =>
    obtain ⟨j, huj⟩ := hu id (by simp)
    cases js with
    | nil => exact o.startJob huj route.mode _ (fun h => hfed h id (by simp)) hpid
    | cons next js =>
      obtain ⟨hid, hs'⟩ := nodup_cons.mp hs
      obtain ⟨hfeeds, hc'⟩ := isChain_cons_cons.mp hc
      have hu' : ∀ i ∈ next :: js, ∃ j, e.Unstarted c i j :=
        fun i hi => hu i (mem_cons_of_mem _ hi)
      obtain ⟨hb1, hk1, hle1⟩ := beside_startSegments o.keyed hs' hu' route true
      obtain ⟨j', huj'⟩ := hb1.unstarted hid huj
      set taps : Taps := { stdin := fed, stdout := true, stderr :=
        (route.taps (e.startSegments route true (next :: js)).2.config.inheritTerminal).stderr }
      have hle2 := (huj'.beside_startJob hk1 .background taps).2.2
      have hpid1 : (e.startSegments route true (next :: js)).2.system.nextPid = e.system.nextPid :=
        le_antisymm (hle2.trans_eq hpid) hle1
      obtain ⟨o1, hg1⟩ := ih (X := id :: X) (o.mono (by simp; tauto)) hs' hu' hc' true
        (fun _ i hi => ⟨id, by cases hi; exact hfeeds⟩) hpid1
      obtain ⟨o2, hg2⟩ := o1.startJob huj' .background taps
        (fun h => (hfed h id (by simp)).imp fun f hf => hb1.feeds hf) (hpid.trans hpid1.symm)
      exact ⟨o2, hg1.trans hg2⟩

/-! ### Pipelines -/

/-- The jobs of a pipeline are sure to end; its hub waits for them and is still to be sealed. -/
lemma InOrder.launch (o : InOrder (Young c M) [] S K (.drive c :: M) e)
    (hq : e.Bare c q) {commands : List Command} (hne : commands ≠ []) (ctx : Context)
    (hpid : (e.launchJobs c commands ctx).2.2.system.nextPid = e.system.nextPid) :
    InOrder (Young c M) [] S K (.drive c :: M) (e.launchJobs c commands ctx).2.2 ∧
      Grows e (e.launchJobs c commands ctx).2.2 ∧ (e.launchJobs c commands ctx).2.2.Bare c q ∧
      ∃ j, (e.launchJobs c commands ctx).1.getLast?.bind (e.launchJobs c commands ctx).2.2.job? =
        some j ∧ (e.launchJobs c commands ctx).2.2.Bare j.hub (some c) := by
  obtain ⟨js, e1, he1, o1, hg1, hlen, hsorted, hjs, -, hbare1, hsys1⟩ :=
    o.createSegments ctx (Command.pipeLine commands) (e.services.partition commands)
  simp only [launchJobs, he1] at hpid ⊢
  obtain ⟨o2, hw2, hchain, hu2, -, -, hh2, hsys2⟩ :=
    o1.connectAll hsorted (by simp) fun id hid => (hjs id hid).2
  have hnd : js.Nodup := hsorted.imp Nat.ne_of_lt
  obtain ⟨hb3, -, -⟩ := beside_startSegments o2.keyed hnd hu2 ctx.route false
  obtain ⟨o3, hg3⟩ := o2.startSegments hnd hu2 hchain ctx.route false (by simp)
    (by rw [hpid, hsys2, hsys1])
  have hbare : ∀ b p, (e1.connectAll js).Bare b p →
      ((e1.connectAll js).startSegments ctx.route false js).2.Bare b p := by
    intro b p h
    rw [Bare, hb3.hubs]
    exact h
  refine ⟨o3, hg1.trans (Grows.trans ⟨0, by rw [hw2, add_zero], by simp⟩ hg3), hbare c q ?_, ?_⟩
  · rw [Bare, hh2]
    exact hbare1 c q hq
  · have hjne : js ≠ [] := by
      rintro rfl
      exact e.services.partition_ne_nil hne (length_eq_zero_iff.mp hlen.symm)
    obtain ⟨j, hu⟩ := hu2 _ (getLast_mem hjne)
    obtain ⟨j', hj', hhub⟩ := hb3.place hu.job
    refine ⟨j', by rw [getLast?_eq_some_getLast hjne]; exact hj', ?_⟩
    rw [hhub]
    exact hbare _ _ hu.hub

lemma system_subscribe {cb : Callback} (h : e.subscribe c cb = .ok e') : e'.system = e.system := by
  unfold subscribe at h
  split at h
  · cases h
  · cases h
    split <;> rfl

/-- A hub with a child is sealed by whoever drives it, and stays as it is otherwise. -/
lemma InOrder.sealPending (o : InOrder Q X S K (.drive c :: M) e) {b : HubId}
    (hb : e.Bare b (some c)) (hc : e.Bare c q) :
    (e.hubs.sealOff c).2 = [] ∧ InOrder Q X S K M { e with hubs := (e.hubs.sealOff c).1 } ∧
      ({ e with hubs := (e.hubs.sealOff c).1 } : Engine).weight = e.weight ∧
      ({ e with hubs := (e.hubs.sealOff c).1 } : Engine).Bare c q := by
  obtain ⟨h, hh, hn, -, hp⟩ := hb
  obtain ⟨hd, b, ⟨k, hk, hk'⟩, hforks, hweight⟩ := o.solvent.sealPending hh hn hp
  refine ⟨hd, o.rehub b (by rw [hforks]), ?_, ?_⟩
  · exact (weight_hubs e (A := 0) (by rw [hweight, add_zero])).trans (add_zero _)
  · obtain ⟨k', hk1, hrest⟩ := bare_iff.mp hc
    cases hk.symm.trans hk1
    exact bare_iff.mpr ⟨_, hk', hrest⟩

lemma oversee_cases (e : Engine) (hub : HubId) (jobs : List JobId) (launched negated : Bool) :
    (e.oversee hub jobs launched negated).2 = { e with hubs := (e.hubs.sealOff hub).1 } ∨
      ∃ j : Job, e.subscribe j.hub (.negate hub) =
        .ok (e.oversee hub jobs launched negated).2 := by
  unfold oversee
  dsimp only
  split
  · rename_i e' hw
    split at hw
    · obtain ⟨j, -, hsub⟩ := Option.bind_eq_some_iff.mp hw
      refine .inr ⟨j, ?_⟩
      rcases hs : e.subscribe j.hub (.negate hub) with f | e'' <;> rw [hs] at hsub <;> cases hsub
      rfl
    · cases hw
  · exact .inl rfl

lemma system_oversee (e : Engine) (hub : HubId) (jobs : List JobId) (launched negated : Bool) :
    (e.oversee hub jobs launched negated).2.system = e.system := by
  rcases e.oversee_cases hub jobs launched negated with he | ⟨j, hs⟩
  · rw [he]
  · exact system_subscribe hs

lemma InOrder.oversee (o : InOrder Q [] S K (.drive c :: M) e) (hc : e.Bare c q)
    {jobs : List JobId} (hj : jobs.getLast?.bind e.job? = some j) (hb : e.Bare j.hub (some c))
    (launched negated : Bool) :
    ∃ e', e.oversee c jobs launched negated = (⟨c, launched, []⟩, e') ∧ InOrder Q [] S K M e' ∧
      Grows e e' ∧ e'.Bare c q := by
  cases negated with
  | false =>
    obtain ⟨hd, o', hw, hc'⟩ := o.sealPending hb hc
    exact ⟨_, by simp [Engine.oversee, hd], o', ⟨0, by rw [hw, add_zero], by simp⟩, hc'⟩
  | true =>
    have hne : c ≠ j.hub := by
      intro he
      obtain ⟨birth, clock, hbal, -⟩ := o.books
      obtain ⟨h, hh, hn, -, hp⟩ := hb
      have hlt := (hbal.aged _ hh).parent hn c hp
      rw [← he] at hlt
      exact hlt.ne rfl
    have o' : InOrder Q [] ((Callback.negate c).forks + S) K (.drive c :: M) e := by
      rw [show (Callback.negate c).forks = 0 from rfl, zero_add]
      exact o
    obtain ⟨e', hsub, o'', hw, hkeep⟩ := o'.subscribe (.negate c) hb rfl
    refine ⟨e', ?_, o'', ⟨{low 2}, hw, by simp⟩, hkeep c q hne hc⟩
    simp [Engine.oversee, hj, hsub, Except.toOption]

lemma startPipeline_eq (e : Engine) (commands : List Command) (ctx : Context)
    (parent : Option HubId) (negated : Bool) :
    e.startPipeline commands ctx parent negated =
      if (commands.filter (!·.assignmentOnly)).isEmpty then
        (⟨(e.createHub parent).1, true, []⟩,
          (e.createHub parent).2.defer (.complete (e.createHub parent).1 0))
      else
        let p := (e.createHub parent).2.launchJobs (e.createHub parent).1
          (commands.filter (!·.assignmentOnly)) ctx
        p.2.2.oversee (e.createHub parent).1 p.1 p.2.1 negated := rfl

/-- A pipeline that was started is sure to end, and so its hub to complete. -/
lemma InOrder.startPipeline (o : InOrder (fun _ => True) [] S K M e) (commands : List Command)
    (ctx : Context) (parent : Option HubId) (negated : Bool)
    (hp : ∀ p, parent = some p → .drive p ∈ M)
    (hpid : (e.startPipeline commands ctx parent negated).2.system.nextPid = e.system.nextPid) :
    ∃ hub launched e', e.startPipeline commands ctx parent negated = (⟨hub, launched, []⟩, e') ∧
      InOrder (Young hub M) [] S K M e' ∧ Grows e e' ∧ e'.Bare hub parent := by
  obtain ⟨o1, hw1, hb1, -⟩ := o.createHub parent hp
    (Young (e.createHub parent).1 M) fun _ _ _ _ hy => hy
  have hsys1 : (e.createHub parent).2.system = e.system := rfl
  rw [startPipeline_eq] at hpid ⊢
  generalize e.createHub parent = p at o1 hw1 hb1 hsys1 hpid ⊢
  obtain ⟨hub, e1⟩ := p
  dsimp only at o1 hw1 hb1 hsys1 hpid ⊢
  generalize commands.filter (!·.assignmentOnly) = cs at hpid ⊢
  have hgrow1 : Grows e e1 := ⟨{low 3}, hw1, by simp⟩
  by_cases hempty : cs = []
  · subst hempty
    refine ⟨hub, true, e1.defer (.complete hub 0), rfl, ?_, ?_, hb1⟩
    · exact .defer (t := .complete hub 0) o1 (by simp)
    · exact hgrow1.trans ⟨{low 4}, weight_defer _ _, by simp⟩
  · rw [if_neg (by simpa using hempty)] at hpid ⊢
    rw [system_oversee, ← hsys1] at hpid
    obtain ⟨o2, hg2, hb2, j, hj, hbj⟩ := o1.launch hb1 hempty ctx hpid
    obtain ⟨e', he', o3, hg3, hb3⟩ := o2.oversee hb2 hj hbj _ negated
    exact ⟨hub, _, e', he', o3, hgrow1.trans (hg2.trans hg3), hb3⟩

end Engine

end JobShell
