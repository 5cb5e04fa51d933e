import JobShell.Proofs.Engine.JobOrder

/-!
Jobs that end.

A job that ends tells its neighbours and the user, and leaves its hub to be completed. Whoever was
fed by it has all the input there will be, and so is sure to end in turn.
-/

namespace JobShell

open Accounts Rank List Option Chain

namespace Engine

variable {e e' : Engine} {Q : (HubId → ℕ) → Prop} {X : List JobId} {S : Multiset StoreId}
  {K : Multiset ℕ} {M : List Mark} {id next : JobId} {j j' : Job}

/-- A job is where it was: under its hub, with its number, and feeds no one else. -/
def Stays (id : JobId) (j : Job) (e : Engine) : Prop :=
  ∃ j', e.job? id = some j' ∧ j'.hub = j.hub ∧ j'.tableId = j.tableId ∧
    ∀ next, j'.stdout = .forward next → j.stdout = .forward next

lemma Stays.similar (hk : e.Keyed) (hs : Similar e e') (hj : Stays id j e) : Stays id j e' := by
  obtain ⟨j', hj', hhub, htab, hout⟩ := hj
  obtain ⟨⟨i, j''⟩, hm, rfl, hsim⟩ := hs.jobs.of_mem (hk.mem_iff.mpr hj')
  exact ⟨j'', (hk.similar hs).mem_iff.mp hm, hsim.hub.trans hhub, hsim.tableId.trans htab,
    fun next h => hout next ((hsim.forward next).mp h)⟩

lemma Stays.setJob {k k' : Job} (hk : e.job? next = some k) (hhub : k'.hub = k.hub)
    (htab : k'.tableId = k.tableId) (hout : k'.stdout = k.stdout) (hj : Stays id j e) :
    Stays id j (e.setJob next k') := by
  obtain ⟨j', hj', hh, ht, ho⟩ := hj
  by_cases hid : id = next
  · subst hid
    cases hj'.symm.trans hk
    exact ⟨k', job?_setJob_self e id hk k', hhub.trans hh, htab.trans ht, hout ▸ ho⟩
  · exact ⟨j', by rw [job?_setJob, if_neg hid, hj'], hh, ht, ho⟩

/-! ### Telling the neighbours -/

lemma InOrder.endInput (o : InOrder Q X S K M e) (next : JobId) :
    InOrder Q X S K M (e.endInput next) ∧
      (∃ A, (e.endInput next).weight = e.weight + A ∧ ∀ y ∈ A, y = low 5) ∧
      (∀ k ch, (e.endInput next).job? next = some k → k.body = .chain ch → next ∉ X →
        .runChain next ∈ (e.endInput next).tasks) ∧
      ∀ id j, Stays id j e → Stays id j (e.endInput next) := by
  rcases hj : e.job? next with _ | k
  · have he : e.endInput next = e := by simp only [Engine.endInput, hj]
    rw [he]
    exact ⟨o, ⟨0, by simp, by simp⟩, fun k ch hk => by simp [hj] at hk, fun _ _ h => h⟩
  rcases hb : k.body with c | n
  · by_cases hwait : c.started = true ∧ c.queued = false
    · -- it can run now
      let c' : Chain := { c with closed := true, queued := true }
      have he : e.endInput next =
          (e.setJob next { k with body := .chain c' }).defer (.runChain next) := by
        simp [Engine.endInput, hj, hb, close, ready, hwait, c']
      obtain ⟨o1, hw1⟩ := (o.mono fun x hx => mem_cons_of_mem next hx).setJob hj
        mem_cons_self { k with body := .chain c' } rfl rfl fun _ h => h
      obtain ⟨o2, hw2⟩ := o1.ensure (t := .runChain next) (job?_setJob_self e next hj _) rfl
        ⟨hwait.1, .inl (by simp [Engine.defer])⟩
      rw [he]
      exact ⟨o2, ⟨{low 5}, by rw [hw2, hw1], by simp⟩, by simp [Engine.defer],
        fun _ _ h => h.setJob hj rfl rfl rfl⟩
    · -- it has not been started, or is in the queue already
      have hnot : (c.started && !c.queued) = false := by
        by_contra h
        simp only [Bool.not_eq_false, Bool.and_eq_true, Bool.not_eq_true'] at h
        exact hwait h
      have he : e.endInput next =
          e.setJob next { k with body := .chain { c with closed := true } } := by
        simp [Engine.endInput, hj, hb, close, ready, hnot]
      have hs : Similar e (e.endInput next) := by
        rw [he]
        refine similar_setJob o.keyed hj ⟨rfl, rfl, rfl, fun _ => Iff.rfl, ?_⟩
        rw [hb]
        exact .chain rfl rfl (Subset.refl _)
      refine ⟨o.similar hs, ⟨0, by simp [hs.weight], by simp⟩, fun _ _ _ _ hX => ?_,
        fun _ _ h => h.similar o.keyed hs⟩
      have hd := o.due _ (o.keyed.mem_iff.mpr hj) hX
      simp only [Due, hb] at hd
      rw [hs.tasks]
      rcases hd.2 with h | ⟨hq, -⟩
      · exact h
      · exact absurd ⟨hd.1, hq⟩ hwait
  · have hs := audible_similar.closeFeed hj hb o.keyed
    refine ⟨o.similar hs, ⟨0, by simp [hs.weight], by simp⟩, fun k' ch hk' hch => ?_,
      fun _ _ h => h.similar o.keyed hs⟩
    obtain ⟨⟨i, k''⟩, hm, rfl, hsim⟩ := hs.jobs.of_mem (o.keyed.mem_iff.mpr hj)
    cases hk'.symm.trans ((o.keyed.similar hs).mem_iff.mp hm)
    have hbody := hsim.body
    rw [hb, hch] at hbody
    cases hbody

/-- When a job has told its neighbours, those it fed are sure to end without it. -/
lemma InOrder.passOn (o : InOrder Q X S K M e) (hj : e.job? id = some j) :
    InOrder Q X S K M (e.passOn j) ∧
      (∃ A, (e.passOn j).weight = e.weight + A ∧ ∀ y ∈ A, y = low 5) ∧
      (∀ next k ch, j.stdout = .forward next → (e.passOn j).job? next = some k →
        k.body = .chain ch → next ∉ X → .runChain next ∈ (e.passOn j).tasks) ∧
      Stays id j (e.passOn j) := by
  have hstay : Stays id j e := ⟨j, hj, rfl, rfl, fun _ h => h⟩
  set e1 := if j.live then { e with live := e.live - 1 } else e with he1
  have hlive : Similar e e1 := by
    rw [he1]
    split
    · exact { Similar.refl e with live := by simp [o.live] }
    · exact .refl e
  have o1 := o.similar hlive
  have hstay1 := hstay.similar o.keyed hlive
  have hbreak : ∀ e2 : Engine, e2.Keyed → Similar e2 (j.feeder.elim e2 e2.breakPipe) := by
    intro e2 hk
    rcases j.feeder with _ | f
    · exact .refl e2
    · exact audible_similar.breakPipe _ f hk
  -- a broken pipe means nothing to a chain
  have hchain : ∀ (e2 : Engine) (i : JobId) k ch, (j.feeder.elim e2 e2.breakPipe).job? i = some k →
      k.body = .chain ch → e2.Keyed → ∃ k' ch', e2.job? i = some k' ∧ k'.body = .chain ch' := by
    intro e2 i k ch hk hch hkey
    obtain ⟨⟨i', k'⟩, hm, rfl, hsim⟩ := (hbreak e2 hkey).jobs.of_mem_right
      ((hkey.similar (hbreak e2 hkey)).mem_iff.mpr hk)
    have hbody := hsim.body
    rw [hch] at hbody
    rcases hk' : k'.body with ch' | n
    · exact ⟨k', ch', hkey.mem_iff.mp hm, hk'⟩
    · rw [hk'] at hbody
      cases hbody
  by_cases hf : ∃ next, j.stdout = .forward next
  · obtain ⟨next, hnext⟩ := hf
    have he : e.passOn j = j.feeder.elim (e1.endInput next) (e1.endInput next).breakPipe := by
      simp only [Engine.passOn, hnext, ← he1]
    obtain ⟨o2, ⟨A, hA, hlow⟩, hrun, hstay2⟩ := o1.endInput next
    have hs := hbreak (e1.endInput next) o2.keyed
    rw [he]
    refine ⟨o2.similar hs, ⟨A, by rw [hs.weight, hA, hlive.weight], hlow⟩, ?_,
      (hstay2 id j hstay1).similar o2.keyed hs⟩
    intro next' k ch hout hk hch hX
    cases hnext.symm.trans hout
    obtain ⟨k', ch', hk', hch'⟩ := hchain _ _ k ch hk hch o2.keyed
    rw [hs.tasks]
    exact hrun k' ch' hk' hch' hX
  · have he : e.passOn j = j.feeder.elim e1 e1.breakPipe := by
      simp only [Engine.passOn, ← he1]
      cases hout : j.stdout with
      | forward next => exact absurd ⟨next, hout⟩ hf
      | _ => rfl
    have hs := hbreak e1 o1.keyed
    rw [he]
    refine ⟨o1.similar hs, ⟨0, by rw [hs.weight, hlive.weight, add_zero], by simp⟩, ?_,
      hstay1.similar o1.keyed hs⟩
    intro next k ch hout
    exact absurd ⟨next, hout⟩ hf

/-! ### Telling the user -/

/-- A job of which the end was told has neither the terminal nor an entry in the table. -/
lemma similar_announce (e : Engine) (id : JobId) (j : Job) {state : JobState}
    (hs : state.isFinal = true) (status : Int) :
    Similar e (e.announce id j state status) ∧ (e.announce id j state status).owner ≠ some id ∧
      ∀ t ∈ (e.announce id j state status).table.entries, j.tableId ≠ some t.1 := by
  have hgone : ∀ (t : JobTable) n, ∀ u ∈ (t.update n state (some status)).2.entries, u.1 ≠ n := by
    intro t n u hu
    rw [JobTable.entries_update_final hs] at hu
    simpa using of_mem_filter hu
  have howner : ∀ e : Engine, Similar e { e with owner := none } :=
    fun e => { Similar.refl e with owner := fun i hi => by simp at hi }
  have hconsole : ∀ e : Engine, Similar e { e with console := e.console.resume } :=
    fun e => { Similar.refl e with }
  have htell : ∀ (e : Engine) n info,
      Similar e ({ e with table := (e.table.update n state (some status)).2 }.notice info) :=
    fun e n info => (similar_table e (entries_update e.table n state (some status))).trans
      (similar_notice _ info)
  unfold announce
  dsimp only
  by_cases hown : e.owner = some id
  · simp only [hown, if_true]
    rcases j.tableId with _ | n
    · exact ⟨(howner e).trans (hconsole _), by simp, by simp⟩
    · refine ⟨((howner e).trans (htell _ n _)).trans (hconsole _), by simp [notice], ?_⟩
      intro t ht heq
      exact hgone _ _ t ht (some.inj heq).symm
  · simp only [hown, if_false]
    rcases j.tableId with _ | n
    · exact ⟨.refl e, hown, by simp⟩
    · refine ⟨htell e n _, hown, ?_⟩
      intro t ht heq
      exact hgone _ _ t ht (some.inj heq).symm

/-! ### Settling -/

lemma Keyed.eraseJob (hk : e.Keyed) (id : JobId) : (e.eraseJob id).Keyed :=
  Nodup.sublist (filter_sublist.map Prod.fst) hk

lemma Keyed.drivers_eraseJob (hk : e.Keyed) (hj : e.job? id = some j) :
    e.drivers = j.hub ::ₘ (e.eraseJob id).drivers := by
  obtain ⟨l1, l2, hl, -, -, herase⟩ := hk.split hj
  simp only [drivers, herase, hl, map_append, map_cons, ← Multiset.coe_add,
    ← Multiset.cons_coe, ← Multiset.singleton_add]
  show _ = {j.hub} + (((e.tasks.filterMap Task.hub? : List HubId) : Multiset HubId) + _)
  ac_rfl

lemma InOrder.eraseJob (o : InOrder Q (id :: X) S K M e) (hj : e.job? id = some j)
    (hown : e.owner ≠ some id) (htab : ∀ t ∈ e.table.entries, j.tableId ≠ some t.1)
    (hfed : ∀ next k ch, j.stdout = .forward next → e.job? next = some k → k.body = .chain ch →
      next ∉ id :: X → .runChain next ∈ e.tasks) :
    InOrder Q X S K (.drive j.hub :: M) (e.eraseJob id) ∧
      e.weight = (e.eraseJob id).weight + {low 6} := by
  obtain ⟨l1, l2, hl, -, -, herase⟩ := o.keyed.split hj
  have hmem : ∀ p, p ∈ (e.eraseJob id).jobs ↔ p ∈ e.jobs ∧ p.1 ≠ id := by simp [Engine.eraseJob]
  obtain ⟨birth, clock, hbal, hq⟩ := o.books
  refine ⟨{ o with
    books := ⟨birth, clock, ?_, hq⟩
    keyed := o.keyed.eraseJob id
    numbered := fun p hp => o.numbered p ((hmem p).mp hp).1
    due := fun p hp hX => ?_
    listed := fun t ht => ?_
    owner := fun i hi => ?_ }, ?_⟩
  · rw [o.keyed.drivers_eraseJob hj] at hbal
    exact Balanced.drive_iff.mpr hbal
  · -- what was fed by the job has a task of its own
    obtain ⟨hpe, hne⟩ := (hmem p).mp hp
    have hX' : p.1 ∉ id :: X := by simp [hne, hX]
    have hd := o.due p hpe hX'
    unfold Due at hd ⊢
    split
    · rename_i ch hch
      rw [hch] at hd
      refine ⟨hd.1, ?_⟩
      rcases hd.2 with h | ⟨hq, f, hlt, k, hk, hout⟩
      · exact .inl h
      · by_cases hf : f = id
        · subst hf
          cases hj.symm.trans (o.keyed.mem_iff.mp hk)
          exact .inl (hfed p.1 p.2 ch hout (o.keyed.mem_iff.mp hpe) hch hX')
        · exact .inr ⟨hq, f, hlt, k, (hmem _).mpr ⟨hk, hf⟩, hout⟩
    · rename_i n hn
      rw [hn] at hd
      exact hd
  · obtain ⟨p, hp, hpt⟩ := o.listed t ht
    refine ⟨p, (hmem p).mpr ⟨hp, fun hpid => ?_⟩, hpt⟩
    obtain ⟨i, k⟩ := p
    cases hpid
    cases hj.symm.trans (o.keyed.mem_iff.mp hp)
    exact htab t ht hpt
  · obtain ⟨p, hp, rfl⟩ := mem_map.mp (o.owner i hi)
    refine mem_map_of_mem ((hmem p).mpr ⟨hp, fun h => hown ?_⟩)
    rw [← h]
    exact hi
  · simp only [weight, herase, hl, length_append, length_cons, ← Nat.add_assoc,
      Multiset.replicate_succ, ← Multiset.singleton_add]
    show _ = e.hubs.entries.bind _ + (e.tasks : Multiset Task).bind Task.weight + _ + _
    ac_rfl

/-- A job is gone, and at most tasks have come in its place. -/
def Sheds (e e' : Engine) : Prop :=
  ∃ W A, e.weight = W + {low 6} ∧ e'.weight = W + A ∧ ∀ y ∈ A, y = low 5

/-- A job that is settled leaves its hub to be completed, and is gone. -/
lemma InOrder.settle (o : InOrder Q (id :: X) S K M e) (hj : e.job? id = some j) (state : JobState)
    (hs : state.isFinal = true) (status : Int) :
    ∃ e', e.settle id state status = (e', [.notify j.hub status]) ∧
      InOrder Q X S K (.drive j.hub :: M) e' ∧ Sheds e e' := by
  obtain ⟨o1, ⟨A, hA, hlow⟩, hrun, hstay⟩ := o.passOn hj
  obtain ⟨hsim, hown, htab⟩ := similar_announce (e.passOn j) id j hs status
  have o2 := o1.similar hsim
  obtain ⟨j', hj', hhub, htab', hout⟩ := hstay.similar o1.keyed hsim
  obtain ⟨o3, hw3⟩ := o2.eraseJob hj' hown (by rw [htab']; exact htab) (by
    intro next k ch hf hk hch hX
    rw [job?, jobs_announce] at hk
    rw [tasks_announce]
    exact hrun next k ch (hout next hf) hk hch hX)
  refine ⟨_, settle_eq hj state status, hhub ▸ o3, ?_⟩
  rw [hsim.weight, hA] at hw3
  have hmem : low 6 ∈ e.weight := by
    have h6 : low 6 ∈ e.weight + A := by simp [hw3]
    refine (Multiset.mem_add.mp h6).resolve_right fun h => ?_
    exact (low_lt_low.mpr (Nat.lt_succ_self 5)).ne (hlow _ h).symm
  obtain ⟨W, hW⟩ := Multiset.exists_cons_of_mem hmem
  rw [← Multiset.singleton_add] at hW
  refine ⟨W, A, by rw [hW, add_comm], add_right_cancel (b := {low 6}) ?_, hlow⟩
  rw [← hw3, hW]
  ac_rfl

/-! ### Running a chain -/

lemma similar_used (hk : e.Keyed) (hj : e.job? id = some j) {c : Chain} (hb : j.body = .chain c)
    (out : Outcome) (w : World) : Similar e (e.used id j c out w) := by
  have hworld : Similar e { e with system := { e.system with world := w } } := similar_system e rfl
  have hset : Similar e (({ e with system := { e.system with world := w } } : Engine).setJob id
      (usedUp j c)) := by
    refine hworld.trans (similar_setJob (j := j) hk hj ⟨rfl, rfl, rfl, fun _ => Iff.rfl, ?_⟩)
    rw [hb]
    exact .chain rfl rfl (nil_subset _)
  exact hset.trans (similar_escapeAll _ j.store out.escapes)

/-- A chain that has run has passed on its output. -/
lemma similar_ran (hk : e.Keyed) (hj : e.job? id = some j) {c : Chain} (hb : j.body = .chain c)
    (out : Outcome) (w : World) : Similar e
      (((e.used id j c out w).sendAny id .stdout out.stdout).sendAny id .stderr out.stderr) := by
  have hused := similar_used hk hj hb out w
  have hstdout := audible_similar.sendAny _ id .stdout out.stdout (hk.similar hused)
  have hstderr := audible_similar.sendAny _ id .stderr out.stderr
    (hk.similar (hused.trans hstdout))
  exact (hused.trans hstdout).trans hstderr

/-- A chain that has run leaves its hub to be completed, and its finalizers for later. -/
lemma InOrder.runChain (o : InOrder Q (id :: X) S K M e) (hj : e.job? id = some j) {c : Chain}
    (hb : j.body = .chain c) :
    ∃ e' s pending, e.runChain id = (e', [.notify j.hub s], pending) ∧
      InOrder Q X S K (.drive j.hub :: M) e' ∧ Sheds e e' ∧
      ∀ t ∈ pending, ∃ p store, t = .finalize p store := by
  rcases hout : runAll e.config.failedStatus c.launches c.input e.system.world with ⟨out, w⟩
  have hsim := similar_ran o.keyed hj hb out w
  have hstay : Stays id j e := ⟨j, hj, rfl, rfl, fun _ h => h⟩
  obtain ⟨j', hj', hhub, -⟩ := hstay.similar o.keyed hsim
  obtain ⟨e', he', o', W, A, hW, hA, hlow⟩ := (o.similar hsim).settle hj' .terminated rfl out.status
  refine ⟨e', out.status, out.pending.map (.finalize · j.store), ?_, hhub ▸ o',
    ⟨W, A, hsim.weight ▸ hW, hA, hlow⟩, ?_⟩
  · rw [runChain_eq hj hb hout, he', hhub]
  · intro t ht
    obtain ⟨p, -, rfl⟩ := mem_map.mp ht
    exact ⟨p, j.store, rfl⟩

end Engine

end JobShell
