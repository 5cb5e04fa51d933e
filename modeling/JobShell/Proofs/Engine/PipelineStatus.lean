import JobShell.Proofs.Engine.Life
import JobShell.Proofs.Engine.Segments

/-!
The status of a pipeline.

A pipeline is watched from the moment it is started: which jobs settle, with which statuses, and
what becomes of its hub. Main statement: in whatever order the jobs of its segments settle, the hub
completes once, when all of them have settled, with the status of the last one or with that turned
around; and it is open when whoever started the pipeline gets its hub.
-/

namespace JobShell

open Hub Desk Engine List Hubs Option Machine

/-- What was seen of a hub since it was created. -/
inductive Fate where
  | running
  | completed (status : Int)
  /-- The hub was dropped after it had completed. -/
  | removed (status : Int)
  /-- Anything else: it vanished, or its status changed. -/
  | broken
  deriving DecidableEq, Repr

namespace Fate

/-- The status that a hub has completed with. -/
def status? : Fate → Option Int
  | .completed status | .removed status => some status
  | _ => none

/-- Looks at a hub again. -/
def see (hub : HubId) (hubs : Hubs Callback) : Fate → Fate
  | .running =>
    match hubs.get? hub with
    | none => .broken
    | some h => h.status.elim .running .completed
  | .completed status =>
    match hubs.get? hub with
    | none => .removed status
    | some h => if h.status = some status then .completed status else .broken
  | fate => fate

end Fate

lemma map_status_retained (hubs : Hubs Callback) (slot : HubId) (f : ℕ → ℕ) (x : HubId) :
    ((hubs.update slot fun h => { h with retained := f h.retained }).get? x).map status =
      (hubs.get? x).map status := by
  rw [get?_update]
  split
  · rename_i he
    rw [he, Option.map_map]
    rfl
  · rfl

namespace Desk

open Hub.Note Hub.Scene

variable {past os : Notes} {ss log : Log} {d d' : Desk} {q : Plan} {fate : Fate}
  {slot : HubId} {h : Hub Callback} {status : Int}

/-- What was seen of the hub of a pipeline agrees with the notes. -/
def Tracks (q : Plan) (past : Notes) (d : Desk) : Fate → Prop
  | .running => completions past q.hub = []
  | .completed status => (∃ waiting, completions past q.hub = [(status, waiting)]) ∧
      ∃ h, d.scene.hubs.get? q.slot = some h ∧ h.status = some status
  | .removed status => ∃ waiting, completions past q.hub = [(status, waiting)]
  | .broken => False

lemma Watched.see (w : Watched q past log d) (t : Tracks q past d fate) :
    fate.see q.slot d.scene.hubs = fate := by
  cases fate with
  | running =>
    obtain ⟨slot, h, hg, hn, -, hslot⟩ :=
      w.run.sane.exists_open (List.getElem?_eq_some_iff.mp w.staged.handle).1 t
    obtain rfl := some.inj (hslot.symm.trans w.staged.handle)
    simp [Fate.see, hg, hn]
  | completed status =>
    obtain ⟨-, h, hg, hst⟩ := t
    simp [Fate.see, hg, hst]
  | removed | broken => rfl

/-- A hub that has a status keeps it as long as no hub is dropped. -/
lemma Deal.keeps_status (hd : Deal (.lax false) past d os ss d') (o : d.Owned)
    (hs : Sane past d.scene) (hg : d.scene.hubs.get? slot = some h) (hst : h.status = some status) :
    ∃ h', d'.scene.hubs.get? slot = some h' ∧ h'.status = some status := by
  cases hd.fares o hs.sound hg with
  | stays n hg' | bears hh hg' | subscribed hn hs' hp hh hg' | calls hst' hs' hp hg' =>
    exact ⟨_, hg', hst⟩
  | heeds hu ht hn => cases hn.symm.trans hst
  | dropped hd => cases hd

lemma Deal.completes {t : Terms} {n : ℕ} (hd : Deal t past d os ss d')
    (hc : completions os n ≠ []) :
    ∃ slot h h' status, d.scene.hubs.get? slot = some h ∧ d.scene.tenant slot = n ∧
      d'.scene.hubs.get? slot = some h' ∧ h'.status = some status ∧
      ∃ waiting, completions os n = [(status, waiting)] := by
  cases hd with
  | heeded => exact absurd (quiet_heeded past _ _ n).1 hc
  | @completed slot h u ds ha =>
    rw [completions_append, (quiet_heeded past _ u n).1, completions_completed] at hc ⊢
    have hsame : d.scene.tenant slot = n := by
      by_contra hne
      rw [if_neg hne] at hc
      exact hc rfl
    refine ⟨slot, h, _, h.verdict u, ha.hub, hsame, get?_update_self ha.hub _, (h.fulfil_eq u).1,
      h.keys, ?_⟩
    rw [if_pos hsame]
    rfl
  | _ => exact absurd rfl hc

/-- As long as no hub is dropped, the hub of a pipeline may complete, and nothing else is seen of
it. -/
lemma Watched.tracks (w : Watched q past log d) (t : Tracks q past d fate)
    (hd : Deal (.lax false) past d os ss d') :
    Tracks q (past ++ os) d' fate ∨
      fate = .running ∧ ∃ status, Tracks q (past ++ os) d' (.completed status) := by
  have w' := w.deal hd
  cases fate with
  | running =>
    have hold : completions past q.hub = [] := t
    by_cases hc : completions os q.hub = []
    · left
      change completions (past ++ os) q.hub = []
      rw [completions_append, hold, hc]
      rfl
    · obtain ⟨slot, h, h', status, hg, ht, hg', hst, waiting, hnew⟩ := hd.completes hc
      have hslot : d.scene.handles[q.hub]? = some slot :=
        ht ▸ getElem?_tenant (w.run.sane.handle slot h hg)
      obtain rfl := some.inj (w.staged.handle.symm.trans hslot)
      exact .inr ⟨rfl, status, ⟨waiting, by rw [completions_append, hold, hnew]; rfl⟩, h', hg', hst⟩
  | completed status =>
    left
    obtain ⟨⟨waiting, hc⟩, h, hg, hst⟩ := t
    have hno := w'.run.sane.completions_eq_nil (by simp [hc] : completions past q.hub ≠ [])
    refine ⟨⟨waiting, by rw [completions_append, hc, hno]; rfl⟩, ?_⟩
    exact hd.keeps_status w.owned w.run.sane hg hst
  | removed status =>
    left
    obtain ⟨waiting, hc⟩ := t
    have hno := w'.run.sane.completions_eq_nil (by simp [hc] : completions past q.hub ≠ [])
    exact ⟨waiting, by rw [completions_append, hc, hno]; rfl⟩
  | broken => exact t.elim

/-- What is watched in the middle of a step that began with some jobs and with some that had
settled. -/
structure Amid (J : Posts) (L : Log) (q : Plan) (past : Notes)
    (log : Log) (d : Desk) : Prop extends Watched q past log d where
  since : ∃ ss, log = L ++ ss ∧ ∀ j ∈ J, j ∈ d.jobs ∨ ∃ status, (j.1, status) ∈ ss

variable {J : Posts} {L : Log}

lemma Watched.amid (w : Watched q past L d) : Amid d.jobs L q past L d :=
  ⟨w, [], (append_nil L).symm, fun _ hj => .inl hj⟩

lemma Amid.deal {t : Terms} (a : Amid J L q past log d) (hd : Deal t past d os ss d') :
    Amid J L q (past ++ os) (log ++ ss) d' := by
  obtain ⟨ss', rfl, hsince⟩ := a.since
  refine ⟨a.toWatched.deal hd, ss' ++ ss, append_assoc _ _ _, fun j hj => ?_⟩
  rcases hsince j hj with hj | ⟨status, hj⟩
  · refine (hd.job a.owned hj).imp_right ?_
    rintro ⟨status, rfl, -⟩
    exact ⟨status, by simp⟩
  · exact .inr ⟨status, mem_append_left _ hj⟩

/-- In a step that drops no hub, the hub of a pipeline may complete. -/
def Keeping (J : Posts) (L : Log) (q : Plan) (fate : Fate)
    (past : Notes) (log : Log) (d : Desk) : Prop :=
  Amid J L q past log d ∧ (Tracks q past d fate ∨
    fate = .running ∧ ∃ status, Tracks q past d (.completed status))

/-- In a step that drops a hub, that of a pipeline may be dropped when it has completed. -/
def Dropping (J : Posts) (L : Log) (q : Plan) (fate : Fate)
    (past : Notes) (log : Log) (d : Desk) : Prop :=
  Amid J L q past log d ∧ (Tracks q past d fate ∨
    ∃ status, fate = .completed status ∧ Tracks q past d (.removed status) ∧
      d.scene.hubs.get? q.slot = none)

lemma law_keeping : Law (.lax false) (Keeping J L q fate) where
  run hr := hr.1.run
  owned hr := hr.1.owned
  deal := by
    rintro past log d os ss d' ⟨a, t | ⟨rfl, status, t⟩⟩ hd
    · exact ⟨a.deal hd, a.tracks t hd⟩
    · refine ⟨a.deal hd, .inr ⟨rfl, status, ?_⟩⟩
      exact (a.tracks t hd).resolve_right (by simp)

lemma Keeping.see (hk : Keeping J L q fate past log d) :
    Tracks q past d (fate.see q.slot d.scene.hubs) := by
  obtain ⟨a, t | ⟨rfl, status, t⟩⟩ := hk
  · rwa [a.see t]
  · obtain ⟨hc, h, hg, hst⟩ := t
    have hsee : Fate.running.see q.slot d.scene.hubs = .completed status := by
      simp [Fate.see, hg, hst]
    rw [hsee]
    exact ⟨hc, h, hg, hst⟩

lemma Dropping.see (hk : Dropping J L q fate past log d) :
    Tracks q past d (fate.see q.slot d.scene.hubs) := by
  obtain ⟨a, t | ⟨status, rfl, t, hnone⟩⟩ := hk
  · rwa [a.see t]
  · have hsee : (Fate.completed status).see q.slot d.scene.hubs = .removed status := by
      simp [Fate.see, hnone]
    rwa [hsee]

lemma Tracks.congr (t : Tracks q past d fate)
    (hs : (d'.scene.hubs.get? q.slot).map Hub.status = (d.scene.hubs.get? q.slot).map Hub.status) :
    Tracks q past d' fate := by
  cases fate with
  | completed status =>
    obtain ⟨hc, h, hg, hst⟩ := t
    rw [hg, map_some] at hs
    obtain ⟨h', hg', he⟩ := map_eq_some_iff.mp hs
    exact ⟨hc, h', hg', he.trans hst⟩
  | _ => exact t

lemma Dropping.congr (hk : Dropping J L q fate past log d) (a : Amid J L q past log d')
    (hs : (d'.scene.hubs.get? q.slot).map Hub.status = (d.scene.hubs.get? q.slot).map Hub.status) :
    Dropping J L q fate past log d' := by
  obtain ⟨-, t | ⟨status, rfl, t, hnone⟩⟩ := hk
  · exact ⟨a, .inl (t.congr hs)⟩
  · rw [hnone] at hs
    exact ⟨a, .inr ⟨status, rfl, t, map_eq_none_iff.mp hs⟩⟩

lemma lull_dropping : Lull (Dropping J L q fate) where
  released := by
    intro past log d slot hk
    have a := hk.1.deal (Deal.released slot : Deal (.lax true) past d [] [] _)
    rw [append_nil, append_nil] at a
    exact hk.congr a (map_status_retained d.scene.hubs slot (· - 1) q.slot)
  settle := by
    intro past log d slot ds hk hd
    have a := hk.1.deal (Deal.settle (t := .lax true) rfl past hd)
    rw [append_nil, append_nil] at a
    by_cases hdrop : slot = q.slot ∧ (d.scene.hubs.get? slot).any isSpent = true
    · obtain ⟨rfl, hsp⟩ := hdrop
      have hnone : (d.scene.hubs.settle q.slot).get? q.slot = none := by
        rw [Hubs.settle, if_pos hsp, Slab.get?_erase, if_pos rfl]
      refine ⟨a, ?_⟩
      rcases hk.2 with t | ⟨status, rfl, t, -⟩
      · cases fate with
        | completed status => exact .inr ⟨status, rfl, t.1, hnone⟩
        | _ => exact .inl t
      · exact .inr ⟨status, rfl, t, hnone⟩
    · refine hk.congr a ?_
      congr 1
      change (d.scene.hubs.settle slot).get? q.slot = _
      rw [Hubs.settle]
      split
      · rename_i hsp
        rw [Slab.get?_erase, if_neg fun he => hdrop ⟨he.symm, hsp⟩]
      · rfl

lemma turns_dropping : Turns true (Dropping J L q fate) := by
  intro past log d hub store store' a a' H hk hh hs hq
  have hturned : Deal (.lax true) past d [] [] { d with held := {⟨hub, store', a'⟩} + H } :=
    .turned hh hs fun _ _ => .inl rfl
  have ha := hk.1.deal hturned
  rw [append_nil, append_nil] at ha
  exact hk.congr ha rfl

end Desk

/-! ### The start of a pipeline -/

namespace Desk

open Hub.Note Hub.Scene

variable {past : Notes} {d d' : Desk} {q : Plan} {n m k key : ℕ} {parent : Option ℕ}
  {negated : Bool} {store : StoreId}

lemma unheard {sc : Scene Callback} (hs : Sane past sc) (hn : sc.handles.length ≤ n) :
    children past n = [] ∧ asks past n = [] ∧ completions past n = [] ∧
      .sealed n ∉ past ∧ ∀ key, .subscribed n key ∉ past := by
  have hno : ∀ o ∈ past, n ∉ o.hubs := fun o ho hm => absurd (hs.noted o ho n hm) (by omega)
  refine ⟨?_, ?_, ?_, fun hm => hno _ hm (by simp [Note.hubs]),
    fun key hm => hno _ hm (by simp [Note.hubs])⟩
  · refine eq_nil_iff_forall_not_mem.mpr fun c hc => ?_
    exact hno _ (mem_children.mp hc) (by simp [Note.hubs])
  · refine eq_nil_iff_forall_not_mem.mpr fun c hc => ?_
    exact hno _ (mem_asks.mp hc) (by simp [Note.hubs])
  · refine eq_nil_iff_forall_not_mem.mpr fun c hc => ?_
    exact hno _ (mem_completions.mp hc) (by simp [Note.hubs])

lemma children_openingNotes (hp : parent ≠ some m) :
    children (openingNotes n k parent negated key) m =
      if n = m then range' (n + 1) k else [] := by
  have hfirst : children [.created n parent] m = [] := by
    rcases parent with _ | p
    · rfl
    · rw [children_created, if_neg fun he : p = m => hp (congrArg some he)]
  have hkids : children ((range' (n + 1) k).map (.created · (some n))) m =
      if n = m then range' (n + 1) k else [] := by
    by_cases hn : n = m <;> simp [children, select, filterMap_map, hn]
  have hlast : children [if negated then .subscribed (n + k) key else .sealed n] m = [] := by
    cases negated <;> rfl
  rw [openingNotes, madeNotes, children_append, ← singleton_append, children_append, hfirst,
    hkids, hlast, nil_append, append_nil]

lemma asks_openingNotes : asks (openingNotes n k parent negated key) m = [] := by
  refine eq_nil_iff_forall_not_mem.mpr fun status hm => ?_
  have hm := mem_asks.mp hm
  cases negated <;> simp [openingNotes, madeNotes] at hm

lemma completions_openingNotes : completions (openingNotes n k parent negated key) m = [] := by
  refine eq_nil_iff_forall_not_mem.mpr fun c hm => ?_
  have hm := mem_completions.mp hm
  cases negated <;> simp [openingNotes, madeNotes] at hm

lemma sealed_mem_openingNotes :
    .sealed m ∈ openingNotes n k parent negated key ↔ negated = false ∧ m = n := by
  cases negated <;> simp [openingNotes, madeNotes]

lemma subscribed_mem_openingNotes {key' : ℕ} :
    .subscribed m key' ∈ openingNotes n k parent negated key ↔
      negated = true ∧ m = n + k ∧ key' = key := by
  cases negated <;> simp [openingNotes, madeNotes]

lemma staged_opening (hs : Sane past d.scene) (hhub : q.hub = d.scene.handles.length)
    (hparent : ∀ p, parent = some p → p < d.scene.handles.length) (hpos : 0 < q.count)
    (hhandles : d'.scene.handles = d.scene.handles ++ q.slot :: q.kids)
    (hjobs : d'.jobs = d.jobs ++ (range' q.job q.count).zip (q.kids.map (·, store)))
    (hturn : q.negated = true → ∃ slot h, d'.scene.hubs.get? slot = some h ∧
      h.subscribers = [(key, .negate q.slot)] ∧ d'.scene.tenant slot = q.hub + q.count) :
    Staged q (past ++ openingNotes q.hub q.count parent q.negated key) [] d' := by
  have hnew : ∀ i slot, (q.slot :: q.kids)[i]? = some slot →
      d'.scene.handles[q.hub + i]? = some slot := by
    intro i slot hi
    rw [hhandles, hhub, getElem?_append_right (by omega), Nat.add_sub_cancel_left]
    exact hi
  have hold : ∀ n, q.hub ≤ n → _ := fun n hn => unheard hs (hhub ▸ hn)
  have hnoparent : ∀ n, q.hub ≤ n → parent ≠ some n := by
    intro n hn he
    have := hparent n he
    omega
  have hasks : ∀ n, q.hub ≤ n →
      asks (past ++ openingNotes q.hub q.count parent q.negated key) n = [] := by
    intro n hn
    rw [asks_append, (hold n hn).2.1, asks_openingNotes]
    rfl
  refine ⟨hpos, hnew, ?_, fun i hi => ?_, fun i hi => ?_, fun i hi => ?_, fun hneg => ?_,
    fun hneg => ?_⟩
  · rw [children_append, (hold _ le_rfl).1, children_openingNotes (hnoparent _ le_rfl), if_pos rfl]
    rfl
  · have hle : q.hub ≤ q.hub + 1 + i := by omega
    rw [children_append, (hold _ hle).1, children_openingNotes (hnoparent _ hle), if_neg (by omega)]
    rfl
  · rw [mem_append, sealed_mem_openingNotes]
    rintro (hm | ⟨-, he⟩)
    · exact (hold (q.hub + 1 + i) (by omega)).2.2.2.1 hm
    · omega
  · have hkid : q.kids[i]? = some q.kids[i] := getElem?_eq_getElem hi
    have hslot := hnew (i + 1) q.kids[i] (by rw [getElem?_cons_succ, hkid])
    rw [add_comm i, ← add_assoc] at hslot
    refine .working (s := store) hslot ?_ (hasks _ (by omega))
    rw [hjobs]
    refine mem_append_right _ (mem_of_getElem? (i := i) ?_)
    rw [getElem?_zip_eq_some, getElem?_range' hi]
    exact ⟨by simp, by rw [getElem?_map, hkid]; rfl⟩
  · refine ⟨mem_append_right _ (sealed_mem_openingNotes.mpr ⟨hneg, rfl⟩), hasks _ le_rfl, ?_⟩
    intro key' hm
    rcases mem_append.mp hm with hm | hm
    · exact (hold (q.hub + q.count) (by omega)).2.2.2.2 key' hm
    · exact absurd (subscribed_mem_openingNotes.mp hm).1 (by simp [hneg])
  · obtain ⟨slot, h, hg, hm, ht⟩ := hturn hneg
    refine ⟨fun hm => ?_, .waiting (hnew 0 q.slot rfl) ht hg hm (hasks _ le_rfl)⟩
    rcases mem_append.mp hm with hm | hm
    · exact (hold _ le_rfl).2.2.2.1 hm
    · exact absurd (sealed_mem_openingNotes.mp hm).1 (by simp [hneg])

end Desk

/-! ### Watching a machine -/

lemma Engine.isSome_job?_iff {e : Engine} {id : JobId} :
    (e.job? id).isSome = true ↔ ∃ slot, (id, slot) ∈ e.jobs.map place := by
  rw [isSome_job?]
  simp [place]

namespace Machine

/-- The status that a hub is to be notified of. -/
def told (m : Machine) : Int :=
  match m.stack with
  | .duty (.notify _ status) :: _ => status
  | _ => 0

/-- The jobs that settle from one moment to the next: those that are gone, with the status that the
hub of one is then notified of. -/
def settlements (m m' : Machine) : Log :=
  ((m.engine.jobs.map Prod.fst).filter fun id => (m'.engine.job? id).isNone).map (·, m'.told)

variable {m m' : Machine} {q : Plan} {fate : Fate} {log ss : Log}

/-- What is announced of jobs that settle is what is seen of them. -/
lemma settlements_eq (hk : m.engine.Keyed) (ha : m.engine.Announces ss m'.stack)
    (hkept : ∀ j ∈ m.engine.jobs.map place, j ∈ m'.engine.jobs.map place ∨
      ∃ status, (j.1, status) ∈ ss)
    (hgone : ∀ l ∈ ss, ∀ slot, (l.1, slot) ∉ m'.engine.jobs.map place) : m.settlements m' = ss := by
  have hmem : ∀ id,
      id ∈ (m.engine.jobs.map Prod.fst).filter (fun id => (m'.engine.job? id).isNone) ↔
        (m.engine.job? id).isSome = true ∧ ∃ status, (id, status) ∈ ss := by
    intro id
    rw [mem_filter, ← isSome_job?, isNone_iff_eq_none, ← not_isSome_iff_eq_none]
    refine and_congr_right fun hj => ⟨fun hno => ?_, ?_⟩
    · obtain ⟨slot, hj⟩ := isSome_job?_iff.mp hj
      exact (hkept _ hj).resolve_left fun hj' => hno (isSome_job?_iff.mpr ⟨slot, hj'⟩)
    · rintro ⟨status, hl⟩ hj'
      obtain ⟨slot, hj'⟩ := isSome_job?_iff.mp hj'
      exact hgone _ hl slot hj'
  generalize hstack : m'.stack = stack at ha
  cases ha with
  | nothing =>
    rw [settlements, map_eq_nil_iff, eq_nil_iff_forall_not_mem]
    intro id hid
    obtain ⟨-, status, hl⟩ := (hmem id).mp hid
    cases hl
  | @settled id hj hub status ws =>
    have htold : m'.told = status := by rw [told, hstack]
    have hperm : ((m.engine.jobs.map Prod.fst).filter fun id => (m'.engine.job? id).isNone).Perm
        [id] := by
      refine (perm_ext_iff_of_nodup (Nodup.filter _ hk) (nodup_singleton _)).mpr ?_
      intro id'
      rw [hmem, mem_singleton]
      constructor
      · rintro ⟨-, st, hl⟩
        exact (Prod.mk.inj (mem_singleton.mp hl)).1
      · rintro rfl
        exact ⟨hj, status, mem_singleton_self _⟩
    rw [settlements, perm_singleton.mp hperm, htold]
    rfl

/-- What is known of a pipeline of which something was seen. -/
def Tracked (q : Plan) (fate : Fate) (past : Notes) (log : Log) (d : Desk) :
    Prop := Watched q past log d ∧ Tracks q past d fate

/-- When a step is done, its jobs have settled or are still there. -/
lemma settlements_of_amid {L : Log} {handles : List HubId} {past : Notes}
    {ds : List Duty} {H : Multiset Hold} (hk : m.engine.Keyed) (ha : m.engine.Announces ss m'.stack)
    (a : Amid (m.engine.jobs.map place) L q past (L ++ ss) (m'.engine.desk handles ds H)) :
    m.settlements m' = ss := by
  obtain ⟨ss', hss, hsince⟩ := a.since
  obtain rfl := append_cancel_left hss
  exact settlements_eq hk ha hsince fun l hl => a.logged.gone l (mem_append_right _ hl)

lemma Goes.tracked (hg : Goes m m') (hb : Busy (Tracked q fate) log m.engine m.stack) :
    Busy (Tracked q (fate.see q.slot m'.engine.hubs)) (log ++ m.settlements m') m'.engine
      m'.stack := by
  have hk : m.engine.Keyed := by
    obtain ⟨handles, past, ds, H, ⟨w, -⟩, -⟩ := hb.desk
    have hids := w.owned.ids
    rwa [desk, List.map_map] at hids
  -- a step that drops no hub
  have hkept : ∀ {m' : Machine}, Done (fun _ => True)
      (Keeping (m.engine.jobs.map place) log q fate) log 0 [] m.engine (m'.engine, m'.stack) →
      Busy (Tracked q (fate.see q.slot m'.engine.hubs)) (log ++ m.settlements m')
        m'.engine m'.stack := by
    rintro m' ⟨ss, hb', ha⟩
    obtain ⟨handles, past, ds, H, ⟨a, -⟩, -⟩ := hb'.desk
    rw [settlements_of_amid hk ha a]
    exact hb'.imp (fun _ h => h) fun handles past ds H hr => ⟨hr.1.toWatched, hr.see⟩
  have hbegin : Busy (Keeping (m.engine.jobs.map place) log q fate) log m.engine m.stack :=
    hb.imp (fun _ h => h) fun handles past ds H hr => ⟨hr.1.amid, .inl hr.2⟩
  cases hg with
  | outside h => exact hkept (h.worked law_keeping hbegin)
  | step =>
    by_cases hdrop : ∃ w ws, m.stack = w :: ws ∧ m.engine.mayDrop w = true
    · obtain ⟨w, ws, hstack, hdrop⟩ := hdrop
      have hstep : m.step = ⟨(m.engine.perform w).1, (m.engine.perform w).2 ++ ws⟩ := by
        rw [Machine.step, hstack]
      have hbegin : Busy (Dropping (m.engine.jobs.map place) log q fate) log m.engine (w :: ws) :=
        hstack ▸ hb.imp (fun _ h => h) fun handles past ds H hr => ⟨hr.1.amid, .inl hr.2⟩
      have hb' := hbegin.drop lull_dropping turns_dropping hdrop
      obtain ⟨handles, past, ds, H, ⟨a, -⟩, -⟩ := hb'.desk
      have a' : Amid (m.engine.jobs.map place) log q past (log ++ [])
          (m.step.engine.desk handles ds H) := by
        rw [append_nil, hstep]
        exact a
      rw [settlements_of_amid hk (.nothing _) a', append_nil, hstep]
      exact hb'.imp (fun _ h => h) fun handles past ds H hr => ⟨hr.1.toWatched, hr.see⟩
    · refine hkept (hbegin.step law_keeping rfl fun w ws hstack => allows_lax fun hw => ?_).1
      exact absurd ⟨w, ws, hstack, hw⟩ hdrop

end Machine

/-! ### Pipelines that are started -/

/-- A pipeline that an engine starts. -/
structure PipelineCall where
  engine : Engine
  commands : List Command
  ctx : Context
  parent : Option HubId
  negated : Bool

namespace PipelineCall

/-- What comes of it. -/
def started (call : PipelineCall) : Started × Engine :=
  call.engine.startPipeline call.commands call.ctx call.parent call.negated

def hub (call : PipelineCall) : HubId := call.started.1.hub

/-- The jobs of its segments, in their order. -/
def segments (call : PipelineCall) : List (JobId × Job) :=
  call.started.2.jobs.drop call.engine.jobs.length

def jobs (call : PipelineCall) : List JobId := call.segments.map Prod.fst

/-- The hubs that were created for it. -/
def hubs (call : PipelineCall) : List HubId := call.hub :: call.segments.map (·.2.hub)

/-- The status of the pipeline, given that of its last segment. -/
def verdict (call : PipelineCall) (status : Int) : Int :=
  if call.negated then if status = 0 then 1 else 0 else status

variable {call : PipelineCall} {m m' : Machine} {q : Plan} {fate : Fate}
  {settled log : Log} {H : Multiset Hold} {ds : List Duty}

/-- What is dealt for a pipeline when it is started. -/
structure Planned (call : PipelineCall) (q : Plan) : Prop where
  duties : call.started.1.duties = []
  bare : call.started.2.Bare call.hub call.parent
  slot : q.slot = call.hub
  job : q.job = call.engine.nextJob
  count : q.count = call.engine.segments call.commands
  negated : q.negated = call.negated
  segments : call.segments.map place = (range' q.job q.count).zip (q.kids.map (·, call.ctx.store))

lemma Planned.jobs (p : call.Planned q) : call.jobs = range' q.job q.count := by
  have hfst := congrArg (map Prod.fst) p.segments
  rw [List.map_map, map_fst_zip (by simp [Plan.count])] at hfst
  exact hfst

lemma Planned.mem_jobs (p : call.Planned q) {id : JobId} :
    id ∈ call.jobs ↔ ∃ i < q.count, id = q.job + i := by
  rw [p.jobs, mem_range'_1]
  constructor
  · rintro ⟨hle, hlt⟩
    obtain ⟨i, rfl⟩ := Nat.exists_eq_add_of_le hle
    exact ⟨i, Nat.lt_of_add_lt_add_left hlt, rfl⟩
  · rintro ⟨i, hi, rfl⟩
    exact ⟨Nat.le_add_right _ _, Nat.add_lt_add_left hi _⟩

lemma Planned.hubs (p : call.Planned q) : call.hubs = q.slot :: q.kids := by
  have hsnd := congrArg (map Prod.snd) p.segments
  rw [List.map_map, map_snd_zip (by simp [Plan.count])] at hsnd
  have hkids := congrArg (map Prod.fst) hsnd
  simp only [List.map_map, Function.comp_def, List.map_id'] at hkids
  rw [PipelineCall.hubs, p.slot, ← hkids]
  rfl

lemma exists_planned (call : PipelineCall)
    (u : Under (fun _ => True) Based log H ds call.engine)
    (hp : Admits (fun _ => True) H call.engine.hubs.next call.ctx.store call.parent)
    (hne : call.commands.filter (!·.assignmentOnly) ≠ []) :
    ∃ q launched e', call.started = (⟨q.slot, launched, []⟩, e') ∧ e'.Bare q.slot call.parent ∧
      q.slot = call.engine.hubs.next ∧ call.Planned q ∧
      Under (fun _ => True) (Tracked q .running) [] H ds e' := by
  obtain ⟨handles, past, hr⟩ := u.books
  obtain ⟨launched, e', slots, key, hstart, hbare, hq, hlen, hjobs, hturn, hdeals⟩ :=
    deals_startPipeline (law_based (.lax true)) hr u.queue hne call.ctx hp call.negated
  have hr' := (law_based _).deals hr hdeals
  have hpos : 0 < call.engine.segments call.commands :=
    length_pos_of_ne_nil (call.engine.services.partition_ne_nil hne)
  let q : Plan := ⟨handles.length, call.engine.hubs.next, slots, call.engine.nextJob, call.negated⟩
  have hcount : q.count = call.engine.segments call.commands := hlen
  have hparent : ∀ p, (call.parent.bind (call.engine.desk handles ds H).scene.openHub?) = some p →
      p < handles.length := by
    intro n hn
    obtain ⟨p, hp', hopen⟩ := bind_eq_some_iff.mp hn
    rw [hp'] at hp
    obtain ⟨h, hg, hst, -⟩ := hr.owned.free_held (Multiset.mem_add.mpr (.inl hp))
    rw [Scene.openHub?_eq_some hg hst] at hopen
    rw [← some.inj hopen]
    exact Scene.tenant_lt (hr.run.sane.handle p h hg)
  rw [← hcount] at hdeals hr' hjobs hturn hpos
  have hstaged : Staged q _ [] (e'.desk (handles ++ call.engine.hubs.next :: slots) ds H) :=
    staged_opening hr.run.sane rfl hparent hpos rfl hjobs hturn
  have hopen : completions (past ++ openingNotes q.hub q.count
      (call.parent.bind (call.engine.desk handles ds H).scene.openHub?) q.negated key)
        q.hub = [] := by
    have hold : completions past q.hub = [] := (unheard hr.run.sane le_rfl).2.2.1
    rw [completions_append, hold, completions_openingNotes]
    rfl
  have hstarted : call.started = (⟨q.slot, launched, []⟩, e') := hstart
  have hhub : call.hub = q.slot := by rw [hub, hstarted]
  refine ⟨q, launched, e', hstarted, hbare, rfl,
    ⟨by rw [hstarted], ?_, hhub.symm, rfl, hcount, rfl, ?_⟩,
    hq, _, _, ⟨hr'.run, hr'.owned, ⟨.nil, nofun, nofun⟩, hstaged⟩, hopen⟩
  · rw [hhub, hstarted]
    exact hbare
  · rw [segments, hstarted, map_drop, hjobs]
    exact drop_left' (by simp)

/-- A piece of work that comes to a pipeline as a step of a list. -/
inductive Comes (e : Engine) : Work → Runner → List Command → Bool → Bool → Prop where
  | ready {r : Runner} {c : Command} {steps : List Step} (hr : r.steps = .ready c :: steps)
      (ha : c.assignmentOnly = false) (hc : (e.jobControl? c r.ctx.route).isNone = true) :
      Comes e (.advance r) { r with steps } [c] c.background false
  | command {store : StoreId} {r : Runner} {background : Bool} {c : Command}
      (ha : c.assignmentOnly = false)
      (hc : (e.jobControl? { c with background } r.ctx.route).isNone = true) :
      Comes e (.evaluate store (.done (.command r background (.ok c)))) r [{ c with background }]
        background false
  | pipeline (store : StoreId) (r : Runner) (commands : List Command) (background negated : Bool) :
      Comes e (.evaluate store (.done (.pipeline r background negated (.ok commands)))) r commands
        background negated

/-- A pipeline that is a step of a list. -/
def ofStep (e : Engine) (r : Runner) (commands : List Command) (background negated : Bool) :
    PipelineCall :=
  if background then ⟨e, commands, r.ctx.inBackground, none, negated⟩
  else ⟨e, commands, r.ctx, some r.hub, negated⟩

/-- A pipeline whose output is kept. -/
def ofCapture (e : Engine) (commands : List Command) (store : StoreId) (negated : Bool) :
    PipelineCall :=
  ⟨e.withCapture, commands,
    { store, route := .capture e.captures.next }, none, negated⟩

/-- A machine starts a pipeline: as a step of a list, for its output, or because it is asked to. -/
inductive Launches : Machine → PipelineCall → Machine → Prop where
  | step {m : Machine} {w : Work} {ws : List Work} {r : Runner} {commands : List Command}
      {background negated : Bool} (hm : m.stack = w :: ws)
      (hc : Comes m.engine w r commands background negated) :
      Launches m (ofStep m.engine r commands background negated) m.step
  | capture {m : Machine} {store : StoreId} {commands : List Command} {negated : Bool}
      {next : Resumption} {ws : List Work}
      (hm : m.stack = .evaluate store (.capture commands negated next) :: ws) :
      Launches m (ofCapture m.engine commands store negated) m.step
  | request (e : Engine) (commands : List Command) (negated : Bool) {s : Started} {e' : Engine}
      (h : e.startPipeline commands {} none negated = (s, e')) :
      Launches ⟨e, []⟩ ⟨e, commands, {}, none, negated⟩ ⟨{ e' with hubs := e'.hubs.retain s.hub },
        s.duties.map .duty ++ [.await s.hub .request]⟩

/-- A pipeline is started, and from then on it is watched whatever the machine goes through: which
jobs have settled, with which statuses, and what became of its hub. -/
inductive Follows (call : PipelineCall) : Machine → Log → Fate → Prop where
  | launch {m m' : Machine} (hm : m.Reached) (hl : Launches m call m') :
      Follows call m' [] (Fate.running.see call.hub m'.engine.hubs)
  | goes {m m' : Machine} {settled : Log} {fate : Fate}
      (hf : Follows call m settled fate) (hg : m.Goes m') :
      Follows call m' (settled ++ m.settlements m') (fate.see call.hub m'.engine.hubs)

variable {e : Engine} {w : Work} {ws : List Work} {r : Runner} {commands : List Command}
  {background negated : Bool}

lemma Comes.perform (hc : Comes e w r commands background negated) :
    e.perform w = e.pipelineStep r commands background negated := by
  cases hc with
  | ready hr ha hc =>
    simp [Engine.perform, Engine.advance, hr, Engine.commandStep, ha, isNone_iff_eq_none.mp hc]
  | @command store r background c ha hc =>
    have ha' : ({ c with background } : Command).assignmentOnly = false := ha
    simp [Engine.perform, Engine.evaluate, Engine.built, Engine.commandStep, ha',
      isNone_iff_eq_none.mp hc]
  | pipeline => rfl

/-- Whoever comes to a pipeline goes on with the hub of its list. -/
lemma Comes.carries (hc : Comes e w r commands background negated)
    (hw : Carries (fun _ => True) w H) :
    H = {⟨r.hub, some r.ctx.store, none⟩} ∧ Work.duties [w] = [] := by
  cases hc with
  | ready hr ha hc =>
    cases hw with
    | advance => exact ⟨rfl, rfl⟩
    | asks hw => cases hw
  | command | pipeline =>
    cases hw with
    | @evaluate _ _ o hx hn =>
      obtain ⟨hub, rfl, he⟩ := map_eq_some_iff.mp hx.1.symm
      obtain ⟨rfl, rfl⟩ := Prod.mk.inj he
      exact ⟨rfl, rfl⟩
    | asks hw => cases hw

lemma retain_tracked (u : Under (fun _ => True) (Tracked q fate) log H ds e) (slot : HubId) :
    Under (fun _ => True) (Tracked q fate) log H ds { e with hubs := e.hubs.retain slot } := by
  obtain ⟨handles, past, w, t⟩ := u.books
  have w' := w.deal (Deal.retained slot : Deal (.lax false) past (e.desk handles ds H) [] [] _)
  rw [append_nil, append_nil] at w'
  exact ⟨u.queue, handles, past, w', t.congr (map_status_retained e.hubs slot (· + 1) q.slot)⟩

/-- A machine that starts a pipeline as a step of a list watches it. -/
lemma Comes.tracked (hc : Comes e w r commands background negated)
    (hb : Busy Based log e (w :: ws)) (hne : commands.filter (!·.assignmentOnly) ≠ []) :
    ∃ q, (ofStep e r commands background negated).Planned q ∧
      Busy (Tracked q .running) [] (e.perform w).1 ((e.perform w).2 ++ ws) := by
  rw [hc.perform]
  obtain ⟨H, hs, ⟨H', hw, u⟩ | ⟨r, child, rfl, -⟩⟩ := hb.top
  swap
  · cases hc
  obtain ⟨rfl, hduties⟩ := hc.carries hw
  rw [hduties, nil_append] at u
  cases background with
  | true =>
    obtain ⟨q, launched, e', hstarted, -, -, hp, u'⟩ :=
      exists_planned (ofStep e r commands true negated) u (.inl trivial) hne
    refine ⟨q, hp, Carried.append ?_ hs⟩
    change e.startPipeline commands r.ctx.inBackground none negated = _ at hstarted
    simp only [Engine.pipelineStep, hstarted, if_true, map_nil, nil_append]
    exact .one (.advance { r with background := _ }) u'
  | false =>
    obtain ⟨q, launched, e', hstarted, hbare, -, hp, u'⟩ :=
      exists_planned (ofStep e r commands false negated) u
        (Multiset.mem_add.mpr (.inl (Multiset.mem_singleton_self _))) hne
    refine ⟨q, hp, Carried.append ?_ hs⟩
    change e.startPipeline commands r.ctx (some r.hub) negated = _ at hstarted
    simp only [Engine.pipelineStep, hstarted, Bool.false_eq_true, if_false, map_nil, nil_append]
    exact .follow hbare .nil (by rw [zero_add]; exact u')

lemma capture_tracked {store : StoreId} {next : Resumption}
    (hb : Busy Based log e (.evaluate store (.capture commands negated next) :: ws))
    (hne : commands.filter (!·.assignmentOnly) ≠ []) :
    ∃ q, (ofCapture e commands store negated).Planned q ∧
      Busy (Tracked q .running) []
        (e.perform (.evaluate store (.capture commands negated next))).1
        ((e.perform (.evaluate store (.capture commands negated next))).2 ++ ws) := by
  obtain ⟨H, hs, ⟨H', hw, u⟩ | ⟨r, child, hw, -⟩⟩ := hb.top
  swap
  · cases hw
  cases hw with
  | asks hw => cases hw
  | evaluate hx hn =>
    obtain ⟨u1, ha⟩ := u.awaiting (law_based (.lax true)).turns hn e.hubs.next
    obtain ⟨q, launched, e', hstarted, -, hslot, hp, u'⟩ := exists_planned
      (ofCapture e commands store negated) ⟨u1.queue, u1.books⟩ ha hne
    change Engine.startPipeline e.withCapture commands
      { store, route := .capture e.captures.next } none negated = _ at hstarted
    refine ⟨q, hp, Carried.append ?_ hs⟩
    simp only [Engine.perform, Engine.evaluate, Engine.startCapture, hstarted, map_nil, nil_append]
    refine .one (.await hx hn) ?_
    rw [hslot]
    exact retain_tracked u' _

lemma Launches.tracked (hm : m.Reached) (hl : Launches m call m')
    (hne : call.commands.filter (!·.assignmentOnly) ≠ []) :
    ∃ q, call.Planned q ∧ Busy (Tracked q .running) [] m'.engine m'.stack := by
  have hb := hm.busy
  cases hl with
  | @step m w ws r commands background negated hstack hc =>
    rw [hstack] at hb
    rw [Machine.step, hstack]
    refine hc.tracked hb ?_
    cases background <;> exact hne
  | @capture m store commands negated next ws hstack =>
    rw [hstack] at hb
    rw [Machine.step, hstack]
    exact capture_tracked hb hne
  | @request e commands negated s e' h =>
    obtain ⟨q, launched, e'', hstarted, -, -, hp, u'⟩ :=
      exists_planned ⟨e, commands, {}, none, negated⟩ hb.rest (.inl trivial) hne
    obtain ⟨rfl, rfl⟩ := Prod.mk.inj (hstarted.symm.trans h)
    exact ⟨q, hp, .one (.request q.slot) (retain_tracked u' q.slot)⟩

lemma Follows.tracked (hf : call.Follows m settled fate)
    (hne : call.commands.filter (!·.assignmentOnly) ≠ []) :
    ∃ q, call.Planned q ∧ Busy (Tracked q fate) settled m.engine m.stack := by
  induction hf with
  | launch hm hl =>
    obtain ⟨q, hp, hb⟩ := hl.tracked hm hne
    refine ⟨q, hp, hb.imp (fun _ h => h) fun handles past ds H hr => ?_⟩
    have hsee := hr.1.see hr.2
    rw [hp.slot] at hsee
    exact hsee.symm ▸ hr
  | goes _ hg ih =>
    obtain ⟨q, hp, hb⟩ := ih
    exact ⟨q, hp, hp.slot ▸ hg.tracked hb⟩

/-- In whatever order the jobs of a pipeline settle: starting it leaves nothing to be done and its
hub open, so that whoever subscribes then is accepted; there is a job for each segment, each of them
is there until it settles, and none settles twice; the hub completes at most once, and not before
all of them have settled, with the status of the last one or with that turned around; and when all
of them have settled it has completed, unless something is still in hand for its hubs. -/
theorem Follows.pipeline_status (hf : call.Follows m settled fate)
    (hc : ∃ c ∈ call.commands, c.assignmentOnly = false) :
    (call.started.1.duties = [] ∧
      (∃ h, call.started.2.hubs.get? call.hub = some h ∧ h.status = none) ∧
      ∀ callback, ∃ e, call.started.2.subscribe call.hub callback = .ok e) ∧
    (call.jobs.length = (call.engine.services.partition
        (call.commands.filter (!·.assignmentOnly))).length ∧ call.jobs ≠ [] ∧ call.jobs.Nodup) ∧
    ((settled.map Prod.fst).Nodup ∧ ∀ id ∈ call.jobs,
      ((m.engine.job? id).isSome = true ↔ ¬ ∃ status, (id, status) ∈ settled)) ∧
    (fate ≠ .broken ∧ ∀ status, fate.status? = some status →
      (∀ id ∈ call.jobs, ∃ status, (id, status) ∈ settled) ∧
      ∃ id last, call.jobs.getLast? = some id ∧ (id, last) ∈ settled ∧
        status = call.verdict last) ∧
    ((∀ id ∈ call.jobs, ∃ status, (id, status) ∈ settled) →
      (∀ d, .duty d ∈ m.stack → d.hub ∉ call.hubs) → ∃ status, fate.status? = some status) := by
  have hne : call.commands.filter (!·.assignmentOnly) ≠ [] := by
    obtain ⟨c, hm, ha⟩ := hc
    exact ne_nil_of_mem (mem_filter.mpr ⟨hm, by simp [ha]⟩)
  obtain ⟨q, p, hb⟩ := hf.tracked hne
  obtain ⟨handles, past, ds, H, ⟨w, t⟩, hds⟩ := hb.desk
  obtain ⟨h, hg, hn, -⟩ := bare_iff.mp p.bare
  refine ⟨⟨p.duties, ⟨h, hg, hn⟩, fun callback => ?_⟩, ⟨?_, ?_, ?_⟩,
    ⟨w.logged.nodup, fun id hid => ?_⟩, ⟨?_, fun status hst => ?_⟩, fun hall hnone => ?_⟩
  · have hst : call.started.2.hubs.status? call.hub = none := by simp [Hubs.status?, hg, hn]
    refine ⟨{ call.started.2 with
      hubs := call.started.2.hubs.update call.hub (·.subscribed callback) }, ?_⟩
    simp [Engine.subscribe, Hubs.subscribe, hg, hst]
  · rw [p.jobs, length_range', p.count]
    rfl
  · exact ne_nil_of_mem (p.mem_jobs.mpr ⟨0, w.staged.pos, rfl⟩)
  · rw [p.jobs]
    exact nodup_range'
  · obtain ⟨i, hi, rfl⟩ := p.mem_jobs.mp hid
    rw [isSome_job?_iff]
    constructor
    · rintro ⟨slot, hj⟩ ⟨status, hl⟩
      exact w.logged.gone _ hl slot hj
    · intro hno
      cases w.staged.stages i hi with
      | working hs hj ha => exact ⟨_, hj⟩
      | ending hs hl => exact absurd ⟨_, hl⟩ hno
      | ended hl ha => exact absurd ⟨_, hl⟩ hno
  · rintro rfl
    exact t
  · obtain ⟨waiting, hcomp⟩ : ∃ waiting, completions past q.hub = [(status, waiting)] := by
      cases fate with
      | completed st =>
        cases hst
        exact t.1
      | removed st =>
        cases hst
        exact t
      | _ => cases hst
    obtain ⟨hall, last, hl, hverdict⟩ := w.staged.completed w.run hcomp
    refine ⟨fun id hid => ?_, q.job + (q.count - 1), last, ?_, hl, ?_⟩
    · obtain ⟨i, hi, rfl⟩ := p.mem_jobs.mp hid
      exact hall i hi
    · have hpos := w.staged.pos
      rw [p.jobs, getLast?_range', if_neg hpos.ne', Nat.add_sub_assoc hpos]
    · rw [hverdict, Plan.verdict, p.negated]
      rfl
  · cases fate with
    | running =>
      obtain ⟨u, hu, hhub⟩ := w.staged.exists_duty w.owned w.run w.logged
        (fun i hi => hall _ (p.mem_jobs.mpr ⟨i, hi, rfl⟩)) t
      rw [← p.hubs] at hhub
      exact absurd hhub (hnone u (hds u hu))
    | completed status => exact ⟨status, rfl⟩
    | removed status => exact ⟨status, rfl⟩
    | broken => exact t.elim

/-- Watches a machine do some pieces of its work. -/
def watch (call : PipelineCall) :
    ℕ → Machine × Log × Fate → Machine × Log × Fate
  | 0, seen => seen
  | n + 1, (m, settled, fate) => call.watch n
      (m.step, settled ++ m.settlements m.step, fate.see call.hub m.step.engine.hubs)

lemma Follows.watch (hf : call.Follows m settled fate) (n : ℕ) :
    call.Follows (call.watch n (m, settled, fate)).1 (call.watch n (m, settled, fate)).2.1
      (call.watch n (m, settled, fate)).2.2 := by
  induction n generalizing m settled fate with
  | zero => exact hf
  | succ n ih => exact ih (hf.goes (.step m))

/-- `! say a | ghost 9>&-`: a command cannot be launched with such a redirection. -/
def ghostly : PipelineCall where
  engine := initial {} talking.services {} false
  commands := [{ name := "say", args := [.text "a"] },
    { name := "ghost", redirections := [{ fd := 9, op := .output, target := .close }] }]
  ctx := {}
  parent := none
  negated := true

/-- The machine that was asked to run it. -/
def ghostlyMachine : Machine :=
  ⟨{ ghostly.started.2 with hubs := ghostly.started.2.hubs.retain ghostly.hub },
    ghostly.started.1.duties.map .duty ++ [.await ghostly.hub .request]⟩

/-- The last segment cannot be launched and settles first; the pipeline completes when the other one
has settled, too. -/
theorem pipeline_status_ghostly :
    ∃ m, ghostly.Follows m [(2, 127), (1, 0)] (.completed 0) ∧ ghostly.jobs.length = 2 ∧
      ∃ id last, ghostly.jobs.getLast? = some id ∧ (id, last) ∈ [(2, 127), (1, 0)] ∧
        0 = ghostly.verdict last := by
  have hlaunch : ghostly.Follows ghostlyMachine [] (Fate.running.see ghostly.hub _) :=
    .launch ⟨{}, talking.services, {}, false, .refl⟩
      (.request ghostly.engine ghostly.commands true rfl)
  have hwatch := hlaunch.watch 11
  have hseen : (ghostly.watch 11 (ghostlyMachine, [],
      Fate.running.see ghostly.hub ghostlyMachine.engine.hubs)).2 =
      ([(2, 127), (1, 0)], .completed 0) := by decide +kernel
  rw [hseen] at hwatch
  obtain ⟨-, ⟨hlength, -⟩, -, ⟨-, hstatus⟩, -⟩ := hwatch.pipeline_status ⟨_, mem_cons_self, rfl⟩
  exact ⟨_, hwatch, hlength.trans (by decide +kernel), (hstatus 0 rfl).2⟩

end PipelineCall

end JobShell
