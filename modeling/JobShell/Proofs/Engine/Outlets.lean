import JobShell.Proofs.Engine.Custody
import JobShell.Proofs.Engine.JobEnd
import JobShell.Proofs.Engine.Moves
import JobShell.Proofs.Hub.Tame

/-!
Where the output of jobs goes.

A job has an outlet: where its streams end and who hears of its own end. Jobs are made with their
outlets, and apart from that only the order to bring a job to the foreground touches one,
which turns background output into foreground output. Most of what an engine does leaves outlets
and buffers alone.

Output is kept in buffers only for substitutions, which run pipelines. Lists speak aloud, and so
does all that is put off or is to be called for them.
-/

namespace JobShell

open List Option

/-! ### Lists that speak aloud -/

/-- A context in which output is not kept. -/
def Context.Aloud (c : Context) : Prop := ∀ key, c.route ≠ .capture key

lemma Context.aloud_inBackground (c : Context) : c.inBackground.Aloud := by
  intro key
  simp [inBackground]

def Callback.Aloud : Callback → Prop
  | .runner r => r.ctx.Aloud
  | .logical _ _ _ ctx | .branch _ _ _ ctx => ctx.Aloud
  | .loop l => l.ctx.Aloud
  | .subshell _ _ | .negate _ => True

def Task.Aloud : Task → Prop
  | .advance r => r.ctx.Aloud
  | .loop _ _ _ _ ctx | .choice _ _ _ ctx => ctx.Aloud
  | .complete _ _ | .finalize _ _ | .flush _ | .runChain _ | .fail _ => True

namespace Hubs

variable {hs hs' : Hubs Callback} {cb : Callback} {slot : HubId}

/-- Someone waits for a hub and is to be called. -/
def Calls (hs : Hubs Callback) (cb : Callback) : Prop :=
  ∃ slot h key, hs.get? slot = some h ∧ (key, cb) ∈ h.subscribers

lemma Calls.of_tame (ht : Tame hs hs') (hc : hs'.Calls cb) : hs.Calls cb := by
  obtain ⟨slot, h', key, hg, hm⟩ := hc
  obtain ⟨h, hg, -, -, hl⟩ := ht slot h' hg
  exact ⟨slot, h, key, hg, hl.subset hm⟩

lemma Calls.of_update {h : Hub Callback} {f : Hub Callback → Hub Callback}
    (hg : hs.get? slot = some h) (hf : (f h).subscribers = h.subscribers)
    (hc : (hs.update slot f).Calls cb) : hs.Calls cb := by
  obtain ⟨k, h', key, hk, hm⟩ := hc
  by_cases he : k = slot
  · subst he
    cases (get?_update_self hg f).symm.trans hk
    exact ⟨k, h, key, hg, hf ▸ hm⟩
  · exact ⟨k, h', key, get?_update_of_ne hs f he ▸ hk, hm⟩

lemma Calls.of_insert (hc : Hubs.Calls (hs.insert {}) cb) : hs.Calls cb := by
  obtain ⟨slot, h, key, hg, hm⟩ := hc
  have hold : hs.get? slot = some h := by
    by_contra hne
    have hempty : h = {} := by
      rcases hf : hs.free with _ | ⟨j, rest⟩
      · simp only [Slab.insert, hf, Slab.get?, getElem?_append] at hg hne
        split at hg
        · exact absurd hg hne
        · rcases hd : slot - hs.slots.length with _ | d <;> simp [hd] at hg
          exact hg.symm
      · simp only [Slab.insert, hf, Slab.get?, getElem?_set] at hg hne
        split at hg
        · split at hg
          · simpa using hg.symm
          · simp at hg
        · exact absurd hg hne
    simp [hempty] at hm
  exact ⟨slot, h, key, hold, hm⟩

lemma Calls.of_create {parent : Option HubId} (hc : (hs.create parent).2.Calls cb) :
    hs.Calls cb := by
  cases parent with
  | none => exact Calls.of_insert hc
  | some p => exact (Calls.of_tame (tame_addChild _ _ _) hc).of_insert

lemma Calls.of_subscribe {key : ℕ} {new : Callback}
    (hsub : hs.subscribe slot new = some (key, hs')) (hc : hs'.Calls cb) :
    hs.Calls cb ∨ cb = new := by
  obtain ⟨h, hg, he⟩ := map_eq_some_iff.mp hsub
  cases he
  obtain ⟨k, h', key', hg', hm⟩ := hc
  rw [get?_update] at hg'
  split at hg'
  · rename_i hk
    subst hk
    rw [hg] at hg'
    cases hg'
    rcases mem_append.mp hm with hm | hm
    · exact .inl ⟨k, h, key', hg, hm⟩
    · exact .inr (congrArg Prod.snd (mem_singleton.mp hm))
  · exact .inl ⟨k, h', key', hg', hm⟩

/-- A duty that may complete a hub enters no subscriber and calls none. -/
lemma Calls.of_target {d : Duty} (ht : d.target? = some slot) :
    ((hs.perform d).1.Calls cb → hs.Calls cb) ∧
      ∀ status, (hs.perform d).2.1 = some (cb, status) → hs.Calls cb := by
  rcases hs.closed_or_open slot with hc | ⟨h, hg, hn⟩
  · rw [perform_closed ht hc]
    exact ⟨id, nofun⟩
  · by_cases hd : (h.heed d).IsDue
    · rw [perform_due ht hg hn hd]
      exact ⟨.of_update hg (h.fulfil_eq d).2.1, nofun⟩
    · rw [perform_waiting ht hg hn hd]
      exact ⟨.of_update hg (by cases d <;> rfl), nofun⟩

lemma Calls.of_perform {d : Duty} : ((hs.perform d).1.Calls cb → hs.Calls cb) ∧
    ∀ status, (hs.perform d).2.1 = some (cb, status) → hs.Calls cb := by
  cases d with
  | notify | sealOff | report => exact Calls.of_target rfl
  | settle slot => exact ⟨fun hc => hc.of_tame (tame_settle hs slot), by simp [perform]⟩
  | deliver slot status keys =>
    rcases keys with _ | ⟨key, keys⟩
    · exact ⟨id, by simp [perform]⟩
    rcases hg : hs.get? slot with _ | h
    · simp only [perform, hg]
      exact ⟨id, by simp⟩
    rcases hl : h.subscribers.lookup key with _ | callback
    · simp only [perform, hg, hl]
      exact ⟨id, by simp⟩
    · simp only [perform, hg, hl]
      have htame : Tame hs (hs.update slot (·.without key)) :=
        tame_update fun _ _ => ⟨rfl, rfl, filter_sublist⟩
      refine ⟨fun hc => hc.of_tame htame, fun st he => ?_⟩
      cases he
      obtain ⟨l1, l2, he, -⟩ := lookup_eq_some_iff.mp hl
      exact ⟨slot, h, key, hg, by simp [he]⟩

end Hubs

namespace Engine

/-- All that is put off and all who are to be called speak aloud. -/
structure Aloud (e : Engine) : Prop where
  tasks : ∀ t ∈ e.tasks, t.Aloud
  callbacks : ∀ cb, e.hubs.Calls cb → cb.Aloud

/-- What has been put off and who has subscribed since then speaks aloud. -/
structure Tends (e e' : Engine) : Prop where
  tasks : ∀ t ∈ e'.tasks, t ∈ e.tasks ∨ t.Aloud
  callbacks : ∀ cb, e'.hubs.Calls cb → e.hubs.Calls cb ∨ cb.Aloud

/-- Where the streams of a job end, foreground and background output being the same, its number in
the job table, and the hub that hears of its end. -/
structure Outlet where
  stdout : Sink
  stderr : Sink
  tableId : Option ℕ
  hub : HubId

end Engine

/-- An end that is foreground output is one of background output, too. -/
def Sink.lowered : Sink → Sink
  | .terminal => .console
  | s => s

def Job.outlet (j : Job) : Engine.Outlet := ⟨j.stdout.lowered, j.stderr.lowered, j.tableId, j.hub⟩

namespace Engine

def outlet? (e : Engine) (id : JobId) : Option Outlet := (e.job? id).map Job.outlet

/-- Jobs neither come nor go, and they have the outlets they had. -/
structure Placed (e e' : Engine) : Prop extends Tends e e' where
  outlet : ∀ i, e'.outlet? i = e.outlet? i
  nextJob : e'.nextJob = e.nextJob

/-- Nothing is written to a buffer, either. -/
structure Hushed (e e' : Engine) : Prop extends Placed e e' where
  captures : e'.captures = e.captures

variable {e e' e'' : Engine} {id i : JobId} {j k : Job}

lemma Tends.refl (e : Engine) : Tends e e := ⟨fun _ h => .inl h, fun _ h => .inl h⟩

lemma Tends.trans (h1 : Tends e e') (h2 : Tends e' e'') : Tends e e'' where
  tasks t ht := (h2.tasks t ht).elim (h1.tasks t) .inr
  callbacks cb hc := (h2.callbacks cb hc).elim (h1.callbacks cb) .inr

lemma Aloud.tends (h : e.Aloud) (ht : Tends e e') : e'.Aloud where
  tasks t hm := (ht.tasks t hm).elim (h.tasks t) id
  callbacks cb hc := (ht.callbacks cb hc).elim (h.callbacks cb) id

lemma Tends.of_eq (ht : e'.tasks = e.tasks) (hh : e'.hubs = e.hubs) : Tends e e' where
  tasks _ hm := .inl (ht ▸ hm)
  callbacks _ hc := .inl (hh ▸ hc)

lemma Placed.trans (h1 : Placed e e') (h2 : Placed e' e'') : Placed e e'' :=
  ⟨h1.toTends.trans h2.toTends, fun i => (h2.outlet i).trans (h1.outlet i),
    h2.nextJob.trans h1.nextJob⟩

lemma Hushed.refl (e : Engine) : Hushed e e := ⟨⟨.refl e, fun _ => rfl, rfl⟩, rfl⟩

lemma Hushed.trans (h1 : Hushed e e') (h2 : Hushed e' e'') : Hushed e e'' :=
  ⟨h1.toPlaced.trans h2.toPlaced, h2.captures.trans h1.captures⟩

lemma Hushed.of_eq (hj : e'.jobs = e.jobs) (hn : e'.nextJob = e.nextJob)
    (hc : e'.captures = e.captures) (ht : e'.tasks = e.tasks) (hh : e'.hubs = e.hubs) :
    Hushed e e' :=
  ⟨⟨.of_eq ht hh, fun i => by rw [outlet?, job?, hj]; rfl, hn⟩, hc⟩

lemma hushed_hubs (e : Engine) {hubs : Hubs Callback}
    (hc : ∀ cb, hubs.Calls cb → e.hubs.Calls cb ∨ cb.Aloud) : Hushed e { e with hubs } :=
  ⟨⟨⟨fun _ h => .inl h, hc⟩, fun _ => rfl, rfl⟩, rfl⟩

lemma hushed_defer (e : Engine) {t : Task} (ht : t.Aloud) : Hushed e (e.defer t) := by
  refine ⟨⟨⟨fun u hu => ?_, fun _ h => .inl h⟩, fun _ => rfl, rfl⟩, rfl⟩
  rcases mem_append.mp hu with hu | hu
  · exact .inl hu
  · exact .inr (mem_singleton.mp hu ▸ ht)

lemma hushed_write (e : Engine) (c : Channel) (data : Bytes) : Hushed e (e.write c data) :=
  .of_eq rfl rfl rfl rfl rfl

lemma outlet?_setJob (e : Engine) (id : JobId) (k : Job) (i : JobId) :
    (e.setJob id k).outlet? i = if i = id then (e.outlet? i).map fun _ => k.outlet
      else e.outlet? i := by
  rw [outlet?, job?_setJob]
  split <;> simp [outlet?, Function.comp_def]

lemma hushed_setJob (h : e.job? id = some j) (hk : k.outlet = j.outlet) :
    Hushed e (e.setJob id k) := by
  refine ⟨⟨.of_eq rfl rfl, fun i => ?_, rfl⟩, rfl⟩
  rw [outlet?_setJob]
  split
  · rename_i hi
    simp [hi, outlet?, h, hk]
  · rfl

lemma hushed_system (e : Engine) (system : System) : Hushed e { e with system } :=
  .of_eq rfl rfl rfl rfl rfl

/-! ### Input and output -/

lemma rousing_hushed : Rousing Hushed where
  refl := .refl
  trans := .trans
  system e _ _ := hushed_system e _
  body h _ := hushed_setJob h rfl
  rouse h _ _ := hushed_setJob h rfl
  ready _ _ := hushed_defer _ trivial

lemma audible_placed : Audible Placed where
  refl e := (Hushed.refl e).toPlaced
  trans := .trans
  system e _ _ := (hushed_system e _).toPlaced
  body h hb := (rousing_hushed.body h hb).toPlaced
  write e c data := (hushed_write e c data).toPlaced
  captures _ _ _ := ⟨.of_eq rfl rfl, fun _ => rfl, rfl⟩

end Engine

@[simp] lemma Buffers.add_nil (b : Buffers) (s : Stream) : b.add s [] = b := by
  cases s <;> simp [add]

namespace Engine

variable {e e' e'' : Engine} {id i : JobId} {j k : Job} {route : Route} {n : ℕ}

/-- The end of a stream. -/
def Outlet.sink (o : Outlet) : Stream → Sink
  | .stdout => o.stdout
  | .stderr => o.stderr

lemma sink_outlet (j : Job) (s : Stream) : j.outlet.sink s = (j.sink s).lowered := by
  cases s <;> rfl

/-- What was written to a stream has come to the buffer at its end, and to no other one. -/
def Poured (e e' : Engine) (sink : Sink) (s : Stream) (data : Bytes) : Prop :=
  ∀ key, e'.captures.get? key =
    (e.captures.get? key).map (·.add s (if sink = .capture key then data else []))

lemma poured_pour (e : Engine) (sink : Sink) (s : Stream) (data : Bytes) :
    Poured e (e.pour sink s data) sink s data := by
  intro key
  cases sink with
  | capture key' =>
    rw [pour, Slab.get?_modify]
    by_cases hk : key = key'
    · simp [hk]
    · simp [hk, Ne.symm hk]
  | forward next => cases s <;> simp [pour, (rousing_hushed.feed e next data).captures]
  | _ => cases s <;> simp [pour, write]

lemma poured_send {o : Outlet} (ho : e.outlet? id = some o) (s : Stream) (data : Bytes) :
    Poured e (e.send id s data) (o.sink s) s data := by
  intro key
  obtain ⟨j, hj, rfl⟩ := map_eq_some_iff.mp ho
  have hsink : j.sink s = .capture key ↔ j.outlet.sink s = .capture key := by
    rw [sink_outlet]
    cases j.sink s <;> simp [Sink.lowered]
  rw [send_eq_pour hj, poured_pour]
  simp only [hsink]

/-! ### Starting -/

lemma hushed_readied (e : Engine) (id : JobId) (j : Job) (mode : Mode) :
    Hushed e (e.readied id j mode) := by
  unfold readied
  dsimp only
  split <;> exact .of_eq rfl rfl rfl rfl rfl

/-- What is said of a job that cannot be launched. -/
def diagnostic (e : Engine) (id : JobId) (taps : Taps) : Bytes :=
  match e.native? id with
  | some (_, n) => (n.start id taps e.system).1.elim [] Text.encode
  | none => []

lemma placed_startJob (e : Engine) (id : JobId) (mode : Mode) (taps : Taps) :
    Placed e (e.startJob id mode taps).2 ∧ ∀ o, e.outlet? id = some o →
      Poured e (e.startJob id mode taps).2 o.stderr .stderr (e.diagnostic id taps) := by
  rcases hj : e.job? id with _ | j
  · simp only [startJob, hj]
    exact ⟨(Hushed.refl e).toPlaced, by simp [outlet?, hj]⟩
  have hready := hushed_readied e id j mode
  have hjob := job?_readied hj mode
  rcases hb : j.body with ch | n
  · have hnone : e.diagnostic id taps = [] := by simp [diagnostic, native?_eq_none hj hb]
    have hstart : Hushed e (e.startJob id mode taps).2 := by
      have hset := hready.trans (hushed_setJob (k := begun j mode (.chain (ch.start taps).2) j.live)
        hjob rfl)
      rw [startJob_chain hj hb]
      dsimp only
      split
      · exact hset.trans (hushed_defer _ trivial)
      · exact hset
    refine ⟨hstart.toPlaced, fun o _ key => ?_⟩
    simp [hnone, hstart.captures]
  · rcases hs : n.start id taps e.system with ⟨d, n', s⟩
    have hdiag : e.diagnostic id taps = d.elim [] Text.encode := by
      simp [diagnostic, native?_eq_some hj hb, hs]
    rw [startJob_native hj hb mode hs, hdiag]
    -- what is said is the last thing that is done
    have hlast : ∀ e2, Hushed e e2 →
        Placed e (e2.complain id d) ∧
        ∀ o, e.outlet? id = some o →
          Poured e (e2.complain id d) o.stderr .stderr
            (d.elim [] Text.encode) := by
      intro e2 h2
      rcases d with _ | d
      · exact ⟨h2.toPlaced, fun o _ key => by simp [complain, h2.captures]⟩
      · refine ⟨h2.toPlaced.trans (audible_placed.send e2 id _ _), fun o ho key => ?_⟩
        simp only [complain, Option.elim]
        rw [poured_send ((h2.outlet id).trans ho), h2.captures]
        rfl
    have hset : Hushed e (({ e.readied id j mode with system := s } : Engine).setJob id
        (begun j mode (.native n') !n'.processes.isEmpty)) :=
      (hready.trans (hushed_system _ s)).trans
        (hushed_setJob (e := { e.readied id j mode with system := s }) hjob rfl)
    dsimp only
    split
    · exact hlast _ (hset.trans (.of_eq rfl rfl rfl rfl rfl))
    · exact hlast _ (hset.trans (hushed_defer _ trivial))

/-- What is said of jobs that cannot be launched, in the order in which they are started. -/
def diagnostics (e : Engine) (route : Route) (fed : Bool) : List JobId → Bytes
  | [] => []
  | [job] => e.diagnostic job { route.taps e.config.inheritTerminal with stdin := fed }
  | job :: rest =>
    let e' := (e.startSegments route true rest).2
    e.diagnostics route true rest ++ e'.diagnostic job
      { stdin := fed, stdout := true, stderr := (route.taps e'.config.inheritTerminal).stderr }

lemma placed_startSegments (e : Engine) (route : Route) (fed : Bool) (js : List JobId) :
    Placed e (e.startSegments route fed js).2 ∧
      ∀ s, (∀ id ∈ js, (e.outlet? id).map (·.stderr) = some s) →
        Poured e (e.startSegments route fed js).2 s .stderr (e.diagnostics route fed js) := by
  induction js generalizing fed with
  | nil => exact ⟨(Hushed.refl e).toPlaced, fun s _ key => by simp [startSegments, diagnostics]⟩
  | cons job rest ih =>
    rcases rest with _ | ⟨next, rest⟩
    · obtain ⟨hplaced, hcaptures⟩ := placed_startJob e job route.mode
        { route.taps e.config.inheritTerminal with stdin := fed }
      refine ⟨hplaced, fun s hs key => ?_⟩
      obtain ⟨o, ho, rfl⟩ := map_eq_some_iff.mp (hs job mem_cons_self)
      exact hcaptures o ho key
    · obtain ⟨hrest, hcrest⟩ := ih true
      simp only [startSegments, diagnostics]
      set e1 := (e.startSegments route true (next :: rest)).2
      obtain ⟨hplaced, hcaptures⟩ := placed_startJob e1 job .background
        { stdin := fed, stdout := true, stderr := (route.taps e1.config.inheritTerminal).stderr }
      refine ⟨hrest.trans hplaced, fun s hs key => ?_⟩
      obtain ⟨o, ho, rfl⟩ := map_eq_some_iff.mp (hs job mem_cons_self)
      rw [hcaptures o ((hrest.outlet job).trans ho),
        hcrest o.stderr (fun id hid => hs id (mem_cons_of_mem _ hid)), Option.map_map]
      congr 1
      funext b
      by_cases hk : o.stderr = .capture key <;> simp [hk, Buffers.add]

/-! ### Making jobs -/

lemma tends_createHub (e : Engine) (parent : Option HubId) : Tends e (e.createHub parent).2 :=
  ⟨fun _ h => .inl h, fun _ hc => .inl hc.of_create⟩

lemma hushed_createHub (e : Engine) (parent : Option HubId) : Hushed e (e.createHub parent).2 :=
  ⟨⟨tends_createHub e parent, fun _ => rfl, rfl⟩, rfl⟩

/-- A job that was just made writes to one end, and is listed unless it is to be unlisted. -/
structure Outlet.Fresh (o : Outlet) (sink : Sink) (unlisted : Prop) : Prop where
  stdout : o.stdout = sink.lowered
  stderr : o.stderr = sink.lowered
  tableId : unlisted → o.tableId = none

lemma createJob_outlet (e : Engine) (kind : JobKind) (commands : List Command) (parent : HubId)
    (store : StoreId) (sink : Sink) (listed : Listing) :
    let e' := (e.createJob kind commands parent store sink listed).2
    Tends e e' ∧ e'.captures = e.captures ∧ e'.nextJob = e.nextJob + 1 ∧
      ∃ new : Outlet, new.Fresh sink (listed = none) ∧ ∀ i, e'.outlet? i = (e.outlet? i).or
        (if i = e.nextJob then some new else none) := by
  rw [createJob_eq]
  refine ⟨⟨fun _ h => .inl h, fun _ hc => .inl hc.of_create⟩, rfl, rfl,
    (e.newJob kind commands (e.createHub (some parent)).1 store sink listed).outlet,
    ⟨rfl, rfl, ?_⟩, fun i => ?_⟩
  · rintro rfl
    rfl
  · simp only [outlet?, job?, lookup_append, lookup_cons, lookup_nil]
    by_cases hi : i = e.nextJob
    · simp only [hi, beq_self_eq_true, if_true]
      rcases e.jobs.lookup e.nextJob <;> rfl
    · simp only [beq_eq_false_iff_ne.mpr hi, hi, if_false]
      rcases e.jobs.lookup i <;> rfl

lemma createSegments_outlet (e : Engine) (hub : HubId) (ctx : Context) (title : String)
    (groups : Groups) :
    let e' := (e.createSegments hub ctx title groups).2
    Tends e e' ∧ e'.captures = e.captures ∧ e'.nextJob = e.nextJob + groups.length ∧
      ∃ new : JobId → Outlet, (∀ i ∈ range' e.nextJob groups.length,
          (new i).Fresh ctx.route.sink (ctx.route.listed? = none)) ∧
        ∀ i, e'.outlet? i = (e.outlet? i).or
          (if i ∈ range' e.nextJob groups.length then some (new i) else none) := by
  induction groups generalizing e with
  | nil =>
    refine ⟨.refl e, rfl, rfl, fun _ => ⟨.console, .console, none, 0⟩, by simp, fun i => ?_⟩
    simp [createSegments]
  | cons g groups ih =>
    obtain ⟨kind, commands⟩ := g
    simp only [createSegments]
    set listed := if groups.isEmpty = true then ctx.route.listed?.map (·, title) else none with hl
    obtain ⟨ht, hc, hn, new1, hnew1, ho⟩ := createJob_outlet e kind commands hub ctx.store
      ctx.route.sink listed
    set e1 := (e.createJob kind commands hub ctx.store ctx.route.sink listed).2
    obtain ⟨ht', hc', hn', new2, hnew2, ho'⟩ := ih e1
    rw [length_cons, range'_succ]
    rw [hn] at hnew2 ho' hn'
    refine ⟨ht.trans ht', hc'.trans hc, ?_, fun i => if i = e.nextJob then new1 else new2 i, ?_, ?_⟩
    · rw [hn', Nat.add_assoc, Nat.add_comm 1]
    · intro i hi
      dsimp only
      by_cases hfirst : i = e.nextJob
      · rw [if_pos hfirst]
        exact ⟨hnew1.stdout, hnew1.stderr, fun hnone => hnew1.tableId (by simp [hl, hnone])⟩
      · rw [if_neg hfirst]
        exact hnew2 i ((mem_cons.mp hi).resolve_left hfirst)
    · intro i
      rw [ho', ho]
      by_cases hi : i = e.nextJob <;> simp [hi]

lemma connect_outlet (e : Engine) (a b : JobId) :
    Tends e (e.connect a b) ∧ (e.connect a b).captures = e.captures ∧
      (e.connect a b).nextJob = e.nextJob ∧ ∀ i, (e.connect a b).outlet? i =
        (e.outlet? i).map fun o => if i = a then { o with stdout := .forward b } else o := by
  rw [connect_eq]
  set e1 := e.amend a ({ · with stdout := .forward b }) with he1
  have hfirst : Tends e e1 ∧ e1.captures = e.captures ∧ e1.nextJob = e.nextJob ∧ ∀ i,
      e1.outlet? i = (e.outlet? i).map fun o =>
        if i = a then { o with stdout := .forward b } else o := by
    rcases hj : e.job? a with _ | j <;> rw [he1, amend, hj]
    · refine ⟨.refl e, rfl, rfl, fun i => ?_⟩
      by_cases hi : i = a
      · simp [hi, outlet?, hj]
      · simp [hi, Option.elim]
    · refine ⟨.of_eq rfl rfl, rfl, rfl, fun i => ?_⟩
      rw [elim_some, outlet?_setJob]
      by_cases hi : i = a
      · simp [hi, outlet?, hj, Job.outlet, Sink.lowered]
      · simp [hi]
  -- what is said of the feeder changes no outlet
  have hsecond : Hushed e1 (e1.amend b ({ · with feeder := some a })) := by
    rcases hj : e1.job? b with _ | k <;> simp only [amend, hj, Option.elim]
    · exact .refl e1
    · exact hushed_setJob hj rfl
  obtain ⟨ht, hc, hn, ho⟩ := hfirst
  exact ⟨ht.trans hsecond.toTends, hsecond.captures.trans hc, hsecond.nextJob.trans hn,
    fun i => (hsecond.outlet i).trans (ho i)⟩

/-- Of jobs numbered through, each but the last one feeds the next. -/
lemma connectAll_outlet (e : Engine) (a n : ℕ) :
    let e' := e.connectAll (range' a n)
    Tends e e' ∧ e'.captures = e.captures ∧ e'.nextJob = e.nextJob ∧ ∀ i : ℕ, e'.outlet? i =
      (e.outlet? i).map fun o =>
        if a ≤ i ∧ i + 1 < a + n then { o with stdout := .forward (i + 1) } else o := by
  induction n generalizing e a with
  | zero =>
    refine ⟨.refl e, rfl, rfl, fun i => ?_⟩
    simp [connectAll, show ¬ (a ≤ i ∧ i + 1 < a) by omega]
  | succ n ih =>
    rcases n with _ | n
    · refine ⟨.refl e, rfl, rfl, fun i => ?_⟩
      simp [connectAll, show ¬ (a ≤ i ∧ i < a) by omega]
    · obtain ⟨ht, hc, hn, ho⟩ := connect_outlet e a (a + 1)
      obtain ⟨ht', hc', hn', ho'⟩ := ih (e.connect a (a + 1)) (a + 1)
      have hall : e.connectAll (range' a (n + 1 + 1)) =
          (e.connect a (a + 1)).connectAll (range' (a + 1) (n + 1)) := by
        rw [range'_succ, range'_succ]
        rfl
      rw [hall]
      refine ⟨ht.trans ht', hc'.trans hc, hn'.trans hn, fun i => ?_⟩
      rw [ho', ho, Option.map_map]
      congr 1
      funext o
      simp only [Function.comp]
      by_cases hi : i = a
      · subst hi
        rw [if_neg (by omega), if_pos rfl, if_pos (by omega)]
      · have hiff : (a + 1 ≤ i ∧ i + 1 < a + 1 + (n + 1)) ↔ (a ≤ i ∧ i + 1 < a + (n + 1 + 1)) := by
          omega
        simp only [hi, if_false, hiff]

/-! ### Pipelines -/

/-- The outlet of a job of a pipeline: it feeds the next one, or else writes where the pipeline
does. -/
structure Outlet.Segment (o : Outlet) (route : Route) (next : Option JobId) : Prop where
  stdout : o.stdout = next.elim route.sink.lowered .forward
  stderr : o.stderr = route.sink.lowered
  tableId : route.listed? = none → o.tableId = none

/-- What is said of the jobs of a pipeline that cannot be launched. -/
def launchDiagnostics (e : Engine) (hub : HubId) (commands : List Command) (ctx : Context) :
    Bytes :=
  let (jobs, e) :=
    e.createSegments hub ctx (Command.pipeLine commands) (e.services.partition commands)
  (e.connectAll jobs).diagnostics ctx.route false jobs

/-- Some jobs were made and started for a pipeline; all others are where they were, and nothing but
what is said of the new ones was written to a buffer. -/
structure Launched (route : Route) (diagnostics : Bytes) (n : ℕ) (e e' : Engine) : Prop
    extends Tends e e' where
  nextJob : e'.nextJob = e.nextJob + n
  others : ∀ i ∉ range' e.nextJob n, e'.outlet? i = e.outlet? i
  segments : (∀ i ∈ range' e.nextJob n, e.outlet? i = none) → ∀ i ∈ range' e.nextJob n,
    ∃ o, e'.outlet? i = some o ∧
      o.Segment route (if i + 1 ∈ range' e.nextJob n then some (i + 1) else none)
  captures : (∀ i ∈ range' e.nextJob n, e.outlet? i = none) → ∀ key,
    e'.captures.get? key = (e.captures.get? key).map
      (·.add .stderr (if route = .capture key then diagnostics else []))

lemma Launched.then {diagnostics : Bytes}
    (h1 : Launched route diagnostics n e e') (h2 : Hushed e' e'') :
    Launched route diagnostics n e e'' where
  toTends := h1.toTends.trans h2.toTends
  nextJob := h2.nextJob.trans h1.nextJob
  others i hi := (h2.outlet i).trans (h1.others i hi)
  segments hf i hi := by
    rw [h2.outlet i]
    exact h1.segments hf i hi
  captures hf key := by
    rw [h2.captures]
    exact h1.captures hf key

lemma Hushed.andThen {diagnostics : Bytes} (h1 : Hushed e e')
    (h2 : Launched route diagnostics n e' e'') : Launched route diagnostics n e e'' := by
  have hn := h1.nextJob
  refine ⟨h1.toTends.trans h2.toTends, hn ▸ h2.nextJob, fun i hi => ?_, fun hf => ?_, fun hf => ?_⟩
  · exact (h2.others i (hn ▸ hi)).trans (h1.outlet i)
  · rw [← hn]
    exact h2.segments fun i hi => (h1.outlet i).trans (hf i (hn ▸ hi))
  · rw [← h1.captures]
    exact h2.captures fun i hi => (h1.outlet i).trans (hf i (hn ▸ hi))

lemma sink_eq_capture {key : ℕ} : route.sink.lowered = .capture key ↔ route = .capture key := by
  cases route <;> simp [Route.sink, Sink.lowered]

lemma launched_launchJobs (e : Engine) (hub : HubId) (commands : List Command) (ctx : Context) :
    Launched ctx.route (e.launchDiagnostics hub commands ctx) (e.services.partition commands).length
      e (e.launchJobs hub commands ctx).2.2 := by
  unfold launchJobs launchDiagnostics
  dsimp only
  generalize e.services.partition commands = groups
  generalize Command.pipeLine commands = title
  rw [(createSegments_eq hub ctx title groups e).1]
  obtain ⟨ht1, hc1, hn1, new, hnew, ho1⟩ := createSegments_outlet e hub ctx title groups
  set e1 := (e.createSegments hub ctx title groups).2
  obtain ⟨a, ha⟩ : ∃ a : ℕ, e.nextJob = a := ⟨_, rfl⟩
  rw [ha] at hnew ho1 hn1 ⊢
  set js := range' a groups.length with hjs
  obtain ⟨ht2, hc2, hn2, ho2⟩ := connectAll_outlet e1 a groups.length
  rw [← hjs] at ht2 hc2 hn2 ho2
  set e2 := e1.connectAll js
  obtain ⟨h3, hc3⟩ := placed_startSegments e2 ctx.route false js
  have hfeeds : ∀ i : ℕ, (a ≤ i ∧ i + 1 < a + groups.length) ↔ i ∈ js ∧ i + 1 ∈ js := by
    intro i
    rw [hjs, mem_range'_1, mem_range'_1]
    omega
  have hsegment : (∀ i ∈ js, e.outlet? i = none) → ∀ i ∈ js, ∃ o, e2.outlet? i = some o ∧
      o.Segment ctx.route (if i + 1 ∈ js then some (i + 1) else none) := by
    intro hfresh i hi
    have hf := hnew i hi
    rw [ho2 i, ho1 i, hfresh i hi, if_pos hi]
    refine ⟨_, rfl, ?_⟩
    dsimp only
    by_cases hnext : i + 1 ∈ js
    · rw [if_pos ((hfeeds i).mpr ⟨hi, hnext⟩), if_pos hnext]
      exact ⟨rfl, hf.stderr, hf.tableId⟩
    · rw [if_neg fun h => hnext ((hfeeds i).mp h).2, if_neg hnext]
      exact ⟨hf.stdout, hf.stderr, hf.tableId⟩
  refine ⟨(ht1.trans ht2).trans h3.toTends, ?_, fun i hi => ?_, fun hfresh i hi => ?_,
    fun hfresh key => ?_⟩
  · rw [h3.nextJob, hn2, hn1, ha]
  · rw [ha] at hi
    rw [h3.outlet i, ho2 i, ho1 i, if_neg hi, or_none]
    simp only [if_neg fun h => hi ((hfeeds i).mp h).1, Option.map_id']
  · rw [ha] at hfresh hi ⊢
    rw [h3.outlet i]
    exact hsegment hfresh i hi
  · rw [ha] at hfresh
    rw [hc3 ctx.route.sink.lowered fun id hid => ?_, hc2, hc1]
    · simp only [sink_eq_capture]
    · obtain ⟨o, ho, hs⟩ := hsegment hfresh id hid
      rw [ho, map_some, hs.stderr]

lemma hushed_subscribe {hub : HubId} {cb : Callback} (h : e.subscribe hub cb = .ok e')
    (hcb : cb.Aloud) : Hushed e e' := by
  unfold subscribe at h
  split at h
  · cases h
  · rename_i key hubs hsub
    cases h
    have hhubs : Hushed e { e with hubs } := hushed_hubs e fun cb' hc => by
      rcases hc.of_subscribe hsub with hc | rfl
      · exact .inl hc
      · exact .inr hcb
    split
    · exact hhubs.trans (hushed_defer _ trivial)
    · exact hhubs

lemma hushed_sealOff (e : Engine) (hub : HubId) :
    Hushed e { e with hubs := (e.hubs.sealOff hub).1 } :=
  hushed_hubs e fun _ hc => .inl ((Hubs.Calls.of_perform (d := .sealOff hub)).1 hc)

lemma hushed_oversee (e : Engine) (hub : HubId) (jobs : List JobId) (launched negated : Bool) :
    Hushed e (e.oversee hub jobs launched negated).2 := by
  rcases e.oversee_cases hub jobs launched negated with he | ⟨j, hs⟩
  · exact he ▸ hushed_sealOff e hub
  · exact hushed_subscribe hs trivial

/-- What is said of the commands of a pipeline that cannot be launched. -/
def pipelineDiagnostics (e : Engine) (commands : List Command) (ctx : Context)
    (parent : Option HubId) : Bytes :=
  let (hub, e) := e.createHub parent
  e.launchDiagnostics hub (commands.filter (!·.assignmentOnly)) ctx

lemma launched_startPipeline (e : Engine) (commands : List Command) (ctx : Context)
    (parent : Option HubId) (negated : Bool) :
    Launched ctx.route (e.pipelineDiagnostics commands ctx parent) (e.segments commands) e
      (e.startPipeline commands ctx parent negated).2 := by
  rw [startPipeline_eq]
  have hhub := hushed_createHub e parent
  have hservices : (e.createHub parent).2.services = e.services := rfl
  by_cases hempty : commands.filter (!·.assignmentOnly) = []
  · have hsegments : e.segments commands = 0 := by
      rw [segments, hempty]
      rfl
    rw [if_pos (by simp [hempty]), hsegments]
    have hdefer := hhub.trans
      (hushed_defer _ (t := .complete (e.createHub parent).1 0) trivial)
    refine ⟨hdefer.toTends, hdefer.nextJob, fun i _ => hdefer.outlet i, by simp, fun _ key => ?_⟩
    rw [hdefer.captures]
    have hnone : e.pipelineDiagnostics commands ctx parent = [] := by
      simp only [pipelineDiagnostics, hempty, launchDiagnostics]
      rfl
    simp [hnone]
  · rw [if_neg (by simpa using hempty)]
    exact (hhub.andThen (launched_launchJobs _ _ _ ctx)).then (hushed_oversee _ _ _ _ _)

/-! ### Ends of jobs -/

lemma hushed_passOn (e : Engine) (j : Job) : Hushed e (e.passOn j) :=
  rousing_hushed.passOn_of_live (.of_eq rfl rfl rfl rfl rfl) j

lemma hushed_announce (e : Engine) (id : JobId) (j : Job) (state : JobState) (status : Int) :
    Hushed e (e.announce id j state status) := by
  simp only [announce]
  rcases j.tableId with _ | n <;> split <;> exact .of_eq rfl rfl rfl rfl rfl

/-- A job has come to its end: all others are where they were, and what it leaves on its streams
has come to the buffer at its outlet, and to no other one. -/
structure Closes (id : JobId) (o : Outlet) (stdout stderr : Bytes) (e e' : Engine) : Prop
    extends Tends e e' where
  nextJob : e'.nextJob = e.nextJob
  outlet : ∀ i, e'.outlet? i = if i = id then none else e.outlet? i
  captures : ∀ key, e'.captures.get? key = (e.captures.get? key).map fun b =>
    (b.add .stdout (if o.stdout = .capture key then stdout else [])).add .stderr
      (if o.stderr = .capture key then stderr else [])

lemma outlet?_eraseJob (e : Engine) (id i : JobId) :
    (e.eraseJob id).outlet? i = if i = id then none else e.outlet? i := by
  rw [outlet?, job?_eraseJob]
  split <;> rfl

lemma closes_settle (hj : e.job? id = some j) (state : JobState) (status : Int) :
    Closes id j.outlet [] [] e (e.settle id state status).1 := by
  have hpass := (hushed_passOn e j).trans (hushed_announce (e.passOn j) id j state status)
  rw [settle_eq hj]
  refine ⟨hpass.toTends.trans (.of_eq rfl rfl), hpass.nextJob, fun i => ?_, fun key => ?_⟩
  · dsimp only
    rw [outlet?_eraseJob, hpass.outlet i]
  · have hcaptures : (((e.passOn j).announce id j state status).eraseJob id).captures =
        e.captures := hpass.captures
    simp [hcaptures]

lemma sendAny_outlet {o : Outlet} (ho : e.outlet? id = some o) (s : Stream) (data : Bytes) :
    Placed e (e.sendAny id s data) ∧ Poured e (e.sendAny id s data) (o.sink s) s data := by
  unfold sendAny
  split
  · rename_i hempty
    refine ⟨(Hushed.refl e).toPlaced, fun key => ?_⟩
    simp [List.isEmpty_iff.mp hempty]
  · exact ⟨audible_placed.send e id s data, poured_send ho s data⟩

lemma hushed_used (hj : e.job? id = some j) (c : Chain) (o : Chain.Outcome) (w : World) :
    Hushed e (e.used id j c o w) := by
  have hset : Hushed { e with system := { e.system with world := w } }
      (({ e with system := { e.system with world := w } } : Engine).setJob id (usedUp j c)) :=
    hushed_setJob (e := { e with system := { e.system with world := w } }) hj rfl
  exact ((hushed_system e _).trans hset).trans (.of_eq rfl rfl rfl rfl rfl)

lemma closes_runChain (hj : e.job? id = some j) {c : Chain} (hb : j.body = .chain c)
    {o : Chain.Outcome} {w : World}
    (ho : Chain.runAll e.config.failedStatus c.launches c.input e.system.world = (o, w)) :
    Closes id j.outlet o.stdout o.stderr e (e.runChain id).1 ∧
      (e.runChain id).2 = ([.notify j.hub o.status], o.pending.map (.finalize · j.store)) := by
  have hout : e.outlet? id = some j.outlet := by rw [outlet?, hj, map_some]
  have h0 := hushed_used hj c o w
  obtain ⟨h1, hc1⟩ := sendAny_outlet ((h0.outlet id).trans hout) .stdout o.stdout
  set e1 := (e.used id j c o w).sendAny id .stdout o.stdout
  have hout1 : e1.outlet? id = some j.outlet := (h1.outlet id).trans ((h0.outlet id).trans hout)
  obtain ⟨h2, hc2⟩ := sendAny_outlet hout1 .stderr o.stderr
  set e2 := e1.sendAny id .stderr o.stderr
  obtain ⟨k, hk, hko⟩ := map_eq_some_iff.mp ((h2.outlet id).trans hout1)
  have hplaced := (h0.toPlaced.trans h1).trans h2
  have hsettle := closes_settle hk .terminated o.status
  have hrun := runChain_eq hj hb ho
  simp only at hrun
  rw [hrun]
  refine ⟨⟨hplaced.toTends.trans hsettle.toTends, hsettle.nextJob.trans hplaced.nextJob,
    fun i => ?_, fun key => ?_⟩, ?_⟩
  · rw [hsettle.outlet i, hplaced.outlet i]
  · rw [hsettle.captures key, hc2 key, hc1 key, h0.captures]
    rcases e.captures.get? key with _ | b
    · rfl
    · simp only [map_some, ite_self, Buffers.add_nil]
      rfl
  · rw [settle_eq hk, show k.hub = j.hub from congrArg Outlet.hub hko]

/-! ### Job control and finalizers -/

lemma hushed_foreground (h : e.foreground n = .ok e') : Hushed e e' := by
  obtain ⟨i, j, system, -, hjob, -, rfl⟩ := foreground_eq_ok h
  have hraised : ∀ s : Sink, s.raised.lowered = s.lowered := by
    intro s
    cases s <;> rfl
  have hset : Hushed e (e.setJob i j.raised) := hushed_setJob hjob (by
    simp only [Job.outlet, Job.raised, hraised])
  exact hset.trans (.of_eq rfl rfl rfl rfl rfl)

lemma hushed_background (h : e.background n = .ok e') : Hushed e e' := by
  obtain ⟨i, j, system, hjob, -, rfl⟩ := background_eq_ok h
  exact (hushed_setJob (k := { j with mode := .background }) hjob rfl).trans (hushed_system _ _)

lemma hushed_jobControl? {c : Command} {status : Int}
    (h : e.jobControl? c route = some (status, e')) : Hushed e e' := by
  rcases jobControl?_eq_some h with ⟨channel, data, rfl⟩ | ⟨n, hn⟩ | ⟨n, hn⟩
  · exact hushed_write e channel data
  · exact hushed_foreground hn
  · exact hushed_background hn

lemma hushed_finalize (e : Engine) (p : Chain.Pending) (store : StoreId) :
    Hushed e (e.finalize p store) :=
  finalize_of .refl .trans hushed_write (.of_eq rfl rfl rfl rfl rfl)

end Engine

end JobShell
