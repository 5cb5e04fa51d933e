import JobShell.Proofs.Engine.Evaluation
import JobShell.Proofs.Engine.JobOrder

/-!
A pipeline of one command.

As a step of a list it is evaluated like the command itself, and both start the same job. What they
differ in is what only a list does by itself: it keeps the variables of a command that sets no more
than these, it works on the job table, and in the background it shows the command with an ampersand.
-/

namespace JobShell

open Machine JobShell.Tree List Expansion Function Command

/-! ### Titles -/

def Job.untitled (j : Job) : Job := { j with command := "" }

def JobTable.Entry.untitled (d : JobTable.Entry) : JobTable.Entry := { d with command := "" }

def JobTable.untitled (t : JobTable) : JobTable :=
  { t with entries := t.entries.map fun (i, d) => (i, d.untitled) }

/-- An engine without the texts its jobs are shown with. -/
def Engine.untitled (e : Engine) : Engine :=
  { e with jobs := e.jobs.map fun (id, j) => (id, j.untitled), table := e.table.untitled }

namespace JobTable

variable (t : JobTable)

lemma entry?_untitled (id : ℕ) : t.untitled.entry? id = (t.entry? id).map Entry.untitled := by
  simp only [untitled, entry?]
  induction t.entries with
  | nil => rfl
  | cons p ps ih =>
    obtain ⟨i, d⟩ := p
    by_cases h : id = i
    · simp [h]
    · have hb : (id == i) = false := by simpa using h
      simp [lookup_cons, hb, ih]

lemma contains_untitled (id : ℕ) : t.untitled.contains id = t.contains id := by
  simp [contains, entry?_untitled]

lemma freshId_untitled : t.untitled.freshId = t.freshId := by
  simp only [freshId, contains_untitled]
  simp [untitled]

lemma insertEntry_untitled (id : ℕ) (d : Entry) (ds : List (ℕ × Entry)) :
    (insertEntry id d ds).map (fun (i, d) => (i, d.untitled)) =
      insertEntry id d.untitled (ds.map fun (i, d) => (i, d.untitled)) := by
  induction ds with
  | nil => rfl
  | cons p ps ih =>
    obtain ⟨i, k⟩ := p
    by_cases h : id < i
    · simp [insertEntry, h]
    · simp [insertEntry, h, ih]

lemma add_untitled (job : JobId) (text : String) (foreground : Bool) :
    ((t.add job text foreground).1, (t.add job text foreground).2.untitled) =
      t.untitled.add job "" foreground := by
  simp only [add, freshId_untitled]
  simp only [untitled, insertEntry_untitled]
  rfl

lemma update_untitled (id : ℕ) (state : JobState) (status : Option Int) :
    (t.update id state status).2.untitled = (t.untitled.update id state status).2 := by
  have hmap : (t.entries.map fun (i, d) =>
      if i = id then (i, { d with state, status }) else (i, d)).map
      (fun (i, d) => (i, Entry.untitled d)) = t.untitled.entries.map fun (i, d) =>
      if i = id then (i, { d with state, status }) else (i, d) := by
    simp only [untitled, map_map]
    refine map_congr_left fun p _ => ?_
    dsimp only [comp_apply]
    split_ifs <;> rfl
  have hfg : t.untitled.foreground = t.foreground := rfl
  unfold update
  rw [contains_untitled, hfg]
  split_ifs
  · simp only [untitled, eraseEntry, filter_map, comp_def]
    rfl
  · simp only [← hmap]
    rfl
  · simp only [← hmap]
    rfl
  · rfl

end JobTable

namespace Engine

section Untitled

variable (e : Engine)

lemma job?_untitled (id : JobId) : e.untitled.job? id = (e.job? id).map Job.untitled := by
  simp only [job?, untitled]
  induction e.jobs with
  | nil => rfl
  | cons p ps ih =>
    obtain ⟨i, j⟩ := p
    by_cases h : id = i
    · simp [h]
    · have hb : (id == i) = false := by simpa using h
      simp [lookup_cons, hb, ih]

lemma setJob_untitled (id : JobId) (j : Job) :
    (e.setJob id j).untitled = e.untitled.setJob id j.untitled := by
  simp only [setJob, untitled, map_map]
  congr 1
  refine map_congr_left fun p _ => ?_
  dsimp only [comp_apply]
  split_ifs <;> rfl

lemma feed_untitled (id : JobId) (data : Bytes) :
    (e.feed id data).untitled = e.untitled.feed id data := by
  unfold feed
  rw [job?_untitled]
  rcases e.job? id with _ | j
  · rfl
  · rcases hb : j.body with c | n
    · simp only [Option.map_some, Job.untitled, hb, setJob_untitled]
    · simp only [Option.map_some, Job.untitled, hb]
      rfl

lemma pour_untitled (sink : Sink) (stream : Stream) (data : Bytes) :
    (e.pour sink stream data).untitled = e.untitled.pour sink stream data := by
  cases sink with
  | forward next => exact feed_untitled e next data
  | terminal | console | capture => cases stream <;> rfl

lemma send_untitled (id : JobId) (stream : Stream) (data : Bytes) :
    (e.send id stream data).untitled = e.untitled.send id stream data := by
  unfold send
  rw [job?_untitled]
  rcases e.job? id with _ | j
  · rfl
  · have hsink : j.untitled.sink stream = j.sink stream := by cases stream <;> rfl
    simp only [Option.map_some, hsink, pour_untitled]

lemma readied_untitled (id : JobId) (j : Job) :
    (e.readied id j .background).untitled = e.untitled.readied id j.untitled .background := by
  have htable : (j.tableId.elim e.table fun n => (e.table.update n .running none).2).untitled =
      j.tableId.elim e.table.untitled fun n => (e.table.untitled.update n .running none).2 := by
    cases j.tableId with
    | none => rfl
    | some n => exact JobTable.update_untitled _ n _ _
  simp only [readied, reduceCtorEq, if_false, untitled, htable]
  rfl

lemma startJob_untitled (id : JobId) (taps : Taps) :
    (e.startJob id .background taps).1 = (e.untitled.startJob id .background taps).1 ∧
      (e.startJob id .background taps).2.untitled =
        (e.untitled.startJob id .background taps).2 := by
  rcases hj : e.job? id with _ | j
  · have hj' : e.untitled.job? id = none := by rw [job?_untitled, hj]; rfl
    simp only [startJob, hj, hj', and_self]
  · have hj' : e.untitled.job? id = some j.untitled := by rw [job?_untitled, hj]; rfl
    rcases hb : j.body with c | n
    · have hb' : j.untitled.body = .chain c := hb
      refine ⟨by simp only [startJob, hj, hj', hb, hb'], ?_⟩
      rw [startJob_chain hj hb, startJob_chain hj' hb', ← readied_untitled]
      dsimp only
      split_ifs
      · exact congrArg (defer · (.runChain id)) (setJob_untitled _ id _)
      · exact setJob_untitled _ id _
    · have hb' : j.untitled.body = .native n := hb
      rcases hs : n.start id taps e.system with ⟨d, n', s⟩
      have hs' : n.start id taps e.untitled.system = (d, n', s) := hs
      refine ⟨?_, ?_⟩
      · simp only [startJob, hj, hj', hb, hb', readied_eq, hs, hs']
      · rw [startJob_native hj hb _ hs, startJob_native hj' hb' _ hs', ← readied_untitled]
        have hset := setJob_untitled { e.readied id j .background with system := s } id
          (begun j .background (.native n') !n'.processes.isEmpty)
        have hbody : ∀ e1 e2 : Engine, e1.untitled = e2 →
            (if !n'.processes.isEmpty then ({ e1 with live := e1.live + 1 } : Engine)
              else e1.defer (.fail id)).untitled =
            if !n'.processes.isEmpty then { e2 with live := e2.live + 1 }
              else e2.defer (.fail id) := by
          rintro e1 _ rfl
          split_ifs <;> rfl
        rcases d with _ | d
        · exact hbody _ _ hset
        · exact (send_untitled _ id .stderr _).trans
            (congrArg (send · id .stderr (Text.encode d)) (hbody _ _ hset))

lemma createJob_untitled (kind : JobKind) (c : Command) (parent : HubId) (store : StoreId)
    (sink : Sink) (foreground : Bool) (title title' : String) :
    (e.createJob kind [c] parent store sink (some (foreground, title))).2.untitled =
      (e.createJob kind [{ c with background := true }] parent store sink
        (some (foreground, title'))).2.untitled := by
  have hadd := fun text => (e.table.add_untitled e.nextJob text foreground)
  have htable : ∀ text, (e.table.add e.nextJob text foreground).2.untitled =
      (e.table.untitled.add e.nextJob "" foreground).2 :=
    fun text => congrArg Prod.snd (hadd text)
  simp only [createJob, enter, createHub, untitled, map_append, htable]
  rfl

/-- A pipeline of one command has one job, and nothing to connect. -/
lemma startPipeline_one {c : Command} (hc : c.assignmentOnly = false) (ctx : Context)
    (parent : Option HubId) :
    e.startPipeline [c] ctx parent false =
      let hub := (e.createHub parent).1
      let p := (e.createHub parent).2.createJob (e.services.kindOf c.name) [c] hub ctx.store
        ctx.route.sink (ctx.route.listed?.map (·, pipeLine [c]))
      let q := p.2.startJob p.1 ctx.route.mode
        { ctx.route.taps p.2.config.inheritTerminal with stdin := false }
      (⟨hub, q.1, (q.2.hubs.sealOff hub).2⟩, { q.2 with hubs := (q.2.hubs.sealOff hub).1 }) := by
  simp only [startPipeline, hc, filter_cons, filter_nil, Bool.not_false, if_true, isEmpty_cons,
    Bool.false_eq_true, if_false]
  rfl

lemma hubs_of_untitled {e e' : Engine} (h : e.untitled = e'.untitled) :
    e.hubs = e'.hubs ∧ ∀ hubs, ({ e with hubs } : Engine).untitled = { e' with hubs }.untitled :=
  ⟨show e.untitled.hubs = e'.untitled.hubs by rw [h], fun hubs =>
    show ({ e.untitled with hubs } : Engine) = { e'.untitled with hubs } by rw [h]⟩

/-- In the background a command is started the same way whatever it is shown with. -/
lemma startPipeline_untitled {c : Command} (hc : c.assignmentOnly = false) (ctx : Context) :
    let p := e.startPipeline [c] ctx.inBackground none false
    let q := e.startPipeline [{ c with background := true }] ctx.inBackground none false
    p.1 = q.1 ∧ p.2.untitled = q.2.untitled := by
  have hstart : ∀ (hub : HubId) (id : JobId) (taps : Taps) {e e' : Engine},
      e.untitled = e'.untitled →
      let q := e.startJob id .background taps
      let q' := e'.startJob id .background taps
      (⟨hub, q.1, (q.2.hubs.sealOff hub).2⟩ : Started) =
          ⟨hub, q'.1, (q'.2.hubs.sealOff hub).2⟩ ∧
        ({ q.2 with hubs := (q.2.hubs.sealOff hub).1 } : Engine).untitled =
          { q'.2 with hubs := (q'.2.hubs.sealOff hub).1 }.untitled := by
    intro hub id taps e e' he q q'
    obtain ⟨hone, htwo⟩ := startJob_untitled e id taps
    obtain ⟨hone', htwo'⟩ := startJob_untitled e' id taps
    rw [he] at hone htwo
    have hlaunched : q.1 = q'.1 := hone.trans hone'.symm
    have huntitled : q.2.untitled = q'.2.untitled := htwo.trans htwo'.symm
    obtain ⟨hhubs, hset⟩ := hubs_of_untitled huntitled
    rw [hlaunched, hhubs]
    exact ⟨rfl, hset _⟩
  rw [startPipeline_one e hc, startPipeline_one e (c := { c with background := true }) hc]
  exact hstart _ _ _ (createJob_untitled (e.createHub none).2 _ c _ _ _ _ _ _)

end Untitled

/-! ### Evaluation -/

/-- A list that runs an item as its next step. -/
def atItem (e : Engine) (r : Runner) (node : Node) (background : Bool) (steps : List Step)
    (ws : List Work) : Machine :=
  ⟨e, .advance { r with steps := .item ⟨node, background⟩ :: steps } :: ws⟩

lemma commands_single (scope : Scope) (c : Simple) :
    (commands scope [c]).run = (c.command scope).run.map (Except.map fun c => [c]) := by
  rw [commands, commands]
  refine congrArg (Expansion.bind (c.command scope).run) (funext fun r => ?_)
  cases r <;> rfl

lemma step_command (e : Engine) (r : Runner) (c : Simple) (background : Bool) (steps : List Step)
    (ws : List Work) :
    step (atItem e r (.command c) background steps ws) =
      ⟨e, .evaluate r.ctx.store ((c.command r.ctx.scope).run.map
        (.command { r with steps } background)) :: ws⟩ := rfl

lemma step_pipeline (e : Engine) (r : Runner) (c : Simple) (background : Bool) (steps : List Step)
    (ws : List Work) :
    step (atItem e r (.pipeline [c] false) background steps ws) =
      ⟨e, .evaluate r.ctx.store ((c.command r.ctx.scope).run.map fun a =>
        .pipeline { r with steps } background false (a.map fun c => [c])) :: ws⟩ := by
  have hmap : (commands r.ctx.scope [c]).run.map
      (Built.pipeline { r with steps } background false) =
      (c.command r.ctx.scope).run.map fun a =>
        Built.pipeline { r with steps } background false (a.map fun c => [c]) := by
    rw [commands_single]
    exact bind_assoc _ _ _
  exact congrArg (fun x => (⟨e, .evaluate r.ctx.store x :: ws⟩ : Machine)) hmap

/-- The outcome of a command with a name. -/
def Runs (a : Except Fault Command) : Prop :=
  ∀ c, a = .ok c → c.assignmentOnly = false ∧ c.background = false

lemma runs_error (f : Fault) : Runs (.error f) := by
  intro c h
  cases h

lemma all_command {c : Simple} (hc : c.name.isSome) (scope : Scope) :
    (c.command scope).run.All Runs := by
  obtain ⟨assigned, name, args, redirects⟩ := c
  obtain ⟨name, rfl⟩ := Option.isSome_iff_exists.mp hc
  rw [Simple.command]
  refine all_bind _ (fun scope => ?_) runs_error
  refine all_bind _ (fun text => ?_) runs_error
  refine all_bind _ (fun target => ?_) runs_error
  dsimp only
  split
  · exact runs_error _
  · rename_i hname
    refine all_bind _ (fun args => ?_) runs_error
    refine all_bind _ (fun redirections => ?_) runs_error
    intro c h
    cases h
    exact ⟨by simpa [assignmentOnly] using hname, rfl⟩

/-! ### Both ways -/

variable {a : Except Fault Command}

/-- In the foreground the outcome of the words is treated alike. -/
lemma built_single (ha : Runs a)
    (hjob : ∀ c, a = .ok c → c.name ∉ ["jobs", "fg", "bg"]) (e : Engine) (r : Runner) :
    e.built (.command r false a) = e.built (.pipeline r false false (a.map fun c => [c])) := by
  cases a with
  | error f => rfl
  | ok c =>
    obtain ⟨hc, hb⟩ := ha c rfl
    have hcb : ({ c with background := false } : Command) = c := by rw [← hb]
    have hnone := jobControl?_eq_none (hjob c rfl) e r.ctx.route
    simp only [built, hcb, commandStep, hc, Bool.false_eq_true, if_false, hnone, Except.map]

/-- In the background it is treated alike but for what the job is shown with. -/
lemma built_single_background (ha : Runs a)
    (hjob : ∀ c, a = .ok c → c.name ∉ ["jobs", "fg", "bg"]) (e : Engine) (r : Runner) :
    let p := e.built (.command r true a)
    let q := e.built (.pipeline r true false (a.map fun c => [c]))
    p.2 = q.2 ∧ p.1.untitled = q.1.untitled := by
  cases a with
  | error f => exact ⟨rfl, rfl⟩
  | ok c =>
    obtain ⟨hc, -⟩ := ha c rfl
    have hc' : assignmentOnly { c with background := true } = false := hc
    have hnone :=
      jobControl?_eq_none (c := { c with background := true }) (hjob c rfl) e r.ctx.route
    obtain ⟨hstart, huntitled⟩ := startPipeline_untitled e hc r.ctx
    have hconfig : (e.startPipeline [c] r.ctx.inBackground none false).2.config =
        (e.startPipeline [{ c with background := true }] r.ctx.inBackground none false).2.config :=
      show config (untitled _) = config (untitled _) by rw [huntitled]
    simp only [built, commandStep, hc', Bool.false_eq_true, if_false, hnone, Except.map,
      pipelineStep, if_true]
    exact ⟨by rw [hstart, hconfig], huntitled.symm⟩

end Engine

/-- The reply that some work is. -/
def Work.reply? : Work → Option (Except Fault Reply)
  | .reply r => some r
  | _ => none

namespace Machine

/-- Two machines that cannot be told apart from outside. -/
structure Looks (m m' : Machine) : Prop where
  engine : m.engine = m'.engine
  head : m.stack.head?.map Work.reply? = m'.stack.head?.map Work.reply?

lemma Looks.refl (m : Machine) : m.Looks m := ⟨rfl, rfl⟩

lemma run_cons (fuel : ℕ) (e : Engine) (w : Work) (ws : List Work) :
    run (fuel + 1) ⟨e, w :: ws⟩ =
      w.reply?.elim (run fuel (step ⟨e, w :: ws⟩)) fun r => some (r, e) := by
  cases w <;> rfl

/-- Machines that cannot be told apart at any step give the same reply. -/
lemma run_congr {m m' : Machine} (h : ∀ n, Looks (step^[n] m) (step^[n] m')) (fuel : ℕ) :
    run fuel m = run fuel m' := by
  induction fuel generalizing m m' with
  | zero => rfl
  | succ fuel ih =>
    obtain ⟨e, stack⟩ := m
    obtain ⟨e', stack'⟩ := m'
    obtain ⟨he, hhead⟩ := h 0
    obtain rfl : e = e' := he
    have hnext : run fuel (step ⟨e, stack⟩) = run fuel (step ⟨e, stack'⟩) := ih fun n => h (n + 1)
    rcases stack with _ | ⟨w, ws⟩ <;> rcases stack' with _ | ⟨w', ws'⟩
    · rfl
    · simp at hhead
    · simp at hhead
    · have hreply : w.reply? = w'.reply? := by simpa using hhead
      rw [run_cons, run_cons, hreply, hnext]

end Machine

namespace Engine

variable {α : Type} {x : Expansion α} {P : α → Prop}

lemma Evaluating.looks {e e' : Engine} {store : StoreId} {top : List Work} {mid : Midway α} {n : ℕ}
    (h : Evaluating e store x e' top mid n) (f g : α → Built) (ws : List Work) :
    Looks (step^[n] ⟨e, .evaluate store (x.map f) :: ws⟩)
      (step^[n] ⟨e, .evaluate store (x.map g) :: ws⟩) := by
  rw [h f ws, h g ws]
  refine ⟨rfl, ?_⟩
  rcases top with _ | ⟨w, top⟩
  · cases mid <;> rfl
  · rfl

/-- An evaluation looks the same whatever it is for, at each step up to its end. -/
lemma looks_or_evaluates (hP : x.All P) (e : Engine) (store : StoreId) (f g : α → Built)
    (ws : List Work) :
    let look := fun n => Looks (step^[n] ⟨e, .evaluate store (x.map f) :: ws⟩)
      (step^[n] ⟨e, .evaluate store (x.map g) :: ws⟩)
    (∀ n, look n) ∨ ∃ k a e', P a ∧ Evaluates e store x a e' k ∧ ∀ n ≤ k, look n := by
  classical
  intro look
  by_cases hends : ∃ k, ∃ a e', P a ∧ Evaluates e store x a e' k
  · obtain ⟨a, e', ha, hk⟩ := Nat.find_spec hends
    refine .inr ⟨Nat.find hends, a, e', ha, hk, fun n hn => ?_⟩
    rcases evaluates_or_evaluating hP e store n with ⟨k, hk, hend⟩ | ⟨_, _, _, -, hmid⟩
    · exact absurd hend (Nat.find_min hends (by omega))
    · exact hmid.looks f g ws
  · refine .inl fun n => ?_
    rcases evaluates_or_evaluating hP e store n with ⟨k, -, hend⟩ | ⟨_, _, _, -, hmid⟩
    · exact absurd ⟨k, hend⟩ hends
    · exact hmid.looks f g ws

lemma Evaluates.step_built {e e' : Engine} {store : StoreId} {a : α} {k : ℕ}
    (h : Evaluates e store x a e' k) (f : α → Built) (ws : List Work) :
    step^[k + 1] ⟨e, .evaluate store (x.map f) :: ws⟩ =
      ⟨(e'.built (f a)).1, (e'.built (f a)).2 ++ ws⟩ := by
  rw [iterate_succ_apply', h f ws]
  rfl

section Single

variable {e : Engine} {r : Runner} {c : Simple} (hc : c.name.isSome)
  (hjob : ∀ c' e' k, e.Evaluates r.ctx.store (c.command r.ctx.scope).run (.ok c') e' k →
    c'.name ∉ ["jobs", "fg", "bg"]) (steps : List Step) (ws : List Work)
include hc hjob

lemma looks_foreground (n : ℕ) :
    Looks (step^[n] (e.atItem r (.command c) false steps ws))
      (step^[n] (e.atItem r (.pipeline [c] false) false steps ws)) := by
  cases n with
  | zero => exact ⟨rfl, rfl⟩
  | succ n =>
    rw [iterate_succ_apply, iterate_succ_apply, step_command, step_pipeline]
    rcases looks_or_evaluates (all_command hc r.ctx.scope) e r.ctx.store
        (.command { r with steps } false)
        (fun a => .pipeline { r with steps } false false (a.map fun c => [c])) ws with
      hall | ⟨k, a, e', ha, hk, hlook⟩
    · exact hall n
    · by_cases hn : n ≤ k
      · exact hlook n hn
      · -- the words have been evaluated, and both went on alike
        obtain ⟨j, rfl⟩ : ∃ j, n = j + (k + 1) := ⟨n - (k + 1), by omega⟩
        rw [iterate_add_apply, iterate_add_apply _ j, hk.step_built,
          hk.step_built, built_single ha fun c hc => hjob c e' k (hc ▸ hk)]
        exact .refl _

lemma engine_background :
    let m := e.atItem r (.command c) true steps ws
    let m' := e.atItem r (.pipeline [c] false) true steps ws
    (∀ n, (step^[n] m).engine = (step^[n] m').engine) ∨
      ∃ k, (∀ n < k, (step^[n] m).engine = (step^[n] m').engine) ∧
        (step^[k] m).stack = (step^[k] m').stack ∧
        (step^[k] m).engine.untitled = (step^[k] m').engine.untitled := by
  intro m m'
  have hstep : ∀ n, step^[n + 1] m = step^[n] _ := fun n => by
    rw [iterate_succ_apply, step_command]
  have hstep' : ∀ n, step^[n + 1] m' = step^[n] _ := fun n => by
    rw [iterate_succ_apply, step_pipeline]
  rcases looks_or_evaluates (all_command hc r.ctx.scope) e r.ctx.store
      (.command { r with steps } true)
      (fun a => .pipeline { r with steps } true false (a.map fun c => [c])) ws with
    hall | ⟨k, a, e', ha, hk, hlook⟩
  · refine .inl fun n => ?_
    cases n with
    | zero => rfl
    | succ n => rw [hstep, hstep']; exact (hall n).engine
  · obtain ⟨hwork, huntitled⟩ :=
      built_single_background ha (fun c hc => hjob c e' k (hc ▸ hk)) e' { r with steps }
    refine .inr ⟨k + 2, fun n hn => ?_, ?_, ?_⟩
    · cases n with
      | zero => rfl
      | succ n => rw [hstep, hstep']; exact (hlook n (by omega)).engine
    · rw [hstep, hstep', hk.step_built, hk.step_built]
      exact congrArg (· ++ ws) hwork
    · rw [hstep, hstep', hk.step_built, hk.step_built]
      exact huntitled

end Single

/-- A pipeline of one command does as the command does, unless that only sets variables or works on
the job table: in the foreground at every step and in its reply, and in the background up to the
start of the job, which is the same but for the text it is shown with. -/
theorem pipeline_of_one (e : Engine) (r : Runner) (c : Simple) (steps : List Step) (ws : List Work)
    (hc : c.name.isSome)
    (hjob : ∀ c' e' k, e.Evaluates r.ctx.store (c.command r.ctx.scope).run (.ok c') e' k →
      c'.name ∉ ["jobs", "fg", "bg"]) :
    (∀ n, (step^[n] (e.atItem r (.command c) false steps ws)).engine =
      (step^[n] (e.atItem r (.pipeline [c] false) false steps ws)).engine) ∧
    (∀ fuel, Machine.run fuel (e.atItem r (.command c) false steps ws) =
      Machine.run fuel (e.atItem r (.pipeline [c] false) false steps ws)) ∧
    ((∀ n, (step^[n] (e.atItem r (.command c) true steps ws)).engine =
        (step^[n] (e.atItem r (.pipeline [c] false) true steps ws)).engine) ∨
      ∃ k, (∀ n < k, (step^[n] (e.atItem r (.command c) true steps ws)).engine =
          (step^[n] (e.atItem r (.pipeline [c] false) true steps ws)).engine) ∧
        (step^[k] (e.atItem r (.command c) true steps ws)).stack =
          (step^[k] (e.atItem r (.pipeline [c] false) true steps ws)).stack ∧
        (step^[k] (e.atItem r (.command c) true steps ws)).engine.untitled =
          (step^[k] (e.atItem r (.pipeline [c] false) true steps ws)).engine.untitled) :=
  ⟨fun n => (looks_foreground hc hjob steps ws n).engine,
    run_congr (looks_foreground hc hjob steps ws), engine_background hc hjob steps ws⟩

/-- `say a` -/
def sayA : Simple := ⟨[], some ⟨[.literal "say"]⟩, [⟨[.literal "a"]⟩], []⟩

theorem pipeline_of_one_sayA :
    sayA.name.isSome ∧
      ∀ fuel,
        Machine.run fuel (talking.atItem ⟨0, [], {}, none, none⟩ (.command sayA) false [] []) =
          Machine.run fuel
            (talking.atItem ⟨0, [], {}, none, none⟩ (.pipeline [sayA] false) false [] []) := by
  have hsay : talking.Evaluates Stores.root (sayA.command {}).run
      (.ok { name := "say", args := [.text "a"] }) talking 1 := fun f ws => rfl
  refine ⟨rfl, (pipeline_of_one talking ⟨0, [], {}, none, none⟩ sayA [] [] rfl ?_).2.1⟩
  intro c' e' k h
  obtain ⟨heq, -⟩ := hsay.unique h
  cases heq
  decide

/-- `X=1` -/
def setX : Simple := ⟨[⟨[.literal "X=1"]⟩], none, [], []⟩

/-- A command that only sets variables does nothing as a pipeline. -/
theorem pipeline_sets_nothing :
    ((talking.run 100 ⟨[⟨.command setX, false⟩]⟩).2.rootValue? "X").isSome ∧
      ((talking.run 100 ⟨[⟨.pipeline [setX] false, false⟩]⟩).2.rootValue? "X").isNone :=
  ⟨by decide +kernel, by decide +kernel⟩

end Engine

end JobShell
