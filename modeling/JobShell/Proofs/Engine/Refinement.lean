import JobShell.Proofs.Engine.Pipeline
import JobShell.Proofs.Expansion

/-!
The engine runs scripts as the interpreter does.

Each rule here follows one step of the engine and one of the interpreter; together they give, by
induction over command trees, that a script ends with the status, the variables and the transcript
that the interpreter gives it.
-/

namespace JobShell

open Machine Interpreter JobShell.Tree List Expansion

attribute [local simp] Interpreter.node Engine.perform

namespace Engine

variable {k : Setting} {σ σ1 σ' : State} {C : Captures} {b e : Engine}
  {E : Multiset HubEntry} {S : List Work} {s s1 : Int} {P : Machine → Prop} {scope : Scope}
  {store : StoreId} {commands : List Command} {act : HubId → Engine → Engine × List Work}
  {start : Option HubId → Engine → HubId × Engine × List Duty} {n : Node}

/-! ### Evaluation -/

/-- A substitution runs to its end within the evaluation, and leaves no trace of itself. -/
lemma leads_capture {negated : Bool} {c : Captured} {f : Resumption}
    (h : capture k store commands negated σ = some (c, σ1)) (hr : Rests k σ C b)
    (hh : Holds b E [] e) (next : ∀ b' e', Rests k σ1 C b' → Holds b' E [] e' →
      Leads P ⟨e', .evaluate store (f (.ok c)) :: S⟩) :
    Leads P ⟨e, .evaluate store (.capture commands negated f) :: S⟩ := by
  obtain ⟨B, hB, hstart⟩ := Starts.capture (C := C) h e.captures.next
  have hr1 : Rests k σ ({(e.captures.next, {})} + C)
      b.withCapture := by
    have hnext : e.captures.next = b.captures.next := by rw [hh.base]
    rw [hnext, ← hr.captures]
    exact { hr with sound := hr.sound.insert _, captures := Slab.entries_insert hr.sound _ }
  have hh1 := hh.rebase (fun e => e.withCapture) fun _ _ _ => rfl
  obtain ⟨i, e2, hopen, hawait⟩ := hstart.awaited hr1 hh1
  refine .step (by simp) ?_
  have hp : e.perform (.evaluate store (.capture commands negated f)) =
      ({ e2 with hubs := e2.hubs.retain i }, [.await i (.evaluation store e.captures.next f)]) := by
    simp only [openPipeline, Prod.mk.injEq] at hopen
    obtain ⟨hi, he2, hd⟩ := hopen
    simp only [perform, evaluate, startCapture, hi, he2, hd, map_nil, nil_append]
  rw [hp]
  refine hawait _ _ _ fun b3 e3 hr3 hh3 => ?_
  -- the buffers are taken out, and with them what they held
  have hm3 := hh3.mirrors hr3.toMirrors
  have hanswer : e3.answer (.ok c.status) (.evaluation store e.captures.next f) =
      ({ e3 with captures := e3.captures.erase e.captures.next },
        [.evaluate store (f (.ok c))]) := by
    simp only [answer, takeCapture, Slab.get?_of_entries hm3.captures]
    rw [hB]
    rfl
  rw [hanswer]
  refine next { b3 with captures := b3.captures.erase e.captures.next } _ ?_ ?_
  · exact { hr3 with sound := hr3.sound.erase _, captures := Slab.entries_erase hr3.captures }
  · exact hh3.rebase (fun x => { x with captures := x.captures.erase e.captures.next })
      fun _ _ _ => rfl

lemma leads_answer {α : Type} (x : Expansion α) {a : α} (f : α → Expansion Built)
    (h : Interpreter.answer k store x σ = some (a, σ1)) (hr : Rests k σ C b) (hh : Holds b E [] e)
    (next : ∀ b' e', Rests k σ1 C b' → Holds b' E [] e' →
      Leads P ⟨e', .evaluate store (f a) :: S⟩) :
    Leads P ⟨e, .evaluate store (x.bind f) :: S⟩ := by
  have hm := hh.mirrors hr.toMirrors
  induction x generalizing σ b e with
  | done a' =>
    cases h
    exact next b e hr hh
  | value name nx ih =>
    refine .step (by simp) ?_
    have hv : e.valueOf store name = σ.valueOf store name := hm.valueOf store name
    have hp : e.perform (.evaluate store ((value name nx).bind f)) =
        (e, [.evaluate store ((nx (σ.valueOf store name)).bind f)]) := by
      rw [← hv]; rfl
    rw [hp]
    exact ih _ h hr hh hm
  | aliasOf name nx ih =>
    refine .step (by simp) ?_
    have hp : e.perform (.evaluate store ((aliasOf name nx).bind f)) =
        (e, [.evaluate store ((nx (k.services.alias? name)).bind f)]) := by
      rw [← hm.services]; rfl
    rw [hp]
    exact ih _ h hr hh hm
  | paths pattern nx ih =>
    refine .step (by simp) ?_
    have hp : e.perform (.evaluate store ((paths pattern nx).bind f)) =
        (e, [.evaluate store ((nx (σ.world.expand pattern)).bind f)]) := by
      rw [← hm.world]; rfl
    rw [hp]
    exact ih _ h hr hh hm
  | capture commands negated nx ih =>
    obtain ⟨c, σ2, hc, h⟩ := bind_eq_some.mp h
    refine leads_capture hc hr hh fun b' e' hr' hh' => ?_
    exact ih _ h hr' hh' (hh'.mirrors hr'.toMirrors)

/-! ### Rules for what a hub does next -/

lemma Ends.notify : Ends k C σ s σ fun H e => (e, [.duty (.notify H s)]) :=
  fun _ _ _ _ _ _ _ _ _ _ hr hp _ hh => hp.notify hr hh

lemma Ends.change (f : Engine → Engine)
    (hf : ∀ (e : Engine) hubs ts, f { e with hubs, tasks := ts } =
      { f e with hubs, tasks := ts })
    (hr : ∀ b, Rests k σ C b → Rests k σ1 C (f b)) (he : Ends k C σ1 s σ' act) :
    Ends k C σ s σ' fun H e => act H (f e) :=
  fun b H h D K F e X w S hb hp ha hh =>
    he (f b) H h D K F (f e) X w S (hr b hb) hp ha (hh.rebase f hf)

lemma Ends.congr {act' : HubId → Engine → Engine × List Work}
    (heq : ∀ H e, Mirrors k σ C e → act H e = act' H e) (he : Ends k C σ s σ' act') :
    Ends k C σ s σ' act := by
  intro b H h D K F e X w S hr hp ha hh
  rw [heq H e (hh.mirrors hr.toMirrors)]
  exact he b H h D K F e X w S hr hp ha hh

lemma Starts.congr {start' : Option HubId → Engine → HubId × Engine × List Duty}
    (heq : ∀ parent e, Mirrors k σ C e → start parent e = start' parent e)
    (hs : Starts k σ C s σ' C start') : Starts k σ C s σ' C start := by
  intro b E E' parent e hr hh ha
  rw [heq parent e (hh.mirrors hr.toMirrors)]
  exact hs b E E' parent e hr hh ha

lemma Starts.change
    (f : Engine → Engine) (hf : ∀ (e : Engine) hubs ts, f { e with hubs, tasks := ts } =
      { f e with hubs, tasks := ts })
    (hr : ∀ b, Rests k σ C b → Rests k σ1 C (f b)) (hs : Starts k σ1 C s σ' C start) :
    Starts k σ C s σ' C fun parent e => start parent (f e) :=
  fun b E E' parent e hb hh ha => hs (f b) E E' parent (f e) (hr b hb) (hh.rebase f hf) ha

lemma Ends.work {work : HubId → Work} (hw : ∀ H r, work H ≠ .reply r)
    (he : Ends k C σ s σ' fun H e => e.perform (work H)) :
    Ends k C σ s σ' fun H e => (e, [work H]) :=
  fun b H h D K F e X w S hr hp ha hh => .step (hw H) (he b H h D K F e X w S hr hp ha hh)

lemma Ends.evaluate {α : Type} {x : Expansion α} {a : α} {f : HubId → α → Expansion Built}
    (h : Interpreter.answer k store x σ = some (a, σ1))
    (he : Ends k C σ1 s σ' fun H e => (e, [.evaluate store (f H a)])) :
    Ends k C σ s σ' fun H e => (e, [.evaluate store (x.bind (f H))]) :=
  fun _ H g D K F _ X w S hr hp ha hh =>
    leads_answer x (f H) h hr hh fun b' e' hr' hh' => he b' H g D K F e' X w S hr' hp ha hh'

lemma Ends.built {α : Type} {x : Expansion α} {a : α} {f : HubId → α → Built}
    (h : Interpreter.answer k store x σ = some (a, σ1))
    (he : Ends k C σ1 s σ' fun H e => e.built (f H a)) :
    Ends k C σ s σ' fun H e => (e, [.evaluate store (x.map (f H))]) :=
  evaluate h (work (fun _ _ => by simp) he)

lemma Ends.failHub {f : Fault} (h : fault k f σ = some (s, σ')) :
    Ends k C σ s σ' fun H e => owing (e.failHub H f) := by
  cases h
  refine .congr (fun H e hm => by rw [owing, failHub, hm.config]) ?_
  exact .change (·.report f) (fun _ _ _ => rfl) (fun b hb => hb.write _ _) notify

/-! ### Lists -/

variable {body : List Item} {steps : List Step} {last : Option Int}

/-- A list in the foreground that has got so far. -/
def listAt (scope : Scope) (store : StoreId) (steps : List Step) (last : Option Int) (H : HubId) :
    Runner where
  hub := H
  steps
  ctx := { scope, store }
  foreground := last

lemma Ends.stepDone
    (he : Ends k C (σ.setStatus store s1) s σ' fun H e =>
      (e, [.advance (listAt scope store steps (some s1) H)])) :
    Ends k C σ s σ' fun H e => e.stepDone (listAt scope store steps last H) s1 :=
  change (fun e => { e with stores := e.stores.set store Stores.statusName (.int s1) })
    (fun _ _ _ => rfl) (fun _ hb => hb.setStores (·.set store Stores.statusName (.int s1))) he

lemma jobControl?_eq_none {c : Command} (hc : c.name ∉ ["jobs", "fg", "bg"]) (e : Engine)
    (route : Route) : e.jobControl? c route = none := by
  simp only [mem_cons, not_mem_nil, or_false, not_or] at hc
  simp [jobControl?, hc]

section

variable
    (he : Ends k C (σ1.setStatus store s1) s σ' fun H e =>
      (e, [.advance (listAt scope store steps (some s1) H)]))
include he

lemma Ends.faultStep {f : Fault} (h : fault k f σ = some (s1, σ1)) :
    Ends k C σ s σ' fun H e => e.faultStep (listAt scope store steps last H) f := by
  cases h
  refine .congr (fun H e hm => by rw [faultStep, hm.config]) ?_
  exact .change (·.report f) (fun _ _ _ => rfl) (fun b hb => hb.write _ _) (stepDone he)

lemma Ends.step (hs : Starts k σ C s1 σ1 C start) (last : Option Int)
    (hact : ∀ H e c e1, start (some H) e = (c, e1, []) →
      act H e = (e1, [.follow (listAt scope store steps last H) c])) :
    Ends k C σ s σ' act := by
  refine .part hs (fun H => .runner (listAt scope store steps last H))
    (stepDone he) fun H e c e1 e2 hstart hfollow P S hnext => ?_
  rw [hact H e c e1 hstart]
  refine .step (by simp) ?_
  have hp : e1.perform (.follow (listAt scope store steps last H) c) = (e2, []) :=
    congrArg owing hfollow
  rw [hp]
  exact hnext

lemma Ends.pipelineStep {negated : Bool}
    (h : pipeline k store commands negated σ = some (s1, σ1)) :
    Ends k C σ s σ' fun H e =>
      e.pipelineStep (listAt scope store steps last H) commands false negated := by
  refine .step he (Starts.terminal h scope) last fun H e c e1 hstart => ?_
  simp only [openPipeline, Prod.mk.injEq] at hstart
  obtain ⟨hc, he1, hd⟩ := hstart
  simp only [Engine.pipelineStep, Bool.false_eq_true, if_false, listAt, hc, he1, hd, map_nil,
    nil_append]

lemma Ends.commandStep {c : Command} (hb : c.background = false)
    (h : command k store c σ = some (s1, σ1)) :
    Ends k C σ s σ' fun H e => e.commandStep (listAt scope store steps last H) c := by
  rcases hc : c.assignmentOnly with _ | _
  · simp only [command, hc, Bool.false_eq_true, if_false] at h
    obtain ⟨hname, h⟩ := guard_bind_eq_some h
    simp only [Engine.commandStep, hc, Bool.false_eq_true, if_false, jobControl?_eq_none hname, hb]
    exact pipelineStep he h
  · simp only [command, hc, if_true] at h
    cases h
    simp only [commandStep, hc, if_true]
    exact .change
      (fun e => { e with
        stores := c.assignments.foldl (fun s p => s.set store p.1 p.2) e.stores })
      (fun _ _ _ => rfl)
      (fun _ hb => hb.setStores fun t => c.assignments.foldl (fun s p => s.set store p.1 p.2) t)
      (stepDone he)

end

/-! ### Parts of compound commands -/

lemma Starts.spawnItems
    (he : Ends k C σ s σ' fun H e =>
      (e, [.advance (listAt scope store (body.map .item) none H)])) :
    Starts k σ C s σ' C fun parent e =>
      ((e.spawnItems body { scope, store } parent).1,
        (e.spawnItems body { scope, store } parent).2, []) :=
  Starts.deferred (fun H => .advance (listAt scope store (body.map .item) none H)) he

lemma Ends.conclude
    (he : Ends k C σ s σ' fun H e =>
      (e, [.advance (listAt scope store (body.map .item) none H)])) :
    Ends k C σ s σ' fun H e => owing (e.conclude H body { scope, store }) := by
  refine .last (Starts.spawnItems he) fun H e c e1 hstart => ?_
  simp only [Prod.mk.injEq] at hstart
  simp only [owing, Engine.conclude, hstart.2.1, map_cons, map_nil]

lemma Ends.spawn
    (he1 : Ends k C σ s1 σ1 fun H e =>
      (e, [.advance (listAt scope store (body.map .item) none H)]))
    (callback : HubId → Callback) (he : Ends k C σ1 s σ' fun H e => e.call s1 (callback H)) :
    Ends k C σ s σ' fun H e =>
      let (child, e) := e.spawnItems body { scope, store } (some H)
      owing (e.follow H child (callback H)) := by
  refine .part (Starts.spawnItems he1) callback he fun H e c e1 e2 hstart hfollow P S hnext => ?_
  simp only [Prod.mk.injEq] at hstart
  simp only [hstart.1, hstart.2.1, hfollow, owing, map_nil, nil_append]
  exact hnext

lemma Ends.iterate {name : String} {values : List Value} {last : Int}
    (hbody : ∀ scope σ s σ', items k scope store body none σ = some (s, σ') →
      Ends k C σ s σ' fun H e => (e, [.advance (listAt scope store (body.map .item) none H)]))
    (h : forEach (fun v => items k (scope.push [(name, v)]) store body none) values last σ =
      some (s, σ')) :
    Ends k C σ s σ' fun H e => owing (e.iterate
      { hub := H, name, values, body, ctx := { scope, store }, status := last }) := by
  induction values generalizing σ last with
  | nil =>
    cases h
    exact .notify
  | cons v values ih =>
    obtain ⟨s1, σ1, h1, h⟩ := bind_eq_some.mp h
    exact .spawn (hbody _ _ _ _ h1)
      (fun H => .loop { hub := H, name, values, body, ctx := { scope, store }, status := last })
      (ih h)

/-! ### Trees -/

/-- The engine runs a list as the interpreter does. -/
def ItemsEnd (k : Setting) (C : Captures) (body : List Item) : Prop :=
  ∀ scope store last σ s σ', Interpreter.items k scope store body last σ = some (s, σ') →
    Ends k C σ s σ' fun H e => (e, [.advance (listAt scope store (body.map .item) last H)])

/-- The engine runs a node as the interpreter does, and goes on with the list it stands in. -/
def NodeEnds (k : Setting) (C : Captures) (n : Node) : Prop :=
  ∀ scope store steps last σ s1 σ1 s σ', Interpreter.node k scope store n σ = some (s1, σ1) →
    (Ends k C (σ1.setStatus store s1) s σ' fun H e =>
      (e, [.advance (listAt scope store steps (some s1) H)])) →
    Ends k C σ s σ' fun H e =>
      (e, [.advance (listAt scope store (.item ⟨n, false⟩ :: steps) last H)])

lemma ItemsEnd.nil : ItemsEnd k C [] := by
  intro scope store last σ s σ' h
  cases h
  refine .work (fun _ _ => by simp) ?_
  have hlast : (last <|> none).getD 0 = last.getD 0 := by cases last <;> rfl
  simp only [perform, listAt, map_nil, advance, hlast]
  exact Ends.notify

lemma ItemsEnd.cons {background : Bool} (hn : NodeEnds k C n) (hb : ItemsEnd k C body) :
    ItemsEnd k C (⟨n, background⟩ :: body) := by
  intro scope store last σ s σ' h
  simp only [items] at h
  obtain ⟨hbg, h0⟩ := guard_bind_eq_some h
  obtain ⟨s1, σ1, h1, h2⟩ := bind_eq_some.mp h0
  have hfalse : background = false := by simpa using hbg
  subst hfalse
  exact hn scope store _ last σ s1 σ1 s σ' h1 (hb scope store (some s1) _ s σ' h2)

lemma NodeEnds.single (hn : NodeEnds k C n)
    (h : node k scope store n σ = some (s, σ1)) :
    Ends k C σ s (σ1.setStatus store s) fun H e =>
      (e, [.advance (listAt scope store ([⟨n, false⟩].map .item) none H)]) :=
  hn scope store [] none σ s σ1 s _ h (ItemsEnd.nil scope store (some s) _ s _ rfl)

lemma NodeEnds.command (c : Simple) : NodeEnds k C (.command c) := by
  intro scope store steps last σ s1 σ1 s σ' h he
  simp only [node] at h
  obtain ⟨r, σ2, hr, h⟩ := bind_eq_some.mp h
  refine .work (fun _ _ => by simp) (Ends.built hr ?_)
  cases r with
  | error f => exact .faultStep he h
  | ok c => exact .commandStep he rfl h

lemma NodeEnds.pipeline (cs : List Simple) (negated : Bool) :
    NodeEnds k C (.pipeline cs negated) := by
  intro scope store steps last σ s1 σ1 s σ' h he
  simp only [node] at h
  obtain ⟨r, σ2, hr, h⟩ := bind_eq_some.mp h
  refine .work (fun _ _ => by simp) (Ends.built hr ?_)
  cases r with
  | error f => exact .faultStep he h
  | ok c => exact .pipelineStep he h

lemma NodeEnds.compound (hn : Compound n)
    (hs : ∀ scope store σ s σ', node k scope store n σ = some (s, σ') →
      Starts k σ C s σ' C fun parent e => e.spawnNode n { scope, store } parent) :
    NodeEnds k C n := by
  intro scope store steps last σ s1 σ1 s σ' h he
  refine .work (fun _ _ => by simp) ?_
  refine .step he (hs _ _ _ _ _ h) last fun H e c e1 hstart => ?_
  simp only [perform]
  rw [advance_compound hn rfl]
  simp only [listAt, hstart, Bool.false_eq_true, if_false, map_nil, nil_append]

lemma NodeEnds.logical {op : Connective} {left right : Node} (hl : NodeEnds k C left)
    (hr : NodeEnds k C right) : NodeEnds k C (.logical op left right) := by
  refine .compound trivial fun scope store σ s σ' h => ?_
  simp only [node] at h
  obtain ⟨s1, σ1, h1, h2⟩ := bind_eq_some.mp h
  refine .compound (Starts.spawnItems (hl.single h1))
    (fun H => .logical H op right { scope, store }) ?_
  obtain ⟨_, _, heq, h3⟩ := bind_eq_some.mp h2
  cases heq
  simp only [call]
  rcases hgo : op.goesOn s1 with _ | _
  · simp only [hgo, Bool.false_eq_true, if_false] at h3 ⊢
    cases h3
    exact .notify
  · simp only [hgo, if_true] at h3 ⊢
    obtain ⟨s2, σ2, h4, h5⟩ := bind_eq_some.mp h3
    cases h5
    exact .conclude (hr.single h4)

/-- The engine runs a branch as the interpreter does. -/
def BranchEnds (k : Setting) (C : Captures) (choice : Option (List Item)) : Prop :=
  ∀ scope store σ s σ', Interpreter.branch k scope store choice σ = some (s, σ') →
    Ends k C σ s σ' fun H e =>
      match choice with
      | some body => owing (e.conclude H body { scope, store })
      | none => (e, [.duty (.notify H 0)])

lemma BranchEnds.none : BranchEnds k C none := by
  intro scope store σ s σ' h
  cases h
  exact .notify

lemma BranchEnds.some (hb : ItemsEnd k C body) : BranchEnds k C (some body) :=
  fun scope store σ s σ' h => .conclude (hb scope store _ σ s σ' h)

lemma NodeEnds.conditional {condition : List Item} {onSuccess onFailure : Option (List Item)}
    (hc : ItemsEnd k C condition) (hs : BranchEnds k C onSuccess) (hf : BranchEnds k C onFailure) :
    NodeEnds k C (.conditional condition onSuccess onFailure) := by
  refine .compound trivial fun scope store σ s σ' h => ?_
  simp only [node] at h
  obtain ⟨s1, σ1, h1, h2⟩ := bind_eq_some.mp h
  refine .compound (Starts.spawnItems (hc scope store _ σ s1 σ1 h1))
    (fun H => .branch H onSuccess onFailure { scope, store }) ?_
  by_cases hz : s1 = 0
  · simp only [hz, if_true] at h2
    simp only [call, hz, if_true]
    exact hs scope store σ1 s σ' h2
  · simp only [hz, if_false] at h2
    simp only [call, hz, if_false]
    exact hf scope store σ1 s σ' h2

lemma NodeEnds.loop {name : String} {words : List Word} (hb : ItemsEnd k C body) :
    NodeEnds k C (.loop name words body) := by
  refine .compound trivial fun scope store σ s σ' h => ?_
  simp only [node] at h
  obtain ⟨r, σ1, h1, h2⟩ := bind_eq_some.mp h
  refine .deferred (fun H => .loop H name words body { scope, store }) ?_
  refine .congr (fun H e hm => by rw [runTask, hm.config]) (Ends.built h1 ?_)
  cases r with
  | error f => exact .failHub h2
  | ok values => exact .iterate (fun scope => hb scope store none) h2

/-- The engine runs the first arm that matches, as the interpreter does. -/
def ArmsEnd (k : Setting) (C : Captures) (arms : List Arm) : Prop :=
  ∀ scope store text σ s σ', Interpreter.select k scope store text arms σ = some (s, σ') →
    Ends k C σ s σ' fun H e => (e, [.evaluate store
      ((selectArm scope text arms).run.map (.choice H { scope, store }))])

lemma ArmsEnd.nil : ArmsEnd k C [] := by
  intro scope store text σ s σ' h
  cases h
  exact .work (fun _ _ => by simp) Ends.notify

lemma Ends.choose {α : Type} {x : Evaluation α} {r : Except Fault α}
    (h : Interpreter.answer k store x.run σ = some (r, σ1))
    {g : α → Evaluation (Option (List Item))}
    (hok : ∀ a, r = .ok a → Ends k C σ1 s σ' fun H e => (e, [.evaluate store
      ((g a).run.map (.choice H { scope, store }))]))
    (herror : ∀ f, r = .error f → fault k f σ1 = some (s, σ')) :
    Ends k C σ s σ' fun H e => (e, [.evaluate store
      ((x >>= g).run.map (.choice H { scope, store }))]) := by
  have hbind : ∀ H, (x >>= g).run.map (Built.choice H { scope, store }) =
      x.run.bind fun r => (ExceptT.bindCont g r : Expansion _).map (.choice H { scope, store }) :=
    fun H => bind_assoc _ _ _
  simp only [hbind]
  refine evaluate h ?_
  cases r with
  | ok a => exact hok a rfl
  | error f => exact .work (fun _ _ => by simp) (failHub (herror f rfl))

lemma ArmsEnd.cons {patterns : List Word} {arms : List Arm} (hb : ItemsEnd k C body)
    (ha : ArmsEnd k C arms) : ArmsEnd k C (⟨patterns, body⟩ :: arms) := by
  intro scope store text σ s σ' h
  simp only [select] at h
  obtain ⟨r, σ1, h1, h2⟩ := bind_eq_some.mp h
  refine .choose h1 (fun found hr => ?_) fun f hr => ?_
  · subst hr
    cases found with
    | true => exact .work (fun _ _ => by simp) (Ends.conclude (hb scope store none σ1 s σ' h2))
    | false => exact ha scope store text σ1 s σ' h2
  · subst hr
    exact h2

lemma NodeEnds.choice {subject : Word} {arms : List Arm} (ha : ArmsEnd k C arms) :
    NodeEnds k C (.choice subject arms) := by
  refine .compound trivial fun scope store σ s σ' h => ?_
  simp only [node] at h
  obtain ⟨r, σ1, h1, h2⟩ := bind_eq_some.mp h
  refine .deferred (fun H => .choice H subject arms { scope, store }) ?_
  refine .choose h1 (fun text hr => ?_) fun f hr => ?_
  · subst hr
    exact ha scope store text σ1 s σ' h2
  · subst hr
    exact h2

lemma NodeEnds.subshell (hb : ItemsEnd k C body) : NodeEnds k C (.subshell body) := by
  refine .compound trivial fun scope store σ s σ' h => ?_
  simp only [node] at h
  obtain ⟨child, hchild⟩ : ∃ child, (σ.stores.fork store).1 = child := ⟨_, rfl⟩
  obtain ⟨_, _, heq, h1⟩ := bind_eq_some.mp h
  cases heq
  obtain ⟨_, _, heq, h2⟩ := bind_eq_some.mp h1
  cases heq
  obtain ⟨s1, σ1, h3, h4⟩ := bind_eq_some.mp h2
  cases h4
  rw [hchild] at h3
  have hstart := (Starts.spawnItems (hb scope child none _ _ _ h3)).change
    (fun e => { e with stores := (e.stores.fork store).2 }) (fun _ _ _ => rfl)
    (fun b hr => hr.setStores fun t => (t.fork store).2)
  have hend : Ends k C σ1 s { σ1 with stores := σ1.stores.release child } fun H e =>
      e.call s (.subshell H child) :=
    .change (fun e => { e with stores := e.stores.release child }) (fun _ _ _ => rfl)
      (fun b hr => hr.setStores (·.release child)) Ends.notify
  rw [hchild]
  refine .congr (fun parent e hm => ?_) (hstart.compound (fun H => .subshell H child) hend)
  have hid : (e.stores.fork store).1 = child := by rw [hm.stores, hchild]
  rw [← hid]
  rfl

mutual

theorem nodeEnds : ∀ n : Node, NodeEnds k C n
  | .command c => .command c
  | .pipeline cs negated => .pipeline cs negated
  | .logical _ left right => .logical (nodeEnds left) (nodeEnds right)
  | .conditional condition onSuccess onFailure =>
    NodeEnds.conditional (itemsEnd condition) (branchEnds onSuccess) (branchEnds onFailure)
  | .loop _ _ body => .loop (itemsEnd body)
  | .choice _ arms => .choice (armsEnd arms)
  | .subshell body => .subshell (itemsEnd body)

theorem itemsEnd : ∀ body : List Item, ItemsEnd k C body
  | [] => .nil
  | ⟨n, _⟩ :: body => .cons (nodeEnds n) (itemsEnd body)

theorem branchEnds : ∀ choice : Option (List Item), BranchEnds k C choice
  | none => .none
  | some body => .some (itemsEnd body)

theorem armsEnd : ∀ arms : List Arm, ArmsEnd k C arms
  | [] => .nil
  | ⟨_, body⟩ :: arms => .cons (itemsEnd body) (armsEnd arms)

end

/-! ### Scripts -/

/-- What an interpreter needs to know of an engine. -/
def setting (e : Engine) : Setting := ⟨e.config, e.services⟩

/-- What an interpreter starts from. -/
def state (e : Engine) : State := ⟨e.stores, e.console, e.system.world⟩

/-- A script whose list ends when it is started ends when it is run, and nothing is left over. -/
lemma Idle.run (he : e.Idle) {script : Script} {σ' : State}
    (hstart : Starts e.setting e.state 0 s σ' 0 fun parent e =>
      ((e.spawnItems script.items {} parent).1, (e.spawnItems script.items {} parent).2, [])) :
    ∃ N e', (∀ fuel, N ≤ fuel → e.run fuel script = (.ok (.status s), e')) ∧
      e'.state = σ' ∧ e'.setting = e.setting ∧ e'.Idle := by
  have hr : Rests e.setting e.state 0 e :=
    ⟨⟨rfl, rfl, rfl, rfl, rfl, he.captures.1, he.captures.2⟩, he.jobs, he.table, he.owner⟩
  have hh : Holds e 0 [] e := ⟨by rw [← he.tasks], he.hubs.1, he.hubs.2⟩
  obtain ⟨i, e1, heq, hawait⟩ := hstart.awaited hr hh
  have hleads := hawait (fun m => ∃ e', Rests e.setting σ' 0 e' ∧ Holds e' 0 [] e' ∧
      m = ⟨e', [.reply (.ok (.status s))]⟩) .request [] fun b' e' hr' hh' =>
    .here ⟨e', hh'.rests hr', hh'.after rfl rfl, rfl⟩
  obtain ⟨_, n, ⟨e', hr', hh', rfl⟩, hrun⟩ := hleads.run
  refine ⟨n + 1, e', fun fuel hf => ?_, ?_, ?_, ?_⟩
  · obtain ⟨d, rfl⟩ := Nat.exists_eq_add_of_le hf
    simp only [Prod.mk.injEq, and_true] at heq
    have hwait := hrun (d + 1)
    have hfuel : d + 1 + n = n + 1 + d := by omega
    rw [hfuel] at hwait
    have hspawn : e.spawn script = (i, { e1 with hubs := e1.hubs.retain i }) := by
      rw [← heq.1, ← heq.2]
      rfl
    simp only [Engine.run, hspawn, wait, drive, hwait]
    rfl
  · rw [state, hr'.stores, hr'.console, hr'.world]
  · rw [setting, hr'.config, hr'.services]
  · exact ⟨by rw [hh'.base], ⟨hh'.sound, hh'.entries⟩, ⟨hr'.sound, hr'.captures⟩, hr'.jobs,
      hr'.table, hr'.owner⟩

/-- A script that the interpreter can run ends in the engine too, with the status, the variables
and the transcript that the interpreter comes to. -/
theorem run_refines_interpreter (e : Engine) (he : e.Idle) (script : Script) {s : Int} {σ' : State}
    (h : Interpreter.script e.setting script e.state = some (s, σ')) :
    ∃ N e', (∀ fuel, N ≤ fuel → e.run fuel script = (.ok (.status s), e')) ∧
      e'.state = σ' ∧ e'.setting = e.setting ∧ e'.Idle :=
  he.run (Starts.spawnItems (itemsEnd script.items {} Stores.root none _ _ _ h))

/-- A shell with one routine, which writes its arguments. -/
def talking : Engine where
  services := { routines := [("say", ⟨fun call w => (.text (String.join call.args), {}, w), []⟩)] }

def say (text : String) : Node :=
  .command ⟨[], some ⟨[.literal "say"]⟩, [⟨[.literal text]⟩], []⟩

/-- `say a && (say b)` -/
def sayBoth : Script := ⟨[⟨.logical .and (say "a") (.subshell [⟨say "b", false⟩]), false⟩]⟩

theorem run_refines_interpreter_sayBoth :
    ∃ N e', (∀ fuel, N ≤ fuel → talking.run fuel sayBoth = (.ok (.status 0), e')) ∧
      e'.console.events =
        [.pause, .text .out "a", .job ⟨1, "say a", .terminated, some 0, true⟩, .resume,
          .pause, .text .out "b", .job ⟨1, "say b", .terminated, some 0, true⟩, .resume] := by
  have hidle : talking.Idle :=
    ⟨rfl, ⟨Slab.sound_empty, rfl⟩, ⟨Slab.sound_empty, rfl⟩, rfl, rfl, rfl⟩
  obtain ⟨N, e', hrun, hstate, -, -⟩ := run_refines_interpreter talking hidle sayBoth rfl
  refine ⟨N, e', hrun, ?_⟩
  have hconsole : e'.console = _ := congrArg State.console hstate
  rw [hconsole]
  decide +kernel

end Engine

end JobShell
