import JobShell.Engine.Request
import JobShell.Proofs.Engine.Reachable
import JobShell.Proofs.Engine.WorkCustody

/-!
The life of an engine.

A machine at work does one piece of work after another. In between, the world outside may have
changed in any way, and a job may have come to its end with any status. When nothing is in hand
there may be a request. What a law says of desks holds of the machine all the time.
-/

namespace JobShell

open Hub Desk Relation List

namespace Engine

/-- What is in hand when a request begins. Completing a hub from outside is not among the requests
here: a hub is completed by the one who has it in hand. -/
inductive Begins (e : Engine) : Machine → Prop where
  | spawn (script : Tree.Script) : Begins e ⟨(e.spawn script).2, []⟩
  | wait (hub : HubId) : Begins e ⟨e, [.await hub .request]⟩
  | runCommands (commands : List Command) {hub : HubId} {e' : Engine}
      (h : e.spawnRunner (commands.map .ready) {} none = (hub, e')) :
      Begins e ⟨{ e' with hubs := e'.hubs.retain hub }, [.await hub .request]⟩
  | runPipeline (commands : List Command) (negated : Bool) {s : Started} {e' : Engine}
      (h : e.startPipeline commands {} none negated = (s, e')) :
      Begins e ⟨{ e' with hubs := e'.hubs.retain s.hub },
        s.duties.map .duty ++ [.await s.hub .request]⟩
  | takeTurns (count : ℕ) (block : Bool) : Begins e ⟨e, [.turns count block []]⟩
  | poll : Begins e ⟨e, [.poll]⟩
  | drain : Begins e ⟨e, [.drain]⟩
  | runUntil (id : ℕ) (state : Option JobState) : Begins e ⟨e, [.untilState id state]⟩
  | evaluateAs {α : Type} (x : Evaluation α) (f : α → Reply) :
      Begins e ⟨e, [.evaluate Stores.root (x.run.map fun r => .reply (r.map f))]⟩
  | setVariable (name : String) (v : Value) : Begins e ⟨e.setVariable name v, []⟩
  | interrupt : Begins e ⟨e.interrupt, []⟩
  | postInterrupt : Begins e ⟨e.postInterrupt, []⟩
  | foreground {n : ℕ} {e' : Engine} (h : e.foreground n = .ok e') : Begins e ⟨e', []⟩
  | background {n : ℕ} {e' : Engine} (h : e.background n = .ok e') : Begins e ⟨e', []⟩

variable {drops : Bool} {R : Rule} {log : Log} {e e' : Engine} {stack : List Work}

lemma Begins.busy (l : Law (.lax drops) R) (u : Under (fun _ => True) R log 0 [] e) {m : Machine}
    (hb : Begins e m) : Busy R log m.engine m.stack := by
  have hfree : Admits (fun _ => True) 0 e.hubs.next Stores.root none := Or.inl trivial
  cases hb with
  | spawn script =>
    obtain ⟨e', he', u', -⟩ := u.spawnRunner l (script.items.map .item) {} hfree
    simp only [Engine.spawn, Engine.spawnItems, he']
    exact (u'.retain l _).atRest
  | wait hub => exact .one (.request hub) u
  | @runCommands commands hub e' h =>
    obtain ⟨e'', he, u', -⟩ := u.spawnRunner l (commands.map .ready) {} hfree
    obtain ⟨rfl, rfl⟩ := Prod.mk.inj (he.symm.trans h)
    exact .one (.request _) (u'.retain l _)
  | @runPipeline commands negated s e' h =>
    obtain ⟨launched, e'', he, u', -⟩ := u.startPipeline l commands {} hfree negated
    obtain ⟨rfl, rfl⟩ := Prod.mk.inj (he.symm.trans h)
    exact .one (.request _) (u'.retain l _)
  | takeTurns count block => exact .one (.asks (.turns ..)) u
  | poll => exact .one (.asks .poll) u
  | drain => exact .one (.asks .drain) u
  | runUntil id state => exact .one (.asks (.untilState id state)) u
  | evaluateAs x f =>
    exact .one (.evaluate (o := none) ((Expansion.all_true _).map fun _ _ => ⟨rfl, by simp⟩)
      fun _ => trivial) u
  | setVariable name v =>
    exact (u.unmoved (similar_stores e (e.stores.shape_set _ name v)).unmoved).atRest
  | interrupt => exact (u.unmoved (unmoved_interrupt e)).atRest
  | postInterrupt => exact Under.atRest ⟨u.queue, u.books⟩
  | foreground h => exact (u.unmoved (similar_foreground (u.keyed l) h).unmoved).atRest
  | background h => exact (u.unmoved (similar_background (u.keyed l) h).unmoved).atRest

/-- The desk of an engine at work has the duties that are in hand. -/
lemma Carried.desk (hb : Busy R log e stack) :
    ∃ handles past ds H, R past log (e.desk handles ds H) ∧ ∀ d ∈ ds, .duty d ∈ stack := by
  have hduties : ∀ {ws : List Work} {d : Duty}, d ∈ Work.duties ws → .duty d ∈ ws := by
    intro ws d hd
    obtain ⟨w, hw, he⟩ := mem_filterMap.mp hd
    cases w <;> cases he
    exact hw
  cases hb with
  | borne h u =>
    obtain ⟨handles, past, hr⟩ := u.books
    exact ⟨handles, past, _, _, hr, fun d hd => hduties (by rwa [append_nil] at hd)⟩
  | follow hb h u =>
    obtain ⟨handles, past, hr⟩ := u.books
    exact ⟨handles, past, _, _, hr,
      fun d hd => mem_cons_of_mem _ (hduties (by rwa [append_nil] at hd))⟩

end Engine

namespace Machine

/-- What comes to a machine from outside: a request when nothing is in hand, the end of a job, or
what has changed in the world. A list that is to follow a step of it does so before
anything else. -/
inductive Befalls : Machine → Machine → Prop where
  | request {e : Engine} {m : Machine} (h : e.Begins m) : Befalls ⟨e, []⟩ m
  | settle {m : Machine} (hm : ∀ r child ws, m.stack ≠ .follow r child :: ws) (id : JobId)
      {state : JobState} (hs : state.isFinal = true) (status : Int) :
      Befalls m ⟨(m.engine.settle id state status).1,
        (m.engine.settle id state status).2.map .duty ++ m.stack⟩
  | world (m : Machine) (system : System) (events : List Event) (console : Console) :
      Befalls m { m with engine := { m.engine with system, events, console } }

/-- What a machine goes through. -/
inductive Goes : Machine → Machine → Prop where
  | step (m : Machine) : Goes m m.step
  | outside {m m' : Machine} (h : Befalls m m') : Goes m m'

/-- A machine that a fresh engine can come to. -/
def Reached (m : Machine) : Prop :=
  ∃ config services system direct,
    ReflTransGen Goes ⟨Engine.initial config services system direct, []⟩ m

open Engine

variable {drops : Bool} {R : Rule} {log : Log} {m m' : Machine}

lemma Befalls.worked (l : Law (.lax drops) R) (hb : Busy R log m.engine m.stack)
    (hg : Befalls m m') : Done (fun _ => True) R log 0 [] m.engine (m'.engine, m'.stack) := by
  cases hg with
  | @request e m h => exact (h.busy l hb.rest).done e
  | @settle m hm id state hs status =>
    obtain ⟨e, stack⟩ := m
    cases hb with
    | follow hb h u => exact absurd rfl (hm _ _ _)
    | borne h u => exact (u.retires l (retires_settle (u.keyed l) id hs status)).done.append h
  | world m =>
    obtain ⟨e, stack⟩ := m
    refine Carried.done ?_ e
    cases hb with
    | borne h u => exact .borne h ⟨u.queue, u.books⟩
    | follow hb h u => exact .follow (hb.congr rfl) h ⟨u.queue, u.books⟩

/-- What holds of all desks. -/
structure Based (past : Notes) (log : Log) (d : Desk) : Prop where
  run : d.scene.Run false past
  owned : d.Owned

lemma law_based (t : Terms) : Law t Based where
  run hr := hr.run
  owned hr := hr.owned
  deal hr hd := ⟨hd.run hr.owned hr.run, hr.owned.deal hr.run.sane.sound hd⟩

/-- Where there are no hubs, tasks and jobs, no one has a hub in hand. -/
lemma based_rest {e : Engine} (sound : e.hubs.Sound) (hempty : ∀ slot, e.hubs.get? slot = none)
    (ht : e.tasks = []) (hj : e.jobs = []) : Based [] log (e.desk [] [] 0) := by
  have hdesk : e.desk [] [] 0 = ⟨{ hubs := e.hubs }, 0, [], e.nextJob, e.stores.shape⟩ := by
    simp only [desk, ht, hj]
    rfl
  rw [hdesk]
  refine ⟨.start sound hempty, ⟨0, ?_⟩, .nil, by simp, rfl⟩
  have hzero : e.hubs.entries = 0 := Multiset.eq_zero_of_forall_notMem fun p hp => by
    cases (hempty p.1).symm.trans (Slab.mem_entries.mp hp)
  exact hzero ▸ Accounts.Books.empty

lemma based_initial (config : Config) (services : Services) (system : System) (direct : Bool) :
    Busy Based [] (initial config services system direct) [] :=
  Under.atRest ⟨by simp [initial], [], [], based_rest Slab.sound_empty (fun _ => rfl) rfl rfl⟩

/-- In each machine that is reached every hub is in one hand at most. -/
lemma Reached.busy (h : Reached m) : Busy Based [] m.engine m.stack := by
  obtain ⟨config, services, system, direct, h⟩ := h
  induction h with
  | refl => exact based_initial _ _ _ _
  | @tail m m' _ hg ih =>
    obtain ⟨ss, hb, -⟩ : Done (fun _ => True) Based [] 0 [] m.engine (m'.engine, m'.stack) := by
      cases hg with
      | step => exact (ih.step (law_based (.lax true)) rfl fun _ _ _ => allows_lax fun _ => rfl).1
      | outside h => exact h.worked (law_based (.lax true)) ih
    exact hb.imp (fun _ h => h) fun _ _ _ _ hr => ⟨hr.run, hr.owned⟩

end Machine

end JobShell
