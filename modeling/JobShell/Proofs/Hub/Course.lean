import JobShell.Proofs.Hub.Scene

/-!
The course of a session.

A session goes through scenes: whatever a step does to the hubs is a change of the scene, or a few
of them, also when the step is taken by a subscriber that is called. So what holds along every run
of scenes holds along every course of a session.
-/

namespace JobShell.Hub.Session

open List Option Scene Session

open Note

/-- The duties among the work in hand. -/
def dutiesOf (work : List Work) : List Duty :=
  work.filterMap fun | .duty d => some d | _ => none

/-- The hubs that tasks are to flush. -/
def flushesOf (tasks : List Task) : List HubId :=
  tasks.filterMap fun | .flush hub => some hub | .deferred _ => none

/-- What a session holds of hubs. -/
def scene (s : Session) : Scene Subscriber :=
  ⟨s.hubs, s.handles, dutiesOf s.stack, flushesOf s.tasks⟩

/-- What is noted when a step is taken. -/
def stepNotes (s : Session) : Step → Notes
  | .create parent => [.created s.handles.length ((parent.map s.slot).bind s.scene.openHub?)]
  | .subscribe handle _ _ =>
    ((s.hubs.get? (s.slot handle)).map fun h =>
      .subscribed (s.tenant (s.slot handle)) h.nextKey).toList
  | .unsubscribe name =>
    ((s.keys.lookup name).filter fun p => p.2 ∈ s.scene.waiting p.1).toList.map fun p =>
      .removed (s.tenant p.1) p.2
  | _ => []

/-- What is noted when the work that comes first is done. -/
def notes (past : Notes) (s : Session) : Notes :=
  match s.stack with
  | .duty d :: _ => s.scene.dutyNotes past d
  | .steps _ (step :: _) :: _ => s.stepNotes step
  | _ => []

/-- The step attaches no child but by creating it, below a hub that is there. -/
def isTidy (s : Session) : Step → Bool
  | .addChild .. => false
  | .create (some parent) => (s.hubs.get? (s.slot parent)).isSome
  | _ => true

/-- The sessions there are, with their past: steps are taken one after another, each with all that
follows from it. Unless the course is free, all steps are tidy, those of subscribers too. -/
inductive Course (free : Bool) : Notes → Session → Prop where
  | start : Course free [] {}
  | take {past : Notes} {s : Session} (run : Course free past s) (idle : s.stack = [])
      (step : Step) (ok : free = true ∨ s.isTidy step = true) :
      Course free (past ++ s.stepNotes step) (s.start step)
  | step {past : Notes} {s : Session} (run : Course free past s)
      (ok : ∀ name step rest below, s.stack = .steps name (step :: rest) :: below →
        free = true ∨ s.isTidy step = true) :
      Course free (past ++ s.notes past) s.step

variable {free : Bool} {past : Notes} {s : Session}

lemma dutiesOf_append (work rest : List Work) :
    dutiesOf (work ++ rest) = dutiesOf work ++ dutiesOf rest :=
  filterMap_append

lemma dutiesOf_duties (ds : List Duty) : dutiesOf (ds.map .duty) = ds := by
  simp [dutiesOf, filterMap_map]

lemma flushesOf_append (tasks rest : List Task) :
    flushesOf (tasks ++ rest) = flushesOf tasks ++ flushesOf rest :=
  filterMap_append

lemma stepNotes_stack (s : Session) (stack : List Work) (step : Step) :
    stepNotes { s with stack } step = s.stepNotes step := by
  cases step <;> rfl

lemma isTidy_stack (s : Session) (stack : List Work) (step : Step) :
    isTidy { s with stack } step = s.isTidy step := by
  cases step <;> rfl

section Stable

-- what is said of scenes and kept by changes is kept by steps
variable {P : Notes → Scene Subscriber → Prop} (hP : Stable free P)
  {sc : Scene Subscriber}
include hP

/-- A hub is no longer needed by someone, and dropped if it is spent. -/
lemma run_settle {slot : HubId} {os : Notes} {ds : List Duty}
    {hubs : Hubs Subscriber} (run : P past sc)
    (hc : Change free past sc os { sc with hubs, duties := .settle slot :: ds }) :
    P (past ++ os) { sc with hubs := hubs.settle slot, duties := ds } := by
  have hmid := hP _ _ _ _ run hc
  have hlast := hP _ _ _ _ hmid (.settle free _ rfl)
  rwa [append_nil] at hlast

lemma run_release (run : P past sc) (slot : HubId) :
    P past { sc with hubs := sc.hubs.release slot } := by
  have h := run_settle hP run (.released slot)
  rwa [append_nil] at h

lemma run_turn {t : Session} {rest : List Work} (run : P past s.scene)
    (ht : s.turn? rest = some t) (hrest : dutiesOf rest = []) : P past t.scene := by
  rcases htasks : s.tasks with _ | ⟨task, tasks⟩
  · simp [turn?, htasks] at ht
  · simp only [turn?, htasks, some.injEq] at ht
    subst ht
    have hduties : dutiesOf (s.taskWork task ++ rest ++ s.stack) =
        dutiesOf (s.taskWork task) ++ dutiesOf s.stack := by
      rw [dutiesOf_append, dutiesOf_append, hrest, append_nil]
    cases task with
    | deferred actions =>
      have hscene :
          scene { s with tasks, stack := s.taskWork (.deferred actions) ++ rest ++ s.stack } =
            s.scene := by
        simp only [scene, hduties, htasks]
        rfl
      rw [hscene]
      exact run
    | flush slot =>
      have hflushes : s.scene.flushes = [] ++ slot :: flushesOf tasks := by
        simp [scene, flushesOf, htasks]
      have hmove := hP _ _ _ _ run (.flushed hflushes)
      have hscene : scene { s with tasks, stack := s.taskWork (.flush slot) ++ rest ++ s.stack } =
          ⟨s.hubs, s.handles, s.hubs.flush slot ++ dutiesOf s.stack, flushesOf tasks⟩ := by
        rw [scene, hduties, taskWork, dutiesOf_duties]
      rw [append_nil] at hmove
      rw [hscene]
      exact hmove

lemma run_unsubscribe (run : P past sc) (slot : HubId) (key : ℕ) :
    P (past ++ if key ∈ sc.waiting slot then [.removed (sc.tenant slot) key] else [])
      { sc with hubs := (sc.hubs.unsubscribe slot key).2 } := by
  rcases hg : sc.hubs.get? slot with _ | h
  · simpa [Hubs.unsubscribe, waiting, hg] using run
  · have hany : h.subscribers.any (·.1 == key) = true ↔ key ∈ h.keys := by
      simp [Hub.keys]
    have hwaiting : sc.waiting slot = h.keys := by simp [waiting, hg]
    rw [hwaiting]
    by_cases hk : key ∈ h.keys
    · rw [if_pos hk]
      have hrun := run_settle hP run (.removed hg hk)
      simpa [Hubs.unsubscribe, hg, hany.mpr hk] using hrun
    · have hnone : h.subscribers.any (·.1 == key) = false := by
        rw [← Bool.not_eq_true, hany]
        exact hk
      simpa [Hubs.unsubscribe, hg, hnone, hk] using run

lemma run_take (run : P past s.scene) (r : Receiver) (step : Step)
    (ok : free = true ∨ s.isTidy step = true) :
    P (past ++ s.stepNotes step) (s.take r step).scene := by
  have hsame : P (past ++ []) s.scene := by rwa [append_nil]
  cases step with
  | create parent =>
    refine hP _ _ _ _ run (.created (parent.map s.slot) (ok.imp_right fun htidy p hp => ?_))
    obtain ⟨handle, rfl, rfl⟩ := map_eq_some_iff.mp hp
    exact htidy
  | addChild parent child =>
    exact hP _ _ _ _ run
      (.attached (ok.resolve_right Bool.false_ne_true) (s.slot parent) (s.slot child))
  | subscribe handle name actions =>
    rcases hg : s.hubs.get? (s.slot handle) with _ | h
    · simp only [take, stepNotes, Hubs.subscribe, hg, map_none, toList_none]
      exact hsame
    · have hmove := hP _ _ _ _ run (.subscribed hg ⟨name, actions⟩ : Change free past s.scene _ _)
      have hflushes : flushesOf (if (s.hubs.status? (s.slot handle)).isSome then
          s.tasks ++ [Task.flush (s.slot handle)] else s.tasks) =
          if h.status.isSome then s.scene.flushes ++ [s.slot handle] else s.scene.flushes := by
        have hst : s.hubs.status? (s.slot handle) = h.status := by simp [Hubs.status?, hg]
        rw [hst, apply_ite flushesOf, flushesOf_append]
        rfl
      rw [← hflushes] at hmove
      simp only [take, stepNotes, Hubs.subscribe, hg, map_some, toList_some]
      exact hmove
  | unsubscribe name =>
    rcases hk : s.keys.lookup name with _ | ⟨slot, key⟩
    · simp only [take, stepNotes, hk]
      exact hsame
    · have hrun := run_unsubscribe hP run slot key
      have hnotes : s.stepNotes (.unsubscribe name) =
          if key ∈ s.scene.waiting slot then [.removed (s.scene.tenant slot) key] else [] := by
        by_cases hw : key ∈ s.scene.waiting slot
        · simp only [stepNotes, hk, filter_some, hw, decide_true, if_true]
          rfl
        · simp [stepNotes, hk, filter_some, hw]
      rw [hnotes]
      simp only [take, hk]
      exact hrun
  | notify handle status => exact hP _ _ _ _ run (.notified (s.slot handle) status)
  | sealOff handle => exact hP _ _ _ _ run (.sealing (s.slot handle))
  | retain handle => exact hP _ _ _ _ run (.retained (s.slot handle))
  | release handle =>
    have hrun := run_release hP run (s.slot handle)
    rw [← append_nil past] at hrun
    exact hrun
  | status | wait => exact hsame
  | turn block =>
    rcases ht : s.turn? [.conclude r (.flag true)] with _ | t
    · simp only [take, ht]
      exact hsame
    · have hrun := run_turn hP run ht rfl
      rw [← append_nil past] at hrun
      simp only [take, ht]
      exact hrun
  | poll | drain => exact hsame
  | defer actions =>
    have hscene : (s.take r (.defer actions)).scene = s.scene := by
      simp only [take, push, scene, flushesOf_append]
      exact congrArg (Scene.mk s.hubs s.handles (dutiesOf s.stack)) (append_nil _)
    rw [hscene]
    exact hsame

lemma run_step (run : P past s.scene)
    (ok : ∀ name step rest below, s.stack = .steps name (step :: rest) :: below →
      free = true ∨ s.isTidy step = true) :
    P (past ++ s.notes past) s.step.scene := by
  have hsame : P (past ++ []) s.scene := by rwa [append_nil]
  rcases hstack : s.stack with _ | ⟨w, stack⟩
  · simpa only [notes, step, hstack] using hsame
  by_cases hw : ∃ d, w = .duty d
  · obtain ⟨d, rfl⟩ := hw
    have hduties : s.scene.duties = d :: dutiesOf stack := by simp [scene, dutiesOf, hstack]
    have hmove := hP _ _ _ _ run (Change.perform free past hduties)
    have hscene : s.step.scene =
        ⟨(s.hubs.perform d).1, s.handles, (s.hubs.perform d).2.2 ++ dutiesOf stack,
          s.scene.flushes⟩ := by
      simp only [step, hstack, perform, push]
      rcases (s.hubs.perform d).2.1 with _ | ⟨sub, status⟩
      · simp only [scene, dutiesOf_append, dutiesOf_duties]
      · simp only [scene, dutiesOf_append, dutiesOf_duties]
        rfl
    rw [hscene]
    simp only [notes, hstack]
    exact hmove
  -- all other work is taken off the stack without a change of the scene
  have hscene : scene { s with stack } = s.scene := by
    cases w with
    | duty d => exact absurd ⟨d, rfl⟩ hw
    | _ => simp [scene, dutiesOf, hstack]
  have hrun : P past (scene { s with stack }) := hscene ▸ run
  have hrun' : P (past ++ []) (scene { s with stack }) := hscene ▸ hsame
  simp only [notes, step, hstack]
  cases w with
  | duty d => exact absurd ⟨d, rfl⟩ hw
  | steps name rest =>
    cases rest with
    | nil => exact hrun'
    | cons st rest =>
      have hok := ok name st rest stack hstack
      have htake := run_take hP (s := { s with stack := .steps name rest :: stack }) hrun
        (.note name st.label) st (hok.imp_right (isTidy_stack s _ st).trans)
      rw [stepNotes_stack] at htake
      exact htake
  | wait hub r =>
    simp only [perform]
    split
    · exact hrun'
    · split
      · have hrel := run_release hP hrun hub
        rw [← append_nil past] at hrel
        exact hrel
      · rcases ht : turn? { s with stack } [.wait hub r] with _ | t
        · exact hrun'
        · rw [append_nil]
          exact run_turn hP hrun ht rfl
  | poll r =>
    simp only [perform]
    rcases ht : turn? { s with stack } [.poll r] with _ | t
    · exact hrun'
    · rw [append_nil]
      exact run_turn hP hrun ht rfl
  | conclude r result =>
    cases r with
    | answer | note => exact hrun'

end Stable

lemma Course.run (run : Course free past s) : Run free past s.scene := by
  induction run with
  | start => exact .start Slab.sound_empty fun _ => rfl
  | @take past s run idle step ok ih =>
    let t : Session := { s with fired := [], stack := [], answer := .nothing }
    have hstart : Run free past t.scene := by
      have hscene : t.scene = s.scene := by simp only [scene, idle, t]
      rwa [hscene]
    have hnotes : t.stepNotes step = s.stepNotes step := by cases step <;> rfl
    rw [← hnotes]
    refine run_take (stable_run free) hstart .answer step (ok.imp_right fun htidy => ?_)
    cases step <;> exact htidy
  | step run ok ih => exact run_step (stable_run free) ih ok

/-! ### Courses that are computed -/

/-- Whether the step that comes first may be taken. -/
def isAdmitted (free : Bool) (s : Session) : Bool :=
  match s.stack with
  | .steps _ (step :: _) :: _ => free || s.isTidy step
  | _ => true

/-- Does the work in hand, with notes of it. -/
def carry (free : Bool) : ℕ → Notes → Session → Notes × Session
  | 0, past, s => (past, s)
  | fuel + 1, past, s =>
    if s.stack.isEmpty || !s.isAdmitted free then (past, s)
    else carry free fuel (past ++ s.notes past) s.step

/-- Takes steps one after another, each with all that follows from it. -/
def trace (free : Bool) (fuel : ℕ) : List Step → Notes → Session → Notes × Session
  | [], past, s => (past, s)
  | step :: steps, past, s =>
    if s.stack.isEmpty && (free || s.isTidy step) then
      let next := carry free fuel (past ++ s.stepNotes step) (s.start step)
      trace free fuel steps next.1 next.2
    else (past, s)

lemma Course.carry (run : Course free past s) (fuel : ℕ) :
    Course free (carry free fuel past s).1 (carry free fuel past s).2 := by
  induction fuel generalizing past s with
  | zero => exact run
  | succ fuel ih =>
    simp only [carry]
    split
    · exact run
    · rename_i hgo
      refine ih (run.step fun name step rest below hstack => ?_)
      have hok : s.isAdmitted free = true := by
        by_contra hno
        exact hgo (by simp [hno])
      simpa [isAdmitted, hstack] using hok

lemma Course.trace (run : Course free past s) (fuel : ℕ) (steps : List Step) :
    Course free (trace free fuel steps past s).1 (trace free fuel steps past s).2 := by
  induction steps generalizing past s with
  | nil => exact run
  | cons step steps ih =>
    simp only [trace]
    split
    · rename_i hgo
      simp only [Bool.and_eq_true, List.isEmpty_iff, Bool.or_eq_true] at hgo
      exact ih ((run.take hgo.1 step hgo.2).carry fuel)
    · exact run

end JobShell.Hub.Session
