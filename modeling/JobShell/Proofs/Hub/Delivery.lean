import JobShell.Proofs.Hub.Course

/-!
Whom a completion reaches.

A slot is used again once its hub is gone, and subscribers are found by slot and key. A subscriber
is called at most once. It is called after the completion of its own hub, with the status of that,
unless its hub was created amid the calls of the hub that had the slot before: then it may be called
in the place of a subscriber that is gone.
-/

namespace JobShell.Hub

open List Hubs Scene Session Note

namespace Session

/-- Subscribers are still to be called, in the name of the hub in this slot. -/
def isCalling (s : Session) (slot : HubId) : Bool :=
  s.stack.any fun
    | .duty (.deliver hub _ (_ :: _)) => hub == slot
    | _ => false

/-- The hubs that the work that comes first creates amid the calls of those that had their slots. -/
def usurpers (s : Session) : List ℕ :=
  match s.stack with
  | .steps _ (.create _ :: _) :: _ => if s.isCalling s.hubs.next then [s.handles.length] else []
  | _ => []

/-- The sessions there are, with their past and the hubs that were created amid calls: steps are
taken one after another, each from outside and then all that follows from it, or as far as one cares
to follow. -/
inductive Run : List ℕ → Notes → Session → Prop where
  | start : Run [] [] {}
  | take {amid : List ℕ} {past : Notes} {s : Session} (step : Step) (h : Run amid past s) :
      Run amid (past ++ s.stepNotes step) (s.start step)
  | step {amid : List ℕ} {past : Notes} {s : Session} (h : Run amid past s) :
      Run (amid ++ s.usurpers) (past ++ s.notes past) s.step

/-- A session with its past and the hubs that were created amid calls. -/
abbrev Record := List ℕ × Notes × Session

/-- Does the work in hand, and writes down what happens. -/
def follow : ℕ → Record → Record
  | 0, p => p
  | fuel + 1, (amid, past, s) =>
    if s.stack.isEmpty then (amid, past, s)
    else follow fuel (amid ++ s.usurpers, past ++ s.notes past, s.step)

/-- Takes steps from outside, one after another, with all that follows from each. -/
def record (fuel : ℕ) : List Step → Record → Record
  | [], p => p
  | step :: steps, (amid, past, s) =>
    record fuel steps (follow fuel (amid, past ++ s.stepNotes step, s.start step))

variable {amid : List ℕ} {past os : Notes} {s : Session} {sc sc' : Scene Subscriber}
  {slot : HubId} {n key : ℕ} {status : Int} {h : Hub Subscriber}

lemma Run.follow (h : Run amid past s) (fuel : ℕ) :
    Run (follow fuel (amid, past, s)).1 (follow fuel (amid, past, s)).2.1
      (follow fuel (amid, past, s)).2.2 := by
  induction fuel generalizing amid past s with
  | zero => exact h
  | succ fuel ih =>
    simp only [Session.follow]
    split
    · exact h
    · exact ih h.step

lemma Run.record (h : Run amid past s) (fuel : ℕ) (steps : List Step) :
    Run (record fuel steps (amid, past, s)).1 (record fuel steps (amid, past, s)).2.1
      (record fuel steps (amid, past, s)).2.2 := by
  induction steps generalizing amid past s with
  | nil => exact h
  | cons step steps ih => exact ih ((h.take step).follow fuel)

/-! ### What is kept -/

/-- Subscribers are still to be called with this status, in the name of the hub in this slot. -/
def Calling (sc : Scene Subscriber) (slot : HubId) (status : Int) : Prop :=
  ∃ key keys, .deliver slot status (key :: keys) ∈ sc.duties

/-- What a call comes after. -/
structure Call (amid : List ℕ) (pre : Notes) (n key : ℕ) (status : Int) : Prop where
  subscribed : .subscribed n key ∈ pre
  once : ∀ st, .called n key st ∉ pre
  created : ∃ parent, .created n parent ∈ pre
  completed : n ∉ amid → ∃ waiting, .completed n status waiting ∈ pre

/-- What holds of every scene and its past. -/
structure Kept (amid : List ℕ) (past : Notes) (sc : Scene Subscriber) : Prop where
  sane : sc.Sane past
  born : ∀ n < sc.handles.length, ∃ parent, .created n parent ∈ past
  own : ∀ slot ∈ sc.handles, ∀ st, Calling sc slot st → sc.tenant slot ∉ amid →
    ∃ waiting, .completed (sc.tenant slot) st waiting ∈ past
  calls : ∀ pre post n key status, past = pre ++ .called n key status :: post →
    Call amid pre n key status

lemma calls_append (more : List ℕ) (h : ∀ pre post n key status,
      past = pre ++ .called n key status :: post → Call amid pre n key status)
    (hos : ∀ n key status, .called n key status ∈ os →
      os = [.called n key status] ∧ Call amid past n key status) :
    ∀ pre post n key status, past ++ os = pre ++ .called n key status :: post →
      Call (amid ++ more) pre n key status := by
  intro pre post n key status he
  suffices hc : Call amid pre n key status from
    { hc with completed := fun hn => hc.completed fun hm => hn (mem_append_left _ hm) }
  rcases append_eq_append_iff.mp he with ⟨as, rfl, hnew⟩ | ⟨bs, hold, hrest⟩
  · obtain ⟨hone, hc⟩ := hos n key status (hnew ▸ mem_append_right _ mem_cons_self)
    have has : as = [] := by
      have hlen := congrArg length (hnew.symm.trans hone)
      rw [length_append, length_cons, length_singleton] at hlen
      exact length_eq_zero_iff.mp (by omega)
    rwa [has, append_nil]
  · rcases bs with _ | ⟨b, bs⟩
    · obtain ⟨-, hc⟩ := hos n key status ((nil_append os ▸ hrest) ▸ mem_cons_self)
      rwa [hold, append_nil] at hc
    · obtain ⟨rfl, -⟩ := cons.inj hrest
      exact h pre bs n key status hold

section

variable (hk : Kept amid past sc)
include hk

lemma Kept.next (sane : sc'.Sane (past ++ os)) (handles : sc'.handles = sc.handles)
    (calling : ∀ k st, Calling sc' k st → Calling sc k st ∨
      ∃ waiting, .completed (sc.tenant k) st waiting ∈ past ++ os)
    (call : ∀ n key st, .called n key st ∈ os →
      os = [.called n key st] ∧ Call amid past n key st) :
    Kept amid (past ++ os) sc' := by
  refine ⟨sane, fun n hn => ?_, fun k hm st hc hown => ?_, ?_⟩
  · obtain ⟨parent, hm⟩ := hk.born n (handles ▸ hn)
    exact ⟨parent, mem_append_left _ hm⟩
  · rw [tenant_eq handles] at hown ⊢
    rcases calling k st hc with hc | hst
    · obtain ⟨waiting, hw⟩ := hk.own k (handles ▸ hm) st hc hown
      exact ⟨waiting, mem_append_left _ hw⟩
    · exact hst
  · have hcalls := calls_append [] hk.calls call
    rwa [append_nil] at hcalls

lemma Kept.create (parent : Option HubId) (more : List ℕ)
    (hmore : ∀ st, Calling sc sc.hubs.next st → sc.handles.length ∈ more) :
    Kept (amid ++ more) (past ++ [.created sc.handles.length (parent.bind sc.openHub?)])
      (sc.withHub parent) := by
  set sc' := sc.withHub parent
  have hnew : sc'.tenant sc.hubs.next = sc.handles.length := tenant_new rfl
  refine ⟨@Sane.change _ _ _ _ _ true hk.sane (.created parent (.inl rfl)), fun n hn => ?_,
    fun k hm st hc hown => ?_, calls_append more hk.calls (by simp)⟩
  · rw [length_append, length_singleton] at hn
    rcases Nat.lt_succ_iff_lt_or_eq.mp hn with hn | rfl
    · obtain ⟨parent, hm⟩ := hk.born n hn
      exact ⟨parent, mem_append_left _ hm⟩
    · exact ⟨_, mem_append_right _ (mem_singleton_self _)⟩
  · by_cases hkn : k = sc.hubs.next
    · -- there are calls to come, so the hub was created amid them
      subst hkn
      exact absurd (mem_append_right _ (hmore st hc)) (hnew ▸ hown)
    · have hold : sc'.tenant k = sc.tenant k := tenant_old rfl hkn
      have hm : k ∈ sc.handles := by simpa [sc', hkn] using hm
      rw [hold] at hown ⊢
      obtain ⟨waiting, hw⟩ := hk.own k hm st hc fun hm => hown (mem_append_left _ hm)
      exact ⟨waiting, mem_append_left _ hw⟩

/-! ### What happens in a change -/

lemma Kept.call {keys : List ℕ} (hc : .deliver slot status (key :: keys) ∈ sc.duties)
    (hg : sc.hubs.get? slot = some h) (hm : key ∈ h.keys) :
    Call amid past (sc.tenant slot) key status := by
  have hslot := hk.sane.handle slot h hg
  obtain ⟨hsub, hnot⟩ := ((hk.sane.tells slot h hg).waits key).mp hm
  exact ⟨hsub, fun st hm' => hnot (.inl ⟨st, hm'⟩), hk.born _ (tenant_lt hslot),
    hk.own slot hslot status ⟨key, keys, hc⟩⟩

/-- Unless a hub is created, what is kept is kept with the same hubs created amid calls. -/
lemma Kept.change (hc : Change true past sc os sc') :
    (∃ n parent, .created n parent ∈ os) ∨ Kept amid (past ++ os) sc' := by
  have hsane := hk.sane.change hc
  -- a duty that calls no one is new, or one is done with
  have hmore : ∀ {d : Duty} {sc'' : Scene Subscriber}, sc''.duties = d :: sc.duties →
      (∀ k st key keys, d ≠ .deliver k st (key :: keys)) → ∀ k st, Calling sc'' k st →
        Calling sc k st := by
    rintro d sc'' hds hd k st ⟨key, keys, hm⟩
    rw [hds] at hm
    exact ⟨key, keys, (mem_cons.mp hm).resolve_left (hd k st key keys ·.symm)⟩
  have hless : ∀ {d : Duty} {ds : List Duty} {sc'' : Scene Subscriber}, sc.duties = d :: ds →
      sc''.duties = ds → ∀ k st, Calling sc'' k st → Calling sc k st := by
    rintro d ds sc'' hd rfl k st ⟨key, keys, hm⟩
    exact ⟨key, keys, hd ▸ mem_cons_of_mem _ hm⟩
  -- who is still to be called in a delivery was to be called before
  have hshift : ∀ {slot status key keys ds} {sc'' : Scene Subscriber},
      sc.duties = .deliver slot status (key :: keys) :: ds →
      sc''.duties = .deliver slot status keys :: ds → ∀ k st, Calling sc'' k st →
        Calling sc k st := by
    rintro slot status key keys ds sc'' hd hds k st ⟨key', keys', hm⟩
    rw [hds] at hm
    rcases mem_cons.mp hm with he | hm
    · cases he
      exact ⟨key, _, hd ▸ mem_cons_self⟩
    · exact ⟨key', keys', hd ▸ mem_cons_of_mem _ hm⟩
  have hmute : ∀ {os sc''}, Sane (past ++ os) sc'' → sc''.handles = sc.handles →
      (∀ k st, Calling sc'' k st → Calling sc k st) → (∀ n key st, .called n key st ∉ os) →
        Kept amid (past ++ os) sc'' := fun hsane handles hcalling ho =>
    hk.next hsane handles (fun k st hc => .inl (hcalling k st hc)) fun n key st hm =>
      (ho n key st hm).elim
  cases hc with
  | created parent hp => exact .inl ⟨_, _, mem_singleton_self _⟩
  | attached | subscribed | retained => exact .inr (hmute hsane rfl (fun _ _ => id) (by simp))
  | removed | released | notified | sealing =>
    exact .inr (hmute hsane rfl (hmore rfl (by simp)) (by simp))
  | @flushed slot _ _ hf =>
    refine .inr (hk.next hsane rfl ?_ (by simp))
    rintro k st ⟨key, keys, hm⟩
    refine (mem_append.mp hm).symm.imp (fun hm => ⟨key, keys, hm⟩) fun hm => ?_
    rw [append_nil]
    rcases hg : sc.hubs.get? slot with _ | h
    · simp [Hubs.flush, hg] at hm
    · rcases hst : h.status with _ | status
      · simp [Hubs.flush, hg, hst] at hm
      · simp only [Hubs.flush, hg, hst, mem_cons, Duty.deliver.injEq, reduceCtorEq,
          not_mem_nil, or_false] at hm
        rw [hm.1, hm.2.1]
        exact (hk.sane.status_iff hg status).mp hst
  | idle hd | dropped hd => exact .inr (hmute hsane rfl (hless hd rfl) (by simp))
  | skipped hd hg hm => exact .inr (hmute hsane rfl (hshift hd rfl) (by simp))
  | called hd hg hm =>
    refine .inr (hk.next hsane rfl (fun k st hc => .inl (hshift hd rfl k st hc)) ?_)
    intro n key st hn
    cases mem_singleton.mp hn
    exact ⟨rfl, hk.call (hd ▸ mem_cons_self) hg hm⟩
  | @heeded slot h d ds ha =>
    refine .inr (hmute hsane rfl (hless ha.duties rfl) fun n key st hm => ?_)
    exact (quiet_heeded past _ d n).gone key (.inl ⟨st, hm⟩)
  | @completed slot h d ds ha =>
    refine .inr (hk.next hsane rfl ?_ ?_)
    · rintro k st ⟨key, keys, hm⟩
      rcases mem_append.mp hm with hm | hm
      · have hown : k = slot ∧ st = h.verdict d := by
          rcases hp : h.parent with _ | p <;> simp [duties, hp] at hm <;> simp [hm]
        rw [hown.1, hown.2]
        exact .inr ⟨h.keys, by simp⟩
      · exact .inl ⟨key, keys, ha.duties ▸ mem_cons_of_mem _ hm⟩
    · intro n key st hm
      rcases mem_append.mp hm with hm | hm
      · exact absurd (.inl ⟨st, hm⟩) ((quiet_heeded past _ d n).gone key)
      · cases mem_singleton.mp hm

end

/-! ### What happens in a session -/

lemma isCalling_iff (s : Session) (slot : HubId) :
    s.isCalling slot = true ↔ ∃ status, Calling s.scene slot status := by
  simp only [isCalling, any_eq_true, Calling, scene, dutiesOf, mem_filterMap]
  constructor
  · rintro ⟨w, hw, hm⟩
    split at hm
    · exact ⟨_, _, _, _, hw, by rw [beq_iff_eq.mp hm]⟩
    · cases hm
  · rintro ⟨status, key, keys, w, hw, hd⟩
    refine ⟨w, hw, ?_⟩
    split at hd <;> cases hd
    simp

lemma stable_kept (amid : List ℕ) (past : Notes) :
    Stable true fun past' sc => ∃ os, past' = past ++ os ∧
      ((∃ n parent, .created n parent ∈ os) ∨ Kept amid past' sc) := by
  rintro _ sc os' sc' ⟨os, rfl, ⟨n, parent, hm⟩ | hk⟩ hc
  · exact ⟨os ++ os', append_assoc .., .inl ⟨n, parent, mem_append_left _ hm⟩⟩
  · refine ⟨os ++ os', append_assoc .., (hk.change hc).imp_left ?_⟩
    rintro ⟨n, parent, hm⟩
    exact ⟨n, parent, mem_append_right _ hm⟩

lemma created_notMem_stepNotes {step : Step} (hstep : ∀ parent, step ≠ .create parent) {n : ℕ}
    {parent : Option ℕ} : .created n parent ∉ s.stepNotes step := by
  cases step with
  | create parent => exact absurd rfl (hstep parent)
  | _ => simp [stepNotes]

lemma kept_take (hk : Kept amid past s.scene) (r : Receiver) {step : Step}
    (hstep : ∀ parent, step ≠ .create parent) :
    Kept amid (past ++ s.stepNotes step) (s.take r step).scene := by
  obtain ⟨os, he, hk⟩ := @run_take true past s _ (stable_kept amid past)
    ⟨[], by simp, .inr hk⟩ r step (.inl rfl)
  refine hk.resolve_left ?_
  rintro ⟨n, parent, hm⟩
  rw [← append_cancel_left he] at hm
  exact created_notMem_stepNotes hstep hm

lemma created_notMem_dutyNotes (sc : Scene Subscriber) (d : Duty) (n : ℕ) (parent : Option ℕ) :
    .created n parent ∉ sc.dutyNotes past d := by
  have htarget : ∀ {k : HubId}, .created n parent ∉ (sc.openHub? k).elim [] fun m =>
      d.heeded past m ++
        (((sc.hubs.perform d).1.status? k).map (.completed m · (sc.waiting k))).toList := by
    intro k
    cases sc.openHub? k <;> cases d <;> simp [Duty.heeded]
  cases d with
  | notify | sealOff | report => exact htarget
  | settle => simp [dutyNotes]
  | deliver slot status keys =>
    cases keys with
    | nil => simp [dutyNotes]
    | cons key keys =>
      simp only [dutyNotes]
      split <;> simp

lemma kept_step (hk : Kept amid past s.scene) :
    Kept (amid ++ s.usurpers) (past ++ s.notes past) s.step.scene := by
  by_cases hcreate : ∃ name parent rest stack,
      s.stack = .steps name (.create parent :: rest) :: stack
  · obtain ⟨name, parent, rest, stack, hstack⟩ := hcreate
    have hscene : scene { s with stack := .steps name rest :: stack } = s.scene := by
      simp [scene, dutiesOf, hstack]
    have hmade := hk.create (parent.map s.slot) s.usurpers fun st hc => by
      have hcalling := (isCalling_iff s s.hubs.next).mpr ⟨st, hc⟩
      simp [usurpers, hstack, hcalling, scene]
    rw [← hscene] at hmade
    simp only [Session.notes, step, hstack]
    exact hmade
  · have hnone : s.usurpers = [] := by
      unfold usurpers
      split
      · rename_i hstack
        exact absurd ⟨_, _, _, _, hstack⟩ hcreate
      · rfl
    obtain ⟨os, he, hk⟩ := @run_step true past s _ (stable_kept amid past)
      ⟨[], by simp, .inr hk⟩ fun _ _ _ _ _ => .inl rfl
    rw [hnone, append_nil]
    refine hk.resolve_left ?_
    rintro ⟨n, parent, hm⟩
    rw [← append_cancel_left he, Session.notes] at hm
    split at hm
    · exact created_notMem_dutyNotes _ _ n parent hm
    · rename_i hstack
      exact created_notMem_stepNotes (fun p hp => hcreate ⟨_, p, _, _, hp ▸ hstack⟩) hm
    · cases hm

lemma Run.kept (run : Run amid past s) : Kept amid past s.scene := by
  induction run with
  | start =>
    have hrun : Scene.Run true [] (scene {}) := .start Slab.sound_empty fun _ => rfl
    refine ⟨hrun.sane, ?_, ?_, ?_⟩ <;> simp [scene]
  | @take amid past s step run hk =>
    let t : Session := { s with fired := [], stack := [], answer := .nothing }
    have hcalling : ∀ k st, ¬ Calling t.scene k st := by simp [Calling, scene, dutiesOf, t]
    have hcleared : Kept amid past t.scene := by
      have hsane : t.scene.Sane past := hk.sane.congr hk.sane.sound (fun _ => rfl) rfl
      exact { hk with sane := hsane, own := fun k _ st hc => (hcalling k st hc).elim }
    by_cases hcreate : ∃ parent, step = .create parent
    · obtain ⟨parent, rfl⟩ := hcreate
      have hmade := hcleared.create (parent.map s.slot) [] fun st hc => (hcalling _ st hc).elim
      rwa [append_nil] at hmade
    · have htake := kept_take hcleared .answer fun p hp => hcreate ⟨p, hp⟩
      have hnotes : t.stepNotes step = s.stepNotes step := by cases step <;> rfl
      rwa [hnotes] at htake
  | step run hk => exact kept_step hk

end Session

end JobShell.Hub
