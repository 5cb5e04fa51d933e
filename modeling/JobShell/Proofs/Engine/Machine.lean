import JobShell.Engine.Request
import JobShell.Proofs.Hub.Entries

/-!
Following the machine.

A machine leads to a state when it gets there by working, with no reply on the way. An engine at
work is described by its hubs, each on its own, by its queue, and by a base that has all the rest.
-/

namespace JobShell

open Machine List Hubs

namespace Machine

variable {P Q : Machine → Prop} {m : Machine}

/-- The machine gets to a state with a property. -/
inductive Leads (P : Machine → Prop) : Machine → Prop where
  | here {m : Machine} (h : P m) : Leads P m
  | step {e : Engine} {w : Work} {stack : List Work} (hw : ∀ r, w ≠ .reply r)
      (h : Leads P ⟨(e.perform w).1, (e.perform w).2 ++ stack⟩) : Leads P ⟨e, w :: stack⟩

lemma Leads.bind (h : Leads P m) (hq : ∀ m', P m' → Leads Q m') : Leads Q m := by
  induction h with
  | here hp => exact hq _ hp
  | step hw _ ih => exact .step hw ih

lemma run_work {w : Work} (hw : ∀ r, w ≠ .reply r) (fuel : ℕ) (e : Engine) (stack : List Work) :
    run (fuel + 1) ⟨e, w :: stack⟩ = run fuel ⟨(e.perform w).1, (e.perform w).2 ++ stack⟩ := by
  cases w with
  | reply r => exact absurd rfl (hw r)
  | _ => rfl

lemma Leads.run (h : Leads P m) :
    ∃ m' k, P m' ∧ ∀ fuel, run (fuel + k) m = Machine.run fuel m' := by
  induction h with
  | here hp => exact ⟨_, 0, hp, fun _ => rfl⟩
  | step hw _ ih =>
    obtain ⟨m', k, hp, hk⟩ := ih
    exact ⟨m', k + 1, hp, fun fuel => (run_work hw (fuel + k) _ _).trans (hk fuel)⟩

end Machine

/-- A hub with its slot. -/
abbrev HubEntry := HubId × Hub Callback

namespace Engine

/-- An engine with these hubs and this queue, and all else as in a base. -/
structure Holds (b : Engine) (E : Multiset HubEntry) (ts : List Task) (e : Engine) : Prop where
  base : e = { b with hubs := e.hubs, tasks := ts }
  sound : e.hubs.Sound
  entries : e.hubs.entries = E

/-- No task, hub, job or buffer is left over. -/
structure Idle (e : Engine) : Prop where
  tasks : e.tasks = []
  hubs : e.hubs.Sound ∧ e.hubs.entries = 0
  captures : e.captures.Sound ∧ e.captures.entries = 0
  jobs : e.jobs = []
  table : e.table.entries = []
  owner : e.owner = none

/-- The hub in a slot has no status yet. -/
def Awaited (X : HubId) (E : Multiset HubEntry) : Prop := ∃ h, (X, h) ∈ E ∧ h.status = none

section Hubs

variable {b e : Engine} {E E' R : Multiset HubEntry} {ts : List Task} {S : List Work}
  {P : Machine → Prop} {i X : HubId} {h : Hub Callback} {s : Int}

lemma Awaited.update (ha : Awaited X ({(i, h)} + R)) {h' : Hub Callback} (hn : h'.status = none) :
    Awaited X ({(i, h')} + R) := by
  obtain ⟨a, hm, hs⟩ := ha
  rcases Multiset.mem_add.mp hm with hm | hm
  · cases Multiset.mem_singleton.mp hm
    exact ⟨h', by simp, hn⟩
  · exact ⟨a, Multiset.mem_add.mpr (.inr hm), hs⟩

lemma Awaited.add (ha : Awaited X R) (R' : Multiset HubEntry) : Awaited X (R' + R) := by
  obtain ⟨a, hm, hs⟩ := ha
  exact ⟨a, Multiset.mem_add.mpr (.inr hm), hs⟩

lemma Holds.congr (h : Holds b E ts e) (he : E = E') : Holds b E' ts e := he ▸ h

lemma Holds.update (hh : Holds b E ts e) {hubs : Hubs Callback} (hs : hubs.Sound)
    (he : hubs.entries = E') : Holds b E' ts { e with hubs } :=
  ⟨by rw [hh.base], hs, he⟩

lemma Holds.rebase (hh : Holds b E ts e) (f : Engine → Engine)
    (hf : ∀ (e : Engine) hubs ts, f { e with hubs, tasks := ts } =
      { f e with hubs, tasks := ts }) :
    Holds (f b) E ts (f e) := by
  have hfe : f e = { f b with hubs := e.hubs, tasks := ts } := by
    conv_lhs => rw [hh.base]
    exact hf b e.hubs ts
  exact ⟨by rw [hfe], by rw [hfe]; exact hh.sound, by rw [hfe]; exact hh.entries⟩

lemma Holds.defer (hh : Holds b E ts e) (t : Task) : Holds b E (ts ++ [t]) (e.defer t) := by
  refine ⟨?_, hh.sound, hh.entries⟩
  conv_lhs => rw [hh.base]
  rfl

/-! ### Duties -/

lemma leads_duty (hh : Holds b E ts e) {d : Duty} {ds : List Duty}
    (he : (e.hubs.perform d).1.entries = E') (hd : (e.hubs.perform d).2 = (none, ds))
    (next : ∀ e', Holds b E' ts e' → Leads P ⟨e', ds.map .duty ++ S⟩) :
    Leads P ⟨e, .duty d :: S⟩ := by
  refine .step (by simp) ?_
  have hp : e.perform (.duty d) = ({ e with hubs := (e.hubs.perform d).1 }, ds.map .duty) := by
    simp only [perform, hd, Option.elim, nil_append]
  rw [hp]
  exact next _ (hh.update (Sound.perform hh.sound d) he)

section

variable (hh : Holds b ({(i, h)} + R) ts e)
include hh

lemma leads_waiting {d : Duty} (ht : d.target? = some i) (hn : h.status = none)
    (hw : ¬ (h.heed d).IsDue) (next : ∀ e', Holds b ({(i, h.heed d)} + R) ts e' → Leads P ⟨e', S⟩) :
    Leads P ⟨e, .duty d :: S⟩ := by
  obtain ⟨he, hd⟩ := entries_waiting hh.entries ht hn hw
  exact leads_duty hh he hd next

lemma leads_due {d : Duty} (ht : d.target? = some i) (hn : h.status = none)
    (hdue : (h.heed d).IsDue) (hs : h.verdict d = s)
    (next : ∀ e', Holds b ({(i, h.fulfil d)} + R) ts e' →
      Leads P ⟨e', (h.duties i s).map .duty ++ S⟩) :
    Leads P ⟨e, .duty d :: S⟩ := by
  obtain ⟨he, hd⟩ := entries_due hh.entries ht hn hdue
  exact leads_duty hh he (hs ▸ hd) next

lemma leads_settle_spent (hs : h.isSpent = true) (next : ∀ e', Holds b R ts e' → Leads P ⟨e', S⟩) :
    Leads P ⟨e, .duty (.settle i) :: S⟩ :=
  leads_duty hh (settle_spent hh.entries hs) rfl next

lemma leads_settle_unspent (hs : h.isSpent = false)
    (next : ∀ e', Holds b ({(i, h)} + R) ts e' → Leads P ⟨e', S⟩) :
    Leads P ⟨e, .duty (.settle i) :: S⟩ := by
  have he : (e.hubs.perform (.settle i)).1 = e.hubs := settle_unspent hh.entries hs
  exact leads_duty hh (by rw [he]; exact hh.entries) rfl next

end

lemma leads_deliver_nil (next : Leads P ⟨e, S⟩) : Leads P ⟨e, .duty (.deliver i s []) :: S⟩ :=
  .step (by simp) next

lemma leads_deliver_one (hh : Holds b ({(i, h)} + R) ts e) {key : ℕ} {c : Callback}
    (hc : h.subscribers = [(key, c)])
    (next : ∀ e', Holds b ({(i, { h with subscribers := [] })} + R) ts e' →
      Leads P ⟨(e'.call s c).1, (e'.call s c).2 ++ .duty (.deliver i s []) :: S⟩) :
    Leads P ⟨e, .duty (.deliver i s [key]) :: S⟩ := by
  refine .step (by simp) ?_
  have hp : e.hubs.perform (.deliver i s [key]) =
      (e.hubs.update i (·.without key), some (c, s), [.deliver i s []]) := by
    simp [Hubs.perform, Slab.get?_of_entries hh.entries, hc]
  simp only [perform, hp, Option.elim, append_assoc, map_cons, map_nil, cons_append, nil_append]
  refine next _ (hh.update (Sound.update hh.sound _ _) ?_)
  rw [entries_update hh.entries, Hub.without_sole hc]

lemma leads_settle_all {G : List HubEntry} (hG : ∀ p ∈ G, p.2.isSpent = true)
    (hh : Holds b ((G : Multiset HubEntry) + R) ts e)
    (next : ∀ e', Holds b R ts e' → Leads P ⟨e', S⟩) :
    Leads P ⟨e, (G.map fun p => Work.duty (.settle p.1)) ++ S⟩ := by
  induction G generalizing e with
  | nil => exact next e (hh.congr (by simp))
  | cons p G ih =>
    have hcons : Holds b ({p} + ((G : Multiset HubEntry) + R)) ts e := by
      refine hh.congr ?_
      rw [← Multiset.cons_coe, Multiset.cons_add, Multiset.singleton_add]
    refine leads_settle_spent hcons (hG p (by simp)) fun e' h' => ?_
    exact ih (fun q hq => hG q (by simp [hq])) h'

/-! ### Waiting -/

lemma leads_turn {t : Task} (hh : Holds b E (t :: ts) e) (ha : Awaited X E) {w : Waiter}
    (next : ∀ e', Holds b E ts e' →
      Leads P ⟨(e'.runTask t).1, (e'.runTask t).2 ++ .await X w :: S⟩) :
    Leads P ⟨e, .await X w :: S⟩ := by
  refine .step (by simp) ?_
  obtain ⟨h, hm, hn⟩ := ha
  have hg : e.hubs.get? X = some h := by
    rw [← hh.entries] at hm
    exact Slab.mem_entries.mp hm
  have ht : e.tasks = t :: ts := by rw [hh.base]
  have hp : e.perform (.await X w) =
      (((e.withTasks ts).runTask t).1,
        ((e.withTasks ts).runTask t).2 ++ [.await X w]) := by
    simp only [perform, await, hg, hn, turnThen, turn, ht]
  rw [hp, append_assoc]
  refine next _ ⟨?_, hh.sound, hh.entries⟩
  conv_lhs => rw [hh.base]

/-- Whoever waits for a hub alone is told its status, and the hub is dropped. -/
lemma leads_await_done (hh : Holds b ({(X, h)} + R) ts e) (hd : h.status = some s)
    (hs : h.subscribers = []) (hr : h.retained = 1) {w : Waiter} (next : ∀ e', Holds b R ts e' →
      Leads P ⟨(e'.answer (.ok s) w).1, (e'.answer (.ok s) w).2 ++ S⟩) :
    Leads P ⟨e, .await X w :: S⟩ := by
  refine .step (by simp) ?_
  have hp : e.perform (.await X w) =
      ({ e with hubs := e.hubs.release X } : Engine).answer (.ok s) w := by
    simp only [perform, await, Slab.get?_of_entries hh.entries, hd]
  rw [hp]
  have he := release_last hh.entries (by simp [hd]) hs hr
  exact next _ (hh.update (Sound.release hh.sound X) he)

end Hubs

/-! ### Compound commands -/

/-- A compound command that is not a pipeline. -/
def Compound : Tree.Node → Prop
  | .command _ | .pipeline _ _ => False
  | _ => True

lemma advance_compound {e : Engine} {r : Runner} {node : Tree.Node} (hn : Compound node)
    {background : Bool} {steps : List Step} (hr : r.steps = .item ⟨node, background⟩ :: steps) :
    e.advance r =
      if background then
        let p := e.spawnNode node r.ctx.inBackground none
        (p.2.1, p.2.2.map .duty ++ [.advance { r with steps, background := some 0 }])
      else
        let p := e.spawnNode node r.ctx (some r.hub)
        (p.2.1, p.2.2.map .duty ++ [.follow { r with steps } p.1]) := by
  cases node with
  | command | pipeline => exact hn.elim
  | _ => cases background <;> simp only [Engine.advance, hr] <;> rfl

end Engine

end JobShell
