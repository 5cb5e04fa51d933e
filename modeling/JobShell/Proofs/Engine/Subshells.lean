import JobShell.Proofs.Bindings
import JobShell.Proofs.Engine.Homes
import JobShell.Proofs.Engine.Life
import JobShell.Proofs.Engine.Progress

/-!
Subshells have their variables to themselves.

Whoever carries a store while a script runs finds it, with the parent that it was forked from: the
store is neither thrown away nor given to another subshell before the last one who carries it is
done. That takes that the end of a subshell waits for all that was started in it, which it does not
do for a step in the background and for the finalizers of a command.
-/

namespace JobShell

open Desk Machine JobShell.Tree List Stores Slab

/-! ### Stores that are there -/

namespace Stores

variable {s : Stores} {store other : StoreId}

lemma get?_set (h : store ∈ s.shape.keys) (name : String) (v : Value) :
    (s.set store name v).get? store name = some v := by
  rw [keys_shape, Slab.mem_keys] at h
  obtain ⟨t, ht⟩ := Option.isSome_iff_exists.mp h
  simp [get?, set, get?_modify, ht, Bindings.get?_insert]

lemma get?_set_of_ne (h : other ≠ store) (name : String) (v : Value) :
    (s.set store name v).get? other = s.get? other := by
  funext name'
  simp [get?, set, get?_modify, h]

lemma escapeTarget_eq (s : Stores) (store : StoreId) :
    s.escapeTarget store = (s.shape.get? store).join.getD store := by
  rw [escapeTarget, shape, get?_map]
  rcases s.slab.get? store with _ | t <;> rfl

/-- A store that serves whoever carries it: what is assigned to it is found there and nowhere else,
and no subshell gets its slot. -/
structure Serves (s : Stores) (store : StoreId) : Prop where
  assigned : ∀ name v, (s.set store name v).get? store name = some v
  apart : ∀ name v other, other ≠ store → (s.set store name v).get? other = s.get? other
  taken : ∀ parent, (s.fork parent).1 ≠ store

lemma serves_of_mem (hs : s.shape.Sound) (h : store ∈ s.shape.keys) : s.Serves store where
  assigned := get?_set h
  apart := fun name v _ h => get?_set_of_ne h name v
  taken := by
    rintro parent rfl
    rw [(s.shape_fork parent).1, Slab.mem_keys, hs.get?_next] at h
    cases h

end Stores

/-! ### Who carries a store -/

/-- The store that a piece of work carries. -/
def Work.store? : Work → Option StoreId
  | .advance r | .follow r _ => some r.ctx.store
  | .evaluate store _ => some store
  | .await _ (.evaluation store _ _) => some store
  | .defer t => t.store?
  | _ => none

section

variable {loose : StoreId → Prop} {H : Multiset Hold} {s : StoreId}

/-- What is carried by work is marked, or carried for the hub that the work goes on with. -/
lemma Carries.carried {w : Work} (h : Carries loose w H) (hs : w.store? = some s) :
    loose s ∨ ∃ x ∈ H, x.store = some s := by
  have hholds : ∀ {o store a}, (o = none → loose store) →
      loose store ∨ ∃ x ∈ holds o store a, x.store = some store := by
    intro o store a hn
    cases o with
    | none => exact .inl (hn rfl)
    | some hub => exact .inr ⟨_, mem_singleton_self _, rfl⟩
  cases h with
  | finalize p hl =>
    cases hs
    exact .inl hl
  | advance r => exact .inr ⟨_, Multiset.mem_singleton_self _, hs⟩
  | evaluate hx hn | await hx hn =>
    cases hs
    exact hholds hn
  | asks hw => cases hw <;> cases hs
  | _ => cases hs

lemma CarriesAll.carried {ws : List Work} {w : Work} (h : CarriesAll loose ws H) (hw : w ∈ ws)
    (hs : w.store? = some s) : loose s ∨ ∃ x ∈ H, x.store = some s := by
  induction h with
  | nil => cases hw
  | cons hu _ ih =>
    rcases mem_cons.mp hw with rfl | hw
    · exact (hu.carried hs).imp_right fun ⟨x, hx, h⟩ => ⟨x, Multiset.mem_add.mpr (.inl hx), h⟩
    · exact (ih hw).imp_right fun ⟨x, hx, h⟩ => ⟨x, Multiset.mem_add.mpr (.inr hx), h⟩

end

namespace Engine

/-- The desk of an engine with all its work in hand. -/
lemma Carried.carried {loose : StoreId → Prop} {R : Rule} {log : Log} {e : Engine}
    {ws : List Work} (h : Carried loose R log 0 [] e ws) :
    ∃ handles past ds H, R past log (e.desk handles ds H) ∧ (∀ t ∈ e.tasks, t.Fits loose) ∧
      ∀ w ∈ ws, ∀ s, w.store? = some s → loose s ∨ ∃ x ∈ H, x.store = some s := by
  cases h with
  | borne hws u =>
    obtain ⟨handles, past, hr⟩ := u.books
    rw [add_zero] at hr
    exact ⟨handles, past, _, _, hr, u.queue, fun w hw s hs => hws.carried hw hs⟩
  | follow _ hws u =>
    obtain ⟨handles, past, hr⟩ := u.books
    rw [add_zero] at hr
    refine ⟨handles, past, _, _, hr, u.queue, fun w hw s hs => ?_⟩
    rcases mem_cons.mp hw with rfl | hw
    · exact .inr ⟨_, Multiset.mem_add.mpr (.inl (Multiset.mem_singleton_self _)), hs⟩
    · exact (hws.carried hw hs).imp_right
        fun ⟨x, hx, h⟩ => ⟨x, Multiset.mem_add.mpr (.inr hx), h⟩

end Engine

lemma Desk.Sheltering.mem_keys_of_unmarked {T : List StoreId} {past : List Hub.Note}
    {log : Log} {d : Desk} (sh : Sheltering (T ++ [Stores.root]) past log d)
    {s : StoreId} (hT : s ∉ T) (hs : s ∈ T ++ [Stores.root] ∨ s ∈ d.stores.keys) :
    s ∈ d.stores.keys := by
  rcases hs with hs | hs
  · rcases mem_append.mp hs with hs | hs
    · exact absurd hs hT
    · rw [mem_singleton.mp hs, Slab.mem_keys, sh.root]
      rfl
  · exact hs

/-! ### Who is left behind -/

namespace Engine

/-- The stores of subshells in which a piece of work leaves someone whom no one waits for: a step in
the background, or a finalizer of a command. -/
def strayed (e : Engine) (w : Work) : List StoreId :=
  (((e.perform w).2.filterMap Work.finalizes?) ++ match w with
    | .advance r => if r.steps.head?.any Step.isBackground then [r.ctx.store] else []
    | _ => []).filter (· != Stores.root)

/-- Work that gives up waiting for no one may do all it does, if what it leaves behind is marked. -/
lemma allows_strayed {e : Engine} {w : Work} {T : List StoreId} (hr : root ∈ T)
    (hg : e.givesUp w = false) : Allows ⟨true, false, true, (· ∈ e.strayed w ++ T)⟩ e w := by
  have hmark : ∀ s, s ∈ (e.perform w).2.filterMap Work.finalizes? ∨ (∃ r, w = .advance r ∧
      r.steps.head?.any Step.isBackground = true ∧ s = r.ctx.store) → s ∈ e.strayed w ++ T := by
    intro s hs
    by_cases hroot : s = root
    · exact mem_append_right _ (hroot ▸ hr)
    · refine mem_append_left _ (mem_filter.mpr ⟨mem_append.mpr ?_, ?_⟩)
      swap
      · simpa using hroot
      refine hs.imp_right ?_
      rintro ⟨r, rfl, hback, rfl⟩
      simp [hback]
  refine ⟨fun _ => rfl, fun h => ?_, fun u hu s hs => ?_, fun r hwr step hstep hb => ?_⟩
  · cases hg.symm.trans h
  · exact hmark s (.inl (mem_filterMap.mpr ⟨u, hu, hs⟩))
  · exact hmark _ (.inr ⟨r, hwr, by simp [Option.mem_def.mp hstep, hb], rfl⟩)

end Engine

namespace Machine

/-- The stores that are carried: by work in hand, by tasks, by jobs, and by those who are to be
called when a hub completes. -/
def carried (m : Machine) : List StoreId :=
  m.stack.filterMap Work.store? ++ m.engine.tasks.filterMap Task.store? ++
    m.engine.jobs.map (·.2.store) ++
    (m.engine.hubs.slots.filterMap id).flatMap fun h => h.subscribers.filterMap (·.2.store?)

/-- All are at home in an engine with the work on the stack in hand, some stores of subshells being
marked. -/
def Sheltered (T : List StoreId) (m : Machine) : Prop :=
  Engine.Carried (· ∈ T ++ [Stores.root]) (Sheltering (T ++ [Stores.root])) [] 0 [] m.engine m.stack

variable {m : Machine} {T : List StoreId} {s : StoreId}

section

variable (h : m.Sheltered T) (hs : s ∈ m.carried) (hT : s ∉ T)
include h hs hT

lemma Sheltered.mem_keys : s ∈ m.engine.stores.shape.keys := by
  obtain ⟨handles, past, ds, H, sh, hq, hwork⟩ := Engine.Carried.carried h
  obtain ⟨home, hm⟩ := sh.homes
  refine sh.mem_keys_of_unmarked hT ?_
  have hheld : ∀ x ∈ (m.engine.desk handles ds H).held, x.store = some s →
      s ∈ T ++ [root] ∨ s ∈ m.engine.stores.shape.keys := by
    intro x hx hst
    rw [← hm.held x hx s hst]
    exact sh.driven_mem_keys hm (mem_drivers.mpr (.inl (mem_hands hx)))
  simp only [carried, mem_append, mem_filterMap, mem_map, mem_flatMap] at hs
  rcases hs with ((⟨w, hw, hs⟩ | ⟨t, ht, hs⟩) | ⟨p, hp, hs⟩) | ⟨h, ⟨_, hslot, rfl⟩, cb, hcb, hs⟩
  · rcases hwork w hw s hs with hs | ⟨x, hx, hs⟩
    · exact .inl hs
    · exact hheld x (Multiset.mem_add.mpr (.inl hx)) hs
  · rcases hi : t.hub? with _ | i
    · exact .inl ((hq t ht).loose s hi hs)
    · refine hheld ⟨i, t.store?, none⟩ (Multiset.mem_add.mpr (.inr ?_)) hs
      exact mem_filterMap.mpr ⟨t, ht, by simp [Task.hold?, hi]⟩
  · have hjob : (p.1, p.2.hub, p.2.store) ∈ (m.engine.desk handles ds H).jobs :=
      mem_map_of_mem (f := Engine.place) hp
    rw [← hs, ← hm.jobs _ _ _ hjob]
    exact sh.driven_mem_keys hm (mem_drivers.mpr (.inr (.inl ⟨_, _, hjob⟩)))
  · obtain ⟨i, hi⟩ := mem_iff_getElem?.mp hslot
    have hcb' : cb.2 ∈ m.engine.hubs.callbacks :=
      Hubs.mem_callbacks.mpr ⟨i, h, by simp [Slab.get?, hi], cb.1, hcb⟩
    rw [← (hm.callbacks _ hcb').carried s hs]
    exact sh.driven_mem_keys hm (mem_drivers_of_callback hcb')

lemma Sheltered.serves : m.engine.stores.Serves s := by
  obtain ⟨_, _, _, _, sh, -⟩ := Engine.Carried.carried h
  exact serves_of_mem sh.sound (h.mem_keys hs hT)

/-- What escapes from a store that is carried goes to a store that is there, unless that is
marked. -/
lemma Sheltered.target_mem_keys (htarget : m.engine.stores.escapeTarget s ∉ T) :
    m.engine.stores.escapeTarget s ∈ m.engine.stores.shape.keys := by
  have hmem := h.mem_keys hs hT
  obtain ⟨_, _, _, _, sh, -⟩ := Engine.Carried.carried h
  rw [escapeTarget_eq] at htarget ⊢
  rcases hp : (m.engine.stores.shape.get? s).join with _ | parent
  · exact hmem
  · rw [hp] at htarget
    exact sh.mem_keys_of_unmarked htarget (sh.parent_mem_keys (Option.join_eq_some_iff.mp hp))

end

/-! ### Runs -/

/-- The stores of subshells in which the next step leaves someone whom no one waits for. -/
def strayed (m : Machine) : List StoreId := (m.stack.head?.map m.engine.strayed).getD []

/-- Whether the next step gives up waiting. -/
def givesUp (m : Machine) : Bool := m.stack.head?.any m.engine.givesUp

/-- Each step leaves all at home, and reshapes the stores by one at most. -/
lemma Sheltered.step (h : m.Sheltered T) (hg : m.givesUp = false) :
    m.step.Sheltered (m.strayed ++ T) ∧
      Reshaped m.engine.stores.shape m.step.engine.stores.shape := by
  have hT : ∀ s ∈ T ++ [root], s ∈ m.strayed ++ T ++ [root] := by
    rw [append_assoc]
    exact fun s hs => mem_append_right _ hs
  have hmarked := h.imp hT fun _ _ _ _ sh => sh.mark hT
  obtain ⟨⟨ss, hc, -⟩, hσ⟩ := hmarked.step (law_sheltering _ true true) rfl fun w ws hw => by
    have hw' : m.engine.givesUp w = false := by simpa [givesUp, hw] using hg
    simpa [strayed, hw] using Engine.allows_strayed (T := T ++ [root]) (by simp) hw'
  exact ⟨hc.imp (fun _ h => h) fun _ _ _ _ sh => { sh with }, hσ⟩

end Machine

namespace Engine

variable {e : Engine} {script : Script} {k : ℕ}

/-- A script that is run to its end, after some steps; when it has ended, what it left is done. -/
def course (e : Engine) (script : Script) (k : ℕ) : Machine :=
  step^[k] ⟨(e.spawn script).2, [.await (e.spawn script).1 .request, .drain]⟩

/-- The stores of subshells in which the first steps left someone whom no one waits for. -/
def strayedBefore (e : Engine) (script : Script) : ℕ → List StoreId
  | 0 => []
  | k + 1 => (e.course script k).strayed ++ e.strayedBefore script k

lemma course_succ (e : Engine) (script : Script) (k : ℕ) :
    e.course script (k + 1) = (e.course script k).step :=
  Function.iterate_succ_apply' _ _ _

section

variable (he : e.AtRest) (hroot : e.stores.shape.get? root = some none)
include he hroot

lemma AtRest.sheltering : Sheltering [root] [] [] (e.desk [] [] 0) := by
  have hempty : ∀ slot, e.hubs.get? slot = none := by
    intro slot
    by_contra hne
    obtain ⟨h, hg⟩ := Option.ne_none_iff_exists'.mp hne
    have hmem : (slot, h) ∈ e.hubs.entries := mem_entries.mpr hg
    simp [he.hubs.2] at hmem
  have hcb : e.hubs.callbacks = 0 := by simp [Hubs.callbacks, he.hubs.2]
  obtain ⟨run, owned⟩ : Based [] [] (e.desk [] [] 0) := based_rest he.hubs.1 hempty he.tasks he.jobs
  refine ⟨run, owned, sound_shape.mpr he.stores.1, ?_, hroot, fun _ => root,
    ⟨fun slot h hg => ?_, ?_, ?_, ?_⟩⟩
  · simp only [desk, keys_shape, he.stores.2, hcb]
    rfl
  · cases (hempty slot).symm.trans hg
  · simp [desk, hcb]
  all_goals simp [desk, he.tasks, he.jobs]

lemma AtRest.sheltered (hg : ∀ i < k, (e.course script i).givesUp = false) :
    (e.course script k).Sheltered (e.strayedBefore script k) := by
  induction k with
  | zero =>
    have l := law_sheltering [root] true true
    have u : Under (· ∈ [root]) (Sheltering [root]) [] 0 [] e :=
      ⟨by simp [he.tasks], [], [], he.sheltering hroot⟩
    have hfree : Admits (· ∈ [root]) 0 e.hubs.next root none :=
      .inl (mem_singleton_self _)
    obtain ⟨e', he', u', -⟩ := u.spawnRunner l (script.items.map .item) {} hfree
    have hspawn : e.spawn script =
        (e.hubs.next, { e' with hubs := e'.hubs.retain e.hubs.next }) := by
      simp only [spawn, spawnItems, he']
    rw [Machine.Sheltered, course, Function.iterate_zero, id_eq, hspawn]
    exact .borne (.cons (.request _) (Carries.asks .drain).all) (u'.retain l _)
  | succ k ih =>
    rw [course_succ]
    exact ((ih fun i hi => hg i (hi.trans (Nat.lt_succ_self k))).step (hg k (Nat.lt_succ_self k))).1

lemma AtRest.shape_carried (hg : ∀ i < k, (e.course script i).givesUp = false) {s : StoreId} {i : ℕ}
    (hi : i ≤ k) (hs : s ∉ e.strayedBefore script k)
    (hc : ∀ n, i ≤ n → n ≤ k → s ∈ (e.course script n).carried) :
    (e.course script k).engine.stores.shape.get? s =
      (e.course script i).engine.stores.shape.get? s := by
  induction hi with
  | refl => rfl
  | @step k hi ih =>
    have hs' : s ∉ e.strayedBefore script k := fun h => hs (mem_append_right _ h)
    have hg' : ∀ i < k, (e.course script i).givesUp = false :=
      fun i hi => hg i (hi.trans (Nat.lt_succ_self k))
    have hk := he.sheltered hroot hg'
    obtain ⟨hnext, hshape⟩ := hk.step (hg k (Nat.lt_succ_self k))
    obtain ⟨_, _, _, _, sh, -⟩ := Carried.carried hk
    rw [← ih hg' hs' fun n h h' => hc n h (h'.trans k.le_succ)]
    have hcarried := hc (k + 1) (Nat.le_succ_of_le hi) le_rfl
    rw [course_succ] at hcarried ⊢
    exact hshape.get?_eq sh.sound (hk.mem_keys (hc k hi k.le_succ) hs') (hnext.mem_keys hcarried hs)

end

/-- A store that is carried while a script runs is there for those who carry it: what is assigned
is found in it and nowhere else, what escapes is found where it goes, the store has the parent it
had as long as it is carried, and no other subshell gets its slot. That is so unless a step in the
background or a finalizer was left in the store (or in its parent, as far as what escapes goes), and
as long as no one has given up waiting for a pipeline. -/
theorem carried_stores_serve (e : Engine) (he : e.AtRest)
    (hroot : e.stores.shape.get? Stores.root = some none) (script : Script) (k : ℕ)
    (hg : ∀ i < k, (e.course script i).givesUp = false) (s : StoreId)
    (hs : s ∈ (e.course script k).carried) (hstray : s ∉ e.strayedBefore script k) :
    (e.course script k).engine.stores.Serves s ∧
      ((e.course script k).engine.stores.escapeTarget s ∉ e.strayedBefore script k → ∀ name v,
        ((e.course script k).engine.stores.escape s name v).get?
          ((e.course script k).engine.stores.escapeTarget s) name = some v) ∧
      ∀ i ≤ k, (∀ n, i ≤ n → n ≤ k → s ∈ (e.course script n).carried) →
        (e.course script k).engine.stores.shape.get? s =
          (e.course script i).engine.stores.shape.get? s := by
  have h := he.sheltered hroot hg
  refine ⟨h.serves hs hstray, fun htarget => ?_, fun i hi hc => ?_⟩
  · exact get?_set (h.target_mem_keys hs hstray htarget)
  · exact he.shape_carried hroot hg hi hstray hc

/-- A shell with two routines: one writes its arguments, and one has a finalizer that sets a
variable beyond its own shell. -/
def finishing : Engine where
  services := { routines := [("say", ⟨fun call w => (.text (String.join call.args), {}, w), []⟩),
    ("fin", ⟨fun _ w => (.nothing, {}, w), [fun _ w => (({} : Output).escape "X" (.int 1), w)]⟩)] }

def fin : Node := .command ⟨[], some ⟨[.literal "fin"]⟩, [], []⟩

lemma finishing_atRest : finishing.AtRest := atRest_fresh {} finishing.services {} _

/-- `(((fin); say a))` -/
def enclosedTwice : Script :=
  ⟨[⟨.subshell [⟨.subshell [⟨.subshell [⟨fin, false⟩], false⟩, ⟨say "a", false⟩], false⟩], false⟩]⟩

/-- When `say a` is reached, the finalizer of `fin` is still to come and carries the store of the
innermost shell, which is gone. The shells around it have their stores. -/
theorem carried_stores_serve_enclosedTwice :
    3 ∈ finishing.strayedBefore enclosedTwice 28 ∧
      (finishing.course enclosedTwice 28).engine.stores.Serves 2 ∧
      (∀ name v,
        ((finishing.course enclosedTwice 28).engine.stores.escape 2 name v).get? 1 name = some v) ∧
      (finishing.course enclosedTwice 28).engine.stores.shape.get? 2 =
        (finishing.course enclosedTwice 5).engine.stores.shape.get? 2 := by
  obtain ⟨hserves, hescape, hparent⟩ := carried_stores_serve finishing finishing_atRest rfl
    enclosedTwice 28 (by decide +kernel) 2 (by decide +kernel) (by decide +kernel)
  have htarget : (finishing.course enclosedTwice 28).engine.stores.escapeTarget 2 = 1 := by
    decide +kernel
  have hcarried : ∀ n ≤ 28, 5 ≤ n → 2 ∈ (finishing.course enclosedTwice n).carried := by
    decide +kernel
  refine ⟨by decide +kernel, hserves, ?_, hparent 5 (by decide) fun n h h' => hcarried n h' h⟩
  rw [htarget] at hescape
  exact hescape (by decide +kernel)

/-- `(fin)` -/
def enclosed : Script := ⟨[⟨.subshell [⟨fin, false⟩], false⟩]⟩

/-- The finalizer of a command in a subshell is called when the store of the subshell is gone, and
what escapes from it is lost. -/
theorem finalizer_escape_lost :
    (∃ k, 1 ∈ (finishing.course enclosed k).carried ∧
      (finishing.course enclosed k).engine.stores.shape.get? 1 = none) ∧
    (((finishing.run 100 enclosed).2.drain 100).2.rootValue? "X").isNone ∧
    (((finishing.run 100 ⟨[⟨fin, false⟩]⟩).2.drain 100).2.rootValue? "X").isSome :=
  ⟨⟨30, by decide +kernel, by decide +kernel⟩, by decide +kernel, by decide +kernel⟩

end Engine

end JobShell
