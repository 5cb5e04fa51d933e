import JobShell.Proofs.Engine.Machine
import Mathlib.Data.Finset.Max
import Mathlib.Data.Multiset.Bind

/-!
Who owes what to which hub.

A hub that has no status yet is completed or sealed by exactly one party, and hears from each of
its children exactly once. These debts are marks: some stand on the stack of the machine, some with
tasks and jobs, some in the hubs themselves. The books balance, and each way to change a hub keeps
them so. A mark below someone who waits is older than the hub that is waited for, so whoever waits
is not waited for in turn.
-/

namespace JobShell

open List Multiset Hub Nat Function

/-- The hub that a callback goes on with. -/
def Callback.hub : Callback → HubId
  | .runner r => r.hub
  | .logical hub _ _ _ => hub
  | .branch hub _ _ _ => hub
  | .loop l => l.hub
  | .subshell hub _ => hub
  | .negate hub => hub

/-- What is still to be done to a hub: complete or seal it, tell it of a child, call a subscriber,
drop it, or stop waiting for it. -/
inductive Mark where
  | drive (hub : HubId)
  | report (hub : HubId)
  | deliver (hub : HubId) (status : Int) (key : ℕ)
  | settle (hub : HubId)
  | await (hub : HubId)
deriving DecidableEq

namespace Mark

def hub : Mark → HubId
  | drive hub | report hub | deliver hub _ _ | settle hub | await hub => hub

/-- The marks that hubs count on; a hub that is to be dropped counts on nothing. -/
def isDue : Mark → Bool
  | settle _ => false
  | _ => true

/-- The marks that may stand on any others. -/
def isFree : Mark → Bool
  | settle _ | await _ => false
  | _ => true

def settles? : Mark → Option HubId
  | settle hub => some hub
  | _ => none

end Mark

/-- What a duty owes. -/
def Duty.marks : Duty → List Mark
  | .notify hub _ => [.drive hub]
  | .sealOff hub => [.drive hub]
  | .deliver hub status ks => ks.map (.deliver hub status)
  | .report parent _ _ _ => [.report parent]
  | .settle hub => [.settle hub]

namespace Hub

/-- What a hub counts on. -/
def wants (i : HubId) (h : Hub Callback) : Multiset Mark :=
  (match h.status with
    | none => (if h.isSealed then 0 else {.drive i}) + Multiset.replicate h.pending (.report i)
    | some status => (h.subscribers.map fun s => Mark.deliver i status s.1 : List Mark)) +
  Multiset.replicate h.retained (.await i)

/-- What others may count on a hub for: to have its subscribers go on, and to tell its parent. -/
def gives (h : Hub Callback) : Multiset Mark :=
  (h.subscribers.map fun s => Mark.drive s.2.hub : List Mark) + match h.status, h.parent with
    | none, some p => {.report p}
    | _, _ => 0

/-- What follows once a hub has a status. -/
def marks (i : HubId) (h : Hub Callback) (status : Int) : List Mark :=
  h.subscribers.map (fun s => Mark.deliver i status s.1) ++ h.parent.toList.map Mark.report ++
    [.settle i]

variable {i : HubId} {h : Hub Callback} {m : Mark}

lemma marks_duties (i : HubId) (h : Hub Callback) (s : Int) :
    (h.duties i s).flatMap Duty.marks = h.marks i s := by
  rcases hp : h.parent with _ | p <;>
    simp [duties, marks, hp, Duty.marks, comp_def]

lemma mem_wants : m ∈ h.wants i ↔
    (h.status = none ∧ (h.isSealed = false ∧ m = .drive i ∨ 0 < h.pending ∧ m = .report i)) ∨
      (∃ status, h.status = some status ∧ ∃ s ∈ h.subscribers, m = .deliver i status s.1) ∨
        0 < h.retained ∧ m = .await i := by
  rcases hs : h.status with _ | s <;> rcases hb : h.isSealed with _ | _ <;>
    simp [wants, hs, hb, Multiset.mem_replicate, Nat.pos_iff_ne_zero, eq_comm, or_assoc]

lemma hub_of_mem_wants (hm : m ∈ h.wants i) : m.hub = i := by
  rcases mem_wants.mp hm with ⟨-, ⟨-, rfl⟩ | ⟨-, rfl⟩⟩ | ⟨st, -, s, -, rfl⟩ | ⟨-, rfl⟩ <;> rfl

lemma mem_gives : m ∈ h.gives ↔ (∃ s ∈ h.subscribers, m = .drive s.2.hub) ∨
    h.status = none ∧ ∃ p, h.parent = some p ∧ m = .report p := by
  rcases hs : h.status with _ | s <;> rcases hp : h.parent with _ | p <;>
    simp [gives, hs, hp, eq_comm]

end Hub

namespace Accounts

/-- The marks of a stack that hubs count on. -/
def due (M : List Mark) : Multiset Mark := (M.filter Mark.isDue : List Mark)

/-- All that hubs count on. -/
def wants (E : Multiset HubEntry) : Multiset Mark := E.bind fun p => p.2.wants p.1

/-- All that hubs can be counted on for. -/
def gives (E : Multiset HubEntry) : Multiset Mark := E.bind fun p => p.2.gives

/-- The hubs that are to be dropped. -/
def settling (M : List Mark) : List HubId := M.filterMap Mark.settles?

/-- Below someone who waits all is older than what is waited for, and a hub is dropped only after
its subscribers have been called. -/
def Layered (birth : HubId → ℕ) : List Mark → Prop
  | [] => True
  | .await X :: M => (∀ m ∈ M, birth m.hub < birth X) ∧ Layered birth M
  | .settle f :: M => (∀ status key, .deliver f status key ∉ M) ∧ Layered birth M
  | _ :: M => Layered birth M

/-- A hub is younger than its parent and than those that its subscribers go on with. -/
structure Aged (birth : HubId → ℕ) (clock : ℕ) (p : HubEntry) : Prop where
  now : birth p.1 < clock
  subscribers : ∀ s ∈ p.2.subscribers, birth s.2.hub < birth p.1
  parent : p.2.status = none → ∀ q, p.2.parent = some q → birth q < birth p.1

/-- The books of some hubs: debts stand with those who drive or await hubs, and on a stack. -/
structure Books (E : Multiset HubEntry) (D : Multiset Mark) (M : List Mark) : Prop where
  keyed : (E.map Prod.fst).Nodup
  balance : D + due M + gives E = wants E
  pending : ∀ p ∈ E, p.2.status = none → p.2.isSealed = true → 0 < p.2.pending
  single : ∀ p ∈ E, p.2.subscribers.length ≤ 1

lemma Books.empty : Books 0 0 [] := ⟨by simp, by simp [wants, gives, due], by simp, by simp⟩

/-- Books of hubs that are dropped in time, and with those who wait in order. -/
structure Balanced (birth : HubId → ℕ) (clock : ℕ) (E : Multiset HubEntry) (D : Multiset HubId)
    (M : List Mark) : Prop extends Books E (D.map .drive) M where
  dropped : ∀ p ∈ E, p.2.status.isSome = true → p.2.retained = 0 → p.1 ∈ settling M
  settled : ∀ f ∈ settling M, ∃ h, (f, h) ∈ E ∧ h.status.isSome = true
  once : (settling M).Nodup
  layered : Layered birth M
  aged : ∀ p ∈ E, Aged birth clock p

variable {birth : HubId → ℕ} {clock : ℕ} {E R : Multiset HubEntry} {M M' : List Mark}
  {i c d f X : HubId} {h h' : Hub Callback} {m : Mark} {key : ℕ} {L : List Mark} {u : Duty}
  {status : Int}

@[simp] lemma wants_frame : wants ({(i, h)} + R) = h.wants i + wants R := by
  simp [wants]

@[simp] lemma gives_frame : gives ({(i, h)} + R) = h.gives + gives R := by
  simp [gives]

lemma mem_wants : m ∈ wants E ↔ ∃ p ∈ E, m ∈ p.2.wants p.1 := mem_bind

lemma mem_gives : m ∈ gives E ↔ ∃ p ∈ E, m ∈ p.2.gives := mem_bind

@[simp] lemma due_append : due (M' ++ M) = due M' + due M := by
  simp [due]

lemma due_cons (hm : m.isDue = true) : due (m :: M) = {m} + due M := by
  simp [due, hm]

lemma mem_due : m ∈ due M ↔ m ∈ M ∧ m.isDue = true := by
  simp [due]

lemma mem_settling : f ∈ settling M ↔ .settle f ∈ M := by
  simp only [settling, List.mem_filterMap]
  constructor
  · rintro ⟨m, hm, hf⟩
    cases m <;> simp [Mark.settles?] at hf
    exact hf ▸ hm
  · exact fun hm => ⟨_, hm, rfl⟩

lemma Layered.tail (hl : Layered birth (m :: M)) : Layered birth M := by
  cases m with
  | await | settle => exact hl.2
  | _ => exact hl

lemma Layered.drop (hl : Layered birth (L ++ M)) : Layered birth M := by
  induction L with
  | nil => exact hl
  | cons m L ih => exact ih hl.tail

lemma Layered.remove (hl : Layered birth (L ++ m :: M))
    (hL : ∀ k ∈ L, ∃ Y, k = .await Y) : Layered birth (L ++ M) := by
  induction L with
  | nil => exact hl.tail
  | cons k L ih =>
    obtain ⟨Y, rfl⟩ := hL k mem_cons_self
    have ih := ih hl.2 fun k hk => hL k (mem_cons_of_mem _ hk)
    exact ⟨fun k hk => hl.1 k ((Sublist.append_left (sublist_cons_self m M) L).subset hk), ih⟩

/-- No debt is older than what is waited for above it, nor younger below it. -/
lemma Layered.apart (hl : Layered birth (L ++ .await X :: M))
    (hL : ∀ k ∈ L, ∃ Y, k = .await Y) : ∀ m ∈ L ++ M, m.hub ≠ X := by
  induction L with
  | nil => exact fun m hm he => (he ▸ hl.1 m hm).ne rfl
  | cons k L ih =>
    obtain ⟨Y, rfl⟩ := hL k mem_cons_self
    intro m hm
    rcases mem_cons.mp hm with rfl | hm
    · rintro rfl
      exact (hl.1 (.await Y) (by simp [Mark.hub])).ne rfl
    · exact ih hl.2 (fun k hk => hL k (mem_cons_of_mem _ hk)) m hm

lemma Layered.congr {birth' : HubId → ℕ} (hl : Layered birth M)
    (hb : ∀ m ∈ M, birth' m.hub = birth m.hub) : Layered birth' M := by
  induction M with
  | nil => exact hl
  | cons m M ih =>
    have ih := ih hl.tail fun k hk => hb k (mem_cons_of_mem _ hk)
    cases m with
    | await X =>
      refine ⟨fun k hk => ?_, ih⟩
      rw [hb k (mem_cons_of_mem _ hk), show birth' X = birth X from hb _ mem_cons_self]
      exact hl.1 k hk
    | settle f => exact ⟨hl.1, ih⟩
    | _ => exact ih

lemma layered_append (hm : ∀ m ∈ M', m.isFree = true) (hl : Layered birth M) :
    Layered birth (M' ++ M) := by
  induction M' with
  | nil => exact hl
  | cons m M' ih =>
    have ih := ih fun k hk => hm k (mem_cons_of_mem _ hk)
    have hfree := hm m mem_cons_self
    cases m with
    | settle | await => simp [Mark.isFree] at hfree
    | _ => exact ih

lemma mem_frame : (i, h) ∈ ({(i, h)} + R : Multiset HubEntry) := by
  simp

lemma frame (hm : (i, h) ∈ E) : ∃ R, E = {(i, h)} + R := by
  obtain ⟨R, rfl⟩ := exists_cons_of_mem hm
  exact ⟨R, (singleton_add _ _).symm⟩

lemma forall_frame {P : HubEntry → Prop} (ho : ∀ p ∈ R, P p) (hi : P (i, h')) :
    ∀ p ∈ ({(i, h')} + R : Multiset HubEntry), P p := by
  intro p hm
  rcases mem_add.mp hm with hm | hm
  · exact Multiset.mem_singleton.mp hm ▸ hi
  · exact ho p hm

lemma forall_update {P : HubEntry → Prop} (ho : ∀ p ∈ ({(i, h)} + R : Multiset HubEntry), P p)
    (hi : P (i, h')) : ∀ p ∈ ({(i, h')} + R : Multiset HubEntry), P p :=
  forall_frame (fun p hp => ho p (mem_add.mpr (.inr hp))) hi

namespace Books

variable {D D' : Multiset Mark}

/-! ### Reading the books -/

lemma ne_of_mem_rest {p : HubEntry} (b : Books ({(i, h)} + R) D M) (hp : p ∈ R) : p.1 ≠ i := by
  have hk := b.keyed
  rw [Multiset.map_add, Multiset.map_singleton, singleton_add, Multiset.nodup_cons] at hk
  exact fun hi => hk.1 (mem_map.mpr ⟨p, hp, hi⟩)

section

variable (b : Books E D M)
include b

lemma unique (h1 : (i, h) ∈ E) (h2 : (i, h') ∈ E) : h = h' :=
  congrArg Prod.snd (inj_on_of_nodup_map b.keyed _ h1 _ h2 rfl)

lemma wanted (hm : m ∈ D + due M + gives E) : ∃ h, (m.hub, h) ∈ E ∧ m ∈ h.wants m.hub := by
  rw [b.balance, mem_wants] at hm
  obtain ⟨⟨i, h⟩, hp, hw⟩ := hm
  obtain rfl := hub_of_mem_wants hw
  exact ⟨h, hp, hw⟩

lemma wanted_mark (hm : m ∈ M) (hd : m.isDue = true) :
    ∃ h, (m.hub, h) ∈ E ∧ m ∈ h.wants m.hub :=
  b.wanted (by simp [mem_due, hm, hd])

lemma wanted_give {p : HubEntry} (hp : p ∈ E)
    (hm : m ∈ p.2.gives) : ∃ h, (m.hub, h) ∈ E ∧ m ∈ h.wants m.hub :=
  b.wanted (mem_add.mpr (.inr (mem_gives.mpr ⟨p, hp, hm⟩)))

lemma driven_of (hm : .drive i ∈ D + due M + gives E) :
    ∃ h, (i, h) ∈ E ∧ h.status = none ∧ h.isSealed = false := by
  obtain ⟨h, hh, hw⟩ := b.wanted hm
  rw [Hub.mem_wants] at hw
  simp only [reduceCtorEq, and_false, or_false, Mark.hub, and_true, exists_false] at hw
  exact ⟨h, hh, hw⟩

lemma driven (hm : .drive i ∈ M) :
    ∃ h, (i, h) ∈ E ∧ h.status = none ∧ h.isSealed = false :=
  b.driven_of (by simp [mem_due, hm, Mark.isDue])

lemma reported (hm : .report i ∈ M) : ∃ h, (i, h) ∈ E ∧ h.status = none ∧ 0 < h.pending := by
  obtain ⟨h, hh, hw⟩ := b.wanted_mark hm rfl
  rw [Hub.mem_wants] at hw
  simp only [reduceCtorEq, and_false, or_false, false_or, Mark.hub, and_true, exists_false] at hw
  exact ⟨h, hh, hw⟩

lemma delivered (hm : .deliver i status key ∈ M) :
    ∃ h, (i, h) ∈ E ∧ h.status = some status ∧ ∃ cb, h.subscribers = [(key, cb)] := by
  obtain ⟨h, hh, hw⟩ := b.wanted_mark hm rfl
  rw [Hub.mem_wants] at hw
  simp only [Mark.deliver.injEq, reduceCtorEq, and_false, or_false, false_or, Mark.hub,
    true_and] at hw
  obtain ⟨_, hs, s, hmem, rfl, rfl⟩ := hw
  obtain ⟨t, ht⟩ := length_eq_one_iff.mp
    (le_antisymm (b.single _ hh) (length_pos_of_mem hmem))
  have hst : s = t := by
    rw [ht] at hmem
    exact List.mem_singleton.mp hmem
  exact ⟨h, hh, hs, s.2, by rw [ht, hst]⟩

/-- A hub that is kept is waited for. -/
lemma awaited (hh : (X, h) ∈ E) (hr : 0 < h.retained) : .await X ∈ D ∨ .await X ∈ M := by
  have hw : Mark.await X ∈ wants E :=
    mem_wants.mpr ⟨(X, h), hh, Hub.mem_wants.mpr (.inr (.inr ⟨hr, rfl⟩))⟩
  rw [← b.balance, mem_add, mem_add, mem_due, mem_gives] at hw
  refine hw.elim (Or.imp_right And.left) ?_
  rintro ⟨p, -, hg⟩
  rcases Hub.mem_gives.mp hg with ⟨t, -, ht⟩ | ⟨-, q, -, ht⟩ <;> cases ht

/-- A duty that may complete a hub finds it open. -/
lemma target (ht : u.target? = some i) (hM : ∀ m ∈ u.marks, m ∈ M) :
    ∃ h, (i, h) ∈ E ∧ h.status = none := by
  cases u <;> cases ht
  case report =>
    obtain ⟨h, hh, hn, -⟩ := b.reported (i := i) (hM _ (by simp [Duty.marks]))
    exact ⟨h, hh, hn⟩
  all_goals
    obtain ⟨h, hh, hn, -⟩ := b.driven (i := i) (hM _ (by simp [Duty.marks]))
    exact ⟨h, hh, hn⟩

/-- What is owed to a hub is what that hub counts on. -/
lemma wants_filter (hh : (i, h) ∈ E) : (wants E).filter (·.hub = i) = h.wants i := by
  obtain ⟨R, rfl⟩ := frame hh
  rw [wants_frame, filter_add, filter_eq_self.mpr fun m => hub_of_mem_wants,
    filter_eq_nil.mpr, add_zero]
  intro m hm hmi
  obtain ⟨p, hp, hw⟩ := mem_wants.mp hm
  exact b.ne_of_mem_rest hp ((hub_of_mem_wants hw).symm.trans hmi)

end

lemma unsealed (b : Books ({(i, h)} + R) D M) (hm : .drive i ∈ M) : h.isSealed = false := by
  obtain ⟨k, hk, -, hs⟩ := b.driven hm
  rwa [b.unique hk mem_frame] at hs

lemma pending_pos (b : Books ({(i, h)} + R) D M) (hm : .report i ∈ M) : 0 < h.pending := by
  obtain ⟨k, hk, -, hp⟩ := b.reported hm
  rwa [b.unique hk mem_frame] at hp

/-! ### Changing a hub -/

lemma move (b : Books E D M) (hM : D' + due M' = D + due M) : Books E D' M' :=
  { b with balance := hM ▸ b.balance }

/-- The books balance again when a hub changes by as much as the debts. -/
lemma change (b : Books ({(i, h)} + R) D M)
    (hb : D' + due M' + h'.gives + h.wants i = D + due M + h.gives + h'.wants i)
    (hp : h'.status = none → h'.isSealed = true → 0 < h'.pending)
    (hl : h'.subscribers.length ≤ 1) : Books ({(i, h')} + R) D' M' where
  keyed := by simpa using b.keyed
  balance := by
    have ho := b.balance
    rw [gives_frame, wants_frame] at ho ⊢
    refine add_right_cancel (b := h.wants i) ?_
    calc D' + due M' + (h'.gives + gives R) + h.wants i
        = (D' + due M' + h'.gives + h.wants i) + gives R := by ac_rfl
      _ = (D + due M + (h.gives + gives R)) + h'.wants i := by rw [hb]; ac_rfl
      _ = h'.wants i + wants R + h.wants i := by rw [ho]; ac_rfl
  pending := forall_update b.pending hp
  single := forall_update b.single hl

/-- A hub heeds a duty and waits on. -/
lemma heeded (b : Books ({(i, h)} + R) D (u.marks ++ M)) (ht : u.target? = some i)
    (hn : h.status = none) (hw : ¬ (h.heed u).IsDue) : Books ({(i, h.heed u)} + R) D M := by
  have hseal : ∀ {requested}, u.marks = [.drive i] → (h.pending = 0 → (h.heed u).IsDue) →
      Books ({(i, { h with requested, isSealed := true })} + R) D M := by
    intro requested hu hd
    rw [hu, singleton_append] at b
    have hs := b.unsealed (by simp)
    refine b.change ?_ (fun _ _ => Nat.pos_of_ne_zero fun h0 => hw (hd h0))
      (b.single (i, h) mem_frame)
    rw [due_cons rfl]
    simp only [Hub.wants, Hub.gives, hn, hs, if_true, Bool.false_eq_true, if_false]
    ac_rfl
  cases u <;> cases ht
  case notify => exact hseal rfl fun h0 => ⟨h0, rfl⟩
  case sealOff => exact hseal rfl fun h0 => ⟨h0, rfl⟩
  case report order status contributes =>
    obtain ⟨n, hn'⟩ := exists_eq_succ_of_ne_zero (b.pending_pos (by simp [Duty.marks])).ne'
    refine b.change ?_ (fun _ hs => Nat.pos_of_ne_zero fun hz => hw ⟨hz, hs⟩)
      (b.single (i, h) mem_frame)
    rw [Duty.marks, singleton_append, due_cons rfl]
    simp only [Hub.wants, Hub.gives, Hub.heed, Hub.heard, hn, hn', succ_sub_one,
      Multiset.replicate_succ, ← singleton_add]
    ac_rfl

/-- A hub that gets its status owes to its subscribers and to its parent. -/
lemma completed (b : Books ({(i, h)} + R) D (u.marks ++ M)) (ht : u.target? = some i)
    (hn : h.status = none) (hdue : (h.heed u).IsDue) :
    Books ({(i, h.fulfil u)} + R) D (h.marks i (h.verdict u) ++ M) := by
  obtain ⟨hs, hl, -, hr, -⟩ := h.fulfil_eq u
  generalize h.verdict u = status at hs ⊢
  -- the duty is the last thing that the hub counts on
  have hwants : h.wants i = due u.marks + Multiset.replicate h.retained (.await i) := by
    cases u <;> cases ht
    case report =>
      have hp := b.pending_pos (by simp [Duty.marks])
      have hlast : h.pending - 1 = 0 ∧ h.isSealed = true := hdue
      have hone : h.pending = 1 := by omega
      simp only [Hub.wants, hn, hone, hlast.2, if_true, zero_add, Multiset.replicate_one]
      rfl
    all_goals
      have hsl := b.unsealed (by simp [Duty.marks])
      have hp : h.pending = 0 := hdue.1
      simp only [Hub.wants, hn, hsl, hp, Bool.false_eq_true, if_false, Multiset.replicate_zero,
        add_zero]
      rfl
  have hmarks : due (h.marks i status) =
      (h.subscribers.map fun s => Mark.deliver i status s.1 : List Mark) +
      (h.parent.toList.map Mark.report : List Mark) := by
    simp [Hub.marks, due, List.filter_map, Mark.isDue, comp_def]
  refine b.change ?_ (by simp [hs]) (hl ▸ b.single (i, h) mem_frame)
  rw [due_append, hmarks, due_append, hwants]
  rcases hp : h.parent with _ | q <;>
  · simp only [Hub.wants, Hub.gives, hs, hn, hl, hr, hp, Option.toList_none, Option.toList_some,
      map_nil, List.map_cons, coe_nil, coe_singleton, add_zero]
    ac_rfl

lemma called (b : Books ({(f, h)} + R) D (.deliver f status key :: M)) {cb : Callback}
    (hs : h.status = some status) (hc : h.subscribers = [(key, cb)]) :
    Books ({(f, { h with subscribers := [] })} + R) D (.drive cb.hub :: M) := by
  refine b.change ?_ (by simp [hs]) (by simp)
  rw [due_cons rfl, due_cons rfl]
  simp only [Hub.wants, Hub.gives, hs, hc, List.map_cons, map_nil, coe_nil,
    coe_singleton, zero_add, add_zero]
  ac_rfl

/-- Whoever drives a hub leaves that to what follows a child of it. -/
lemma subscribed (b : Books ({(c, h)} + R) D (.drive d :: M)) {cb : Callback}
    (hn : h.status = none) (hc : h.subscribers = []) (hd : cb.hub = d) :
    Books ({(c, h.subscribed cb)} + R) D M := by
  refine b.change ?_ (b.pending (c, h) mem_frame) (by simp [Hub.subscribed, hc])
  rw [due_cons rfl]
  simp only [Hub.wants, Hub.gives, Hub.subscribed, hn, hc, hd, nil_append, List.map_cons,
    map_nil, coe_nil, coe_singleton, zero_add]
  ac_rfl

lemma retained (b : Books ({(c, h)} + R) D M) {n : ℕ}
    (hD : D' + due M' + Multiset.replicate h.retained (.await c) =
      D + due M + Multiset.replicate n (.await c)) :
    Books ({(c, { h with retained := n })} + R) D' M' := by
  refine b.change ?_ (b.pending (c, h) mem_frame) (b.single (c, h) mem_frame)
  simp only [Hub.wants, Hub.gives]
  rw [add_comm _ (Multiset.replicate h.retained _), add_comm _ (Multiset.replicate n _),
    add_add_add_comm, hD, add_add_add_comm]

lemma erased (b : Books ({(f, h)} + R) D M') (hs : h.status.isSome = true)
    (hl : h.subscribers = []) (hM : due M' = h.wants f + due M) : Books R D M := by
  have hR : ∀ p ∈ R, p ∈ ({(f, h)} + R : Multiset HubEntry) :=
    fun p hp => mem_add.mpr (.inr hp)
  have hkey := b.keyed
  rw [map_add] at hkey
  refine ⟨(nodup_add.mp hkey).2.1, ?_, fun p hp => b.pending p (hR p hp),
    fun p hp => b.single p (hR p hp)⟩
  have ho := b.balance
  obtain ⟨s, hs⟩ := Option.isSome_iff_exists.mp hs
  have hg : h.gives = 0 := by simp [Hub.gives, hs, hl]
  rw [gives_frame, wants_frame, hM, hg, zero_add] at ho
  refine add_left_cancel (a := h.wants f) ?_
  rw [← ho]
  ac_rfl

/-- A new hub is driven by whoever made it, and takes over what it gives. -/
lemma added (parent : Option HubId) (b : Books E D (parent.toList.map .report ++ M))
    (hi : i ∉ E.map Prod.fst) {order : ℕ} :
    Books ({(i, { parent, order })} + E) D (.drive i :: M) := by
  refine ⟨by simpa [-Multiset.mem_map] using ⟨hi, b.keyed⟩, ?_, forall_frame b.pending (by simp),
    forall_frame b.single (by simp)⟩
  rw [gives_frame, wants_frame, due_cons rfl, ← b.balance, due_append]
  rcases parent with _ | p <;>
  · simp only [Hub.gives, Hub.wants, due, Option.toList_none, Option.toList_some, map_nil,
      List.map_cons, filter_nil, filter_cons, Mark.isDue, coe_nil, coe_singleton,
      Bool.false_eq_true, if_true, if_false, Multiset.replicate_zero, add_zero, zero_add]
    ac_rfl

lemma adopted (b : Books ({(d, h)} + R) D M) (hn : h.status = none) :
    Books ({(d, h.withChild)} + R) D (.report d :: M) := by
  refine b.change ?_ (fun _ _ => succ_pos _) (b.single (d, h) mem_frame)
  rw [due_cons rfl]
  simp only [Hub.wants, Hub.gives, Hub.withChild, hn, Multiset.replicate_succ, ← singleton_add]
  ac_rfl

end Books

namespace Balanced

variable {D D' : Multiset HubId}

lemma alive (b : Balanced birth clock E D M) (hm : m ∈ M) : ∃ h, (m.hub, h) ∈ E := by
  by_cases hd : m.isDue = true
  · obtain ⟨h, hh, -⟩ := b.wanted_mark hm hd
    exact ⟨h, hh⟩
  · cases m <;> simp [Mark.isDue] at hd
    obtain ⟨h, hh, -⟩ := b.settled _ (mem_settling.mpr hm)
    exact ⟨h, hh⟩

lemma drive_iff :
    Balanced birth clock E D (.drive d :: M) ↔ Balanced birth clock E (d ::ₘ D) M := by
  have hsame : (d ::ₘ D).map .drive + due M = D.map .drive + due (.drive d :: M) := by
    rw [due_cons rfl, Multiset.map_cons, ← singleton_add]
    ac_rfl
  exact ⟨fun b => { b with toBooks := b.move hsame },
    fun b => { b with toBooks := b.move hsame.symm }⟩

/-! ### Changing a hub -/

lemma change (b : Balanced birth clock ({(i, h)} + R) D M)
    (k : Books ({(i, h')} + R) (D'.map .drive) M')
    (hs : h'.status = h.status) (hr : h.retained ≤ h'.retained) (hM : settling M' = settling M)
    (hlay : Layered birth M') (ha : Aged birth clock (i, h')) :
    Balanced birth clock ({(i, h')} + R) D' M' where
  toBooks := k
  dropped := by
    rw [hM]
    refine forall_update b.dropped fun hst h0 => b.dropped (i, h) mem_frame (hs ▸ hst) ?_
    exact le_zero.mp (hr.trans_eq h0)
  settled := by
    intro f hf
    obtain ⟨k, hm, hk⟩ := b.settled f (hM ▸ hf)
    rcases mem_add.mp hm with hm | hm
    · cases Multiset.mem_singleton.mp hm
      exact ⟨h', mem_frame, hs ▸ hk⟩
    · exact ⟨k, mem_add.mpr (.inr hm), hk⟩
  once := hM ▸ b.once
  layered := hlay
  aged := forall_update b.aged ha

lemma heeded (b : Balanced birth clock ({(i, h)} + R) D (u.marks ++ M)) (ht : u.target? = some i)
    (hn : h.status = none) (hw : ¬ (h.heed u).IsDue) :
    Balanced birth clock ({(i, h.heed u)} + R) D M := by
  have k := b.toBooks.heeded ht hn hw
  have ha := b.aged (i, h) mem_frame
  cases u <;> cases ht <;>
    exact b.change k rfl le_rfl rfl b.layered.drop ⟨ha.now, ha.subscribers, ha.parent⟩

lemma called (b : Balanced birth clock ({(f, h)} + R) D (.deliver f status key :: M))
    {cb : Callback} (hs : h.status = some status) (hc : h.subscribers = [(key, cb)]) :
    Balanced birth clock ({(f, { h with subscribers := [] })} + R) D (.drive cb.hub :: M) := by
  have ha := b.aged (f, h) mem_frame
  exact b.change (b.toBooks.called hs hc) rfl le_rfl rfl b.layered ⟨ha.now, by simp, ha.parent⟩

lemma subscribed (b : Balanced birth clock ({(c, h)} + R) D (.drive d :: M)) {cb : Callback}
    (hn : h.status = none) (hc : h.subscribers = []) (hp : h.parent = some d) (hd : cb.hub = d) :
    Balanced birth clock ({(c, h.subscribed cb)} + R) D M := by
  have ha := b.aged (c, h) mem_frame
  refine b.change (b.toBooks.subscribed hn hc hd) rfl le_rfl rfl b.layered.tail
    ⟨ha.now, ?_, ha.parent⟩
  simpa [Hub.subscribed, hc, hd] using ha.parent hn d hp

/-- A hub is waited for by someone who stands on all that is older. -/
lemma retained (b : Balanced birth clock ({(c, h)} + R) D M) (hy : ∀ m ∈ M, birth m.hub < birth c) :
    Balanced birth clock ({(c, { h with retained := h.retained + 1 })} + R) D (.await c :: M) := by
  have ha := b.aged (c, h) mem_frame
  refine b.change (b.toBooks.retained ?_) rfl (le_succ _) rfl ⟨hy, b.layered⟩
    ⟨ha.now, ha.subscribers, ha.parent⟩
  rw [due_cons rfl, Multiset.replicate_succ, ← singleton_add]
  ac_rfl

/-! ### Completion -/

lemma fulfilled (b : Balanced birth clock ({(i, h)} + R) D (u.marks ++ M)) (ht : u.target? = some i)
    (hn : h.status = none) (hdue : (h.heed u).IsDue) :
    Balanced birth clock ({(i, h.fulfil u)} + R) D (h.marks i (h.verdict u) ++ M) := by
  obtain ⟨hs, hl, -⟩ := h.fulfil_eq u
  have hopen : ∀ k, (i, k) ∈ ({(i, h)} + R : Multiset HubEntry) → k.status = none :=
    fun k hk => b.unique hk mem_frame ▸ hn
  have hdeliver : ∀ st key, Mark.deliver i st key ∉ M := by
    intro st key hmem
    obtain ⟨k, hk, hks, -⟩ := b.delivered (mem_append_right _ hmem)
    simp [hopen k hk] at hks
  have hold : settling (u.marks ++ M) = settling M := by cases u <;> cases ht <;> rfl
  have hsettle : i ∉ settling M := by
    intro hmem
    obtain ⟨k, hk, hks⟩ := b.settled i (hold ▸ hmem)
    simp [hopen k hk] at hks
  have hsett : settling (h.marks i (h.verdict u) ++ M) = i :: settling M := by
    simp [marks, settling, filterMap_append, Mark.settles?, comp_def]
  have ha := b.aged (i, h) mem_frame
  refine ⟨b.toBooks.completed ht hn hdue, ?_, ?_, ?_, ?_,
    forall_update b.aged ⟨ha.now, hl ▸ ha.subscribers, by simp [hs]⟩⟩
  · rw [hsett]
    exact forall_update (fun p hp hst h0 => mem_cons_of_mem _ (hold ▸ b.dropped p hp hst h0))
      fun _ _ => mem_cons_self
  · intro f hf
    rw [hsett] at hf
    rcases mem_cons.mp hf with rfl | hf
    · exact ⟨_, mem_frame, by simp [hs]⟩
    · obtain ⟨k, hk, hks⟩ := b.settled f (hold ▸ hf)
      rcases mem_add.mp hk with hk | hk
      · cases Multiset.mem_singleton.mp hk
        simp [hn] at hks
      · exact ⟨k, mem_add.mpr (.inr hk), hks⟩
  · rw [hsett]
    exact nodup_cons.mpr ⟨hsettle, hold ▸ b.once⟩
  · rw [marks, append_assoc, append_assoc]
    exact layered_append (forall_mem_map.mpr fun _ _ => rfl)
      (layered_append (forall_mem_map.mpr fun _ _ => rfl) ⟨hdeliver, b.layered.drop⟩)

lemma undelivered (b : Balanced birth clock E D M) (hh : (f, h) ∈ E) (hs : h.status.isSome = true)
    (hM : ∀ status key, .deliver f status key ∉ M) : h.subscribers = [] := by
  by_contra hne
  obtain ⟨s, hmem⟩ := exists_mem_of_ne_nil _ hne
  obtain ⟨status, hs⟩ := Option.isSome_iff_exists.mp hs
  have hw : Mark.deliver f status s.1 ∈ wants E :=
    mem_wants.mpr ⟨(f, h), hh, Hub.mem_wants.mpr (.inr (.inl ⟨status, hs, s, hmem, rfl⟩))⟩
  rw [← b.balance] at hw
  simp only [mem_add, Multiset.mem_map, mem_due, reduceCtorEq, and_false, exists_false,
    false_or, mem_gives, hM, false_and] at hw
  obtain ⟨p, -, hw⟩ := hw
  rcases Hub.mem_gives.mp hw with ⟨t, -, ht⟩ | ⟨-, q, -, ht⟩ <;> cases ht

lemma spent (b : Balanced birth clock E D (.settle f :: M)) :
    ∃ h, (f, h) ∈ E ∧ h.status.isSome = true ∧ h.subscribers = [] := by
  obtain ⟨h, hh, hs⟩ := b.settled f (by simp [mem_settling])
  refine ⟨h, hh, hs, b.undelivered hh hs fun st key hm => ?_⟩
  rcases mem_cons.mp hm with hm | hm
  · cases hm
  · exact b.layered.1 st key hm

lemma erased (b : Balanced birth clock ({(f, h)} + R) D M') (hs : h.status.isSome = true)
    (hl : h.subscribers = []) (hM : due M' = h.wants f + due M)
    (hset : settling M' = settling M ∨ settling M' = f :: settling M)
    (hf : f ∉ settling M) (hlayered : Layered birth M) : Balanced birth clock R D M := by
  have hR : ∀ p ∈ R, p ∈ ({(f, h)} + R : Multiset HubEntry) :=
    fun p hp => mem_add.mpr (.inr hp)
  have hmem : ∀ g, g ∈ settling M' ↔ g = f ∧ f ∈ settling M' ∨ g ∈ settling M := by
    intro g
    rcases hset with h | h <;> rw [h]
    · simp only [hf, and_false, false_or]
    · simp
  refine ⟨b.toBooks.erased hs hl hM, fun p hp hst h0 => ?_, fun g hg => ?_, ?_, hlayered,
    fun p hp => b.aged p (hR p hp)⟩
  · exact ((hmem _).mp (b.dropped p (hR p hp) hst h0)).resolve_left
      fun he => b.ne_of_mem_rest hp he.1
  · obtain ⟨k, hk, hks⟩ := b.settled g ((hmem g).mpr (.inr hg))
    rcases mem_add.mp hk with hk | hk
    · cases Multiset.mem_singleton.mp hk
      exact absurd hg hf
    · exact ⟨k, hk, hks⟩
  · rcases hset with h | h
    · exact h ▸ b.once
    · exact (nodup_cons.mp (h ▸ b.once)).2

lemma notin_settling (b : Balanced birth clock E D (.settle f :: M)) : f ∉ settling M :=
  (nodup_cons.mp (show (f :: settling M).Nodup from b.once)).1

lemma settle_dropped (b : Balanced birth clock ({(f, h)} + R) D (.settle f :: M))
    (hs : h.status.isSome = true) (hl : h.subscribers = []) (hr : h.retained = 0) :
    Balanced birth clock R D M := by
  refine b.erased hs hl ?_ (.inr rfl) b.notin_settling b.layered.tail
  obtain ⟨s, hs⟩ := Option.isSome_iff_exists.mp hs
  simp [Hub.wants, hs, hl, hr, due, Mark.isDue]

lemma settle_kept (b : Balanced birth clock ({(f, h)} + R) D (.settle f :: M))
    (hr : h.retained ≠ 0) : Balanced birth clock ({(f, h)} + R) D M :=
  { b with
    dropped := fun p hp hst h0 => (mem_cons.mp (b.dropped p hp hst h0)).resolve_left fun he => by
      obtain ⟨i, k⟩ := p
      cases he
      exact hr (b.unique hp mem_frame ▸ h0)
    settled := fun g hg => b.settled g (mem_cons_of_mem _ hg)
    once := (nodup_cons.mp (show (f :: settling M).Nodup from b.once)).2
    layered := b.layered.tail }

/-- Whoever waits for a hub that completed is the last who needs it. -/
lemma last_waiter {L : List Mark} (b : Balanced birth clock ({(X, h)} + R) D (L ++ .await X :: M))
    (hL : ∀ m ∈ L, ∃ Y, m = .await Y) (hs : h.status.isSome = true) :
    h.subscribers = [] ∧ h.retained = 1 := by
  have hapart : ∀ m ∈ L ++ M, m.hub ≠ X := b.layered.apart hL
  have hl : h.subscribers = [] := by
    refine b.undelivered mem_frame hs fun st key hm => ?_
    rcases mem_append.mp hm with hm | hm
    · exact hapart _ (mem_append_left _ hm) rfl
    · rcases mem_cons.mp hm with hm | hm
      · cases hm
      · exact hapart _ (mem_append_right _ hm) rfl
  refine ⟨hl, ?_⟩
  obtain ⟨k, hk, hw⟩ := b.wanted_mark (m := .await X) (by simp) rfl
  rw [b.unique hk mem_frame] at hw
  have hpos : 0 < h.retained := by simpa [Hub.mem_wants, Mark.hub] using hw
  obtain ⟨n, hn⟩ := exists_eq_succ_of_ne_zero hpos.ne'
  rcases n with _ | n
  · exact hn
  -- no one would stop waiting a second time
  exfalso
  have ho := b.balance
  obtain ⟨s, hs⟩ := Option.isSome_iff_exists.mp hs
  have hcancel : D.map .drive + due (L ++ M) + gives ({(X, h)} + R) =
      Multiset.replicate (n + 1) (.await X) + wants R := by
    refine add_left_cancel (a := {.await X}) ?_
    rw [due_append, due_cons rfl, wants_frame] at ho
    simp only [Hub.wants, hs, hl, hn, map_nil, coe_nil, zero_add, succ_eq_add_one,
      replicate_succ _ (n + 1), ← singleton_add] at ho
    rw [← add_assoc {Mark.await X} (Multiset.replicate _ _), ← ho, due_append]
    ac_rfl
  have hmem : Mark.await X ∈ D.map .drive + due (L ++ M) + gives ({(X, h)} + R) := by
    rw [hcancel]
    simp [Multiset.mem_replicate]
  simp only [mem_add, Multiset.mem_map, mem_due, reduceCtorEq, and_false, exists_false,
    false_or, mem_gives] at hmem
  rcases hmem with ⟨hmem, -⟩ | ⟨p, -, hmem⟩
  · exact hapart _ hmem rfl
  · rcases Hub.mem_gives.mp hmem with ⟨t, -, ht⟩ | ⟨-, q, -, ht⟩ <;> cases ht

lemma released {L : List Mark} (b : Balanced birth clock ({(X, h)} + R) D (L ++ .await X :: M))
    (hL : ∀ m ∈ L, ∃ Y, m = .await Y) (hs : h.status.isSome = true) :
    Balanced birth clock R D (L ++ M) := by
  obtain ⟨hl, hr⟩ := b.last_waiter hL hs
  refine b.erased hs hl ?_ (.inl ?_) (fun hmem => ?_) (b.layered.remove hL)
  · obtain ⟨s, hs⟩ := Option.isSome_iff_exists.mp hs
    rw [due_append, due_append, due_cons rfl]
    simp only [Hub.wants, hs, hl, hr, map_nil, coe_nil, zero_add, Multiset.replicate_one]
    ac_rfl
  · rw [settling, settling, filterMap_append, filterMap_append]
    rfl
  · exact b.layered.apart hL _ (mem_settling.mp hmem) rfl

/-! ### Creation -/

lemma restamp (b : Balanced birth clock E D M) (hi : i ∉ E.map Prod.fst) :
    ∃ birth', Balanced birth' (clock + 1) E D M ∧ birth' i = clock ∧
      (∀ p ∈ E, birth' p.1 = birth p.1) ∧ ∀ m ∈ M, birth' m.hub < birth' i := by
  set birth' := update birth i clock with hbirth
  have hself : birth' i = clock := update_self i clock birth
  have hsame : ∀ p ∈ E, birth' p.1 = birth p.1 := by
    intro p hp
    refine update_of_ne ?_ _ _
    rintro rfl
    exact hi (mem_map_of_mem Prod.fst hp)
  have hmark : ∀ m ∈ M, birth' m.hub = birth m.hub := by
    intro m hm
    obtain ⟨h, hh⟩ := b.alive hm
    exact hsame _ hh
  refine ⟨birth', { b with layered := b.layered.congr hmark, aged := fun p hp => ?_ }, hself, hsame,
    ?_⟩
  · have ha := b.aged p hp
    refine ⟨?_, fun s hs => ?_, fun hn q hq => ?_⟩
    · rw [hsame p hp]
      exact ha.now.trans (lt_succ_self _)
    · obtain ⟨k, hk, -⟩ := b.wanted_give hp (Hub.mem_gives.mpr (.inl ⟨s, hs, rfl⟩))
      rw [hsame p hp, hsame (s.2.hub, k) hk]
      exact ha.subscribers s hs
    · obtain ⟨k, hk, -⟩ := b.wanted_give hp (Hub.mem_gives.mpr (.inr ⟨hn, q, hq, rfl⟩))
      rw [hsame p hp, hsame (q, k) hk]
      exact ha.parent hn q hq
  · intro m hm
    obtain ⟨h, hh⟩ := b.alive hm
    rw [hmark m hm, hself]
    exact (b.aged _ hh).now

lemma added (parent : Option HubId) (b : Balanced birth clock E D (parent.toList.map .report ++ M))
    (hi : i ∉ E.map Prod.fst) {order : ℕ} (ha : Aged birth clock (i, { parent, order })) :
    Balanced birth clock ({(i, { parent, order })} + E) D (.drive i :: M) := by
  have hset : settling (.drive i :: M) = settling (parent.toList.map .report ++ M) := by
    cases parent <;> rfl
  refine ⟨b.toBooks.added parent hi, ?_, fun f hf => ?_, hset ▸ b.once, b.layered.drop,
    forall_frame b.aged ha⟩
  · rw [hset]
    exact forall_frame b.dropped (by simp)
  · obtain ⟨k, hk, hks⟩ := b.settled f (hset ▸ hf)
    exact ⟨k, mem_add.mpr (.inr hk), hks⟩

lemma opened (b : Balanced birth clock E D M) (hi : i ∉ E.map Prod.fst) :
    ∃ birth', Balanced birth' (clock + 1) ({(i, {})} + E) D (.drive i :: M) ∧
      (∀ p ∈ E, birth' p.1 = birth p.1) ∧ ∀ m ∈ M, birth' m.hub < birth' i := by
  obtain ⟨birth', b', hself, hsame, hy⟩ := b.restamp hi
  exact ⟨birth', added none b' hi
    ⟨hself.trans_lt (lt_succ_self _), by simp, by simp⟩, hsame, hy⟩

lemma adopted (b : Balanced birth clock ({(d, h)} + R) D M) (hn : h.status = none)
    (hi : i ∉ ({(d, h)} + R : Multiset HubEntry).map Prod.fst) (order : ℕ) :
    ∃ birth', Balanced birth' (clock + 1)
        ({(i, { parent := some d, order })} + ({(d, h.withChild)} + R)) D (.drive i :: M) ∧
      (∀ p ∈ ({(d, h)} + R : Multiset HubEntry), birth' p.1 = birth p.1) ∧
        ∀ m ∈ M, birth' m.hub < birth' i := by
  obtain ⟨birth', b', hself, hsame, hy⟩ := b.restamp hi
  have hd : birth' d < birth' i := by
    rw [hself, hsame (d, h) mem_frame]
    exact (b.aged (d, h) mem_frame).now
  have ha := b'.aged (d, h) mem_frame
  have hparent : Balanced birth' (clock + 1) ({(d, h.withChild)} + R) D (.report d :: M) :=
    b'.change (b'.toBooks.adopted hn) rfl le_rfl rfl b'.layered ⟨ha.now, ha.subscribers, ha.parent⟩
  exact ⟨birth', added (some d) hparent (by simpa using hi)
    ⟨hself.trans_lt (lt_succ_self _), by simp, by simpa using hd⟩, hsame, hy⟩

/-! ### No one waits in vain -/

/-- A hub that is open is driven from elsewhere, or there is a younger one that has to go first. -/
lemma relies (b : Balanced birth clock E D M) (hh : (i, h) ∈ E) (hn : h.status = none)
    (hD : D = 0) (hdrive : .drive i ∉ M) (hreport : .report i ∉ M) :
    ∃ p ∈ E, birth i < birth p.1 ∧
      (p.2.status = none ∨ ∃ status key, .deliver p.1 status key ∈ M) := by
  obtain ⟨m, hm, hmi⟩ : ∃ m ∈ h.wants i, m = .drive i ∨ m = .report i := by
    rcases hs : h.isSealed with _ | _
    · exact ⟨_, Hub.mem_wants.mpr (.inl ⟨hn, .inl ⟨hs, rfl⟩⟩), .inl rfl⟩
    · exact ⟨_, Hub.mem_wants.mpr (.inl ⟨hn, .inr ⟨b.pending _ hh hn hs, rfl⟩⟩), .inr rfl⟩
  have hgive : m ∈ D.map .drive + due M + gives E := by
    rw [b.balance]
    exact mem_wants.mpr ⟨_, hh, hm⟩
  have hhub : m.hub = i := by rcases hmi with rfl | rfl <;> rfl
  have hM : m ∉ M := by rcases hmi with rfl | rfl <;> assumption
  simp only [hD, map_zero, zero_add, mem_add, mem_due, mem_gives] at hgive
  rcases hgive with ⟨hgive, -⟩ | ⟨p, hp, hg⟩
  · exact absurd hgive hM
  · have ha := b.aged p hp
    rcases Hub.mem_gives.mp hg with ⟨s, hs, rfl⟩ | ⟨hpn, q, hq, rfl⟩
    · subst hhub
      refine ⟨p, hp, ha.subscribers s hs, ?_⟩
      rcases hst : p.2.status with _ | st
      · exact .inl rfl
      · refine .inr ?_
        by_contra hc
        have hnone := b.undelivered hp (by simp [hst]) fun st key hkey => hc ⟨st, key, hkey⟩
        simp [hnone] at hs
    · subst hhub
      exact ⟨p, hp, ha.parent hpn q hq, .inl hpn⟩

lemma eq_zero (b : Balanced birth clock E 0 []) : E = 0 := by
  by_contra hne
  obtain ⟨p, hp, hmax⟩ := exists_max_image (fun p => birth p.1) hne
  rcases hst : p.2.status with _ | s
  · obtain ⟨q, hq, hlt, -⟩ := b.relies hp hst rfl (by simp) (by simp)
    exact absurd (hmax q hq) (not_le.mpr hlt)
  · by_cases hr : p.2.retained = 0
    · simpa [settling] using b.dropped p hp (by simp [hst]) hr
    · simpa using b.toBooks.awaited hp (Nat.pos_of_ne_zero hr)

/-- A hub that is waited for while there is nothing to do has completed. -/
lemma completed (b : Balanced birth clock E 0 (.await X :: M)) (hh : (X, h) ∈ E) :
    h.status.isSome = true := by
  classical
  by_contra hn
  have hn : h.status = none := by simpa using hn
  -- the youngest open hub from the awaited one on has nothing to rely on
  have hne : E.filter (fun p => p.2.status = none ∧ birth X ≤ birth p.1) ≠ 0 := by
    intro h0
    have : (X, h) ∈ E.filter fun p => p.2.status = none ∧ birth X ≤ birth p.1 :=
      mem_filter.mpr ⟨hh, hn, le_rfl⟩
    simp [h0] at this
  obtain ⟨p, hp, hmax⟩ := exists_max_image (fun p => birth p.1) hne
  obtain ⟨hpE, hpn, hpX⟩ := mem_filter.mp hp
  have hbelow : ∀ m, m ∈ Mark.await X :: M → m.isFree = true → birth m.hub < birth X := by
    intro m hm hfree
    rcases mem_cons.mp hm with rfl | hm
    · simp [Mark.isFree] at hfree
    · exact b.layered.1 m hm
  obtain ⟨q, hq, hlt, hqn | ⟨st, key, hqM⟩⟩ := b.relies hpE hpn rfl
    (fun hm => absurd (hbelow _ hm rfl) (not_lt.mpr hpX))
    (fun hm => absurd (hbelow _ hm rfl) (not_lt.mpr hpX))
  · exact absurd (hmax q (mem_filter.mpr ⟨hq, hqn, hpX.trans hlt.le⟩)) (not_le.mpr hlt)
  · exact absurd (hpX.trans_lt hlt) (not_lt.mpr (hbelow _ hqM rfl).le)

end Balanced

end Accounts

end JobShell
