import JobShell.Proofs.Engine.Refinement
import JobShell.Proofs.Engine.Weight

/-!
How the machine evaluates.

An evaluation stands on the stack and asks. What is done with its outcome, and what stands below it,
makes no difference until it is over: so it can be said to come to something in a number of steps
without saying what for. It is over when it asks nothing any more; until then it either asks, or
waits for a pipeline while other work is done above it.
-/

namespace JobShell

open Machine Function

lemma Machine.step_cons (e : Engine) (w : Work) (ws : List Work) :
    step ⟨e, w :: ws⟩ = ⟨(e.perform w).1, (e.perform w).2 ++ ws⟩ := rfl

/-- An evaluation that is not over: it asks something, or waits for the outcome of a pipeline. -/
inductive Midway (α : Type) where
  | asks (x : Expansion α)
  | waits (hub : HubId) (key : ℕ) (next : Except Fault Captured → Expansion α)

namespace Midway

variable {α : Type}

/-- The evaluation as work. -/
def work (store : StoreId) (f : α → Built) : Midway α → Work
  | .asks x => .evaluate store (x.map f)
  | .waits hub key next => .await hub (.evaluation store key fun c => (next c).map f)

/-- Whatever it comes to has a property. -/
def All (P : α → Prop) : Midway α → Prop
  | .asks x => x.All P
  | .waits _ _ next => ∀ c, (next c).All P

/-- What becomes of the evaluation when it is its turn: its question is answered, or work is done
until the pipeline that it waits for has completed. -/
def next (e : Engine) (store : StoreId) : Midway α → Engine × List Work × Midway α
  | .asks (.done a) => (e, [], .asks (.done a))
  | .asks (.value name next) => (e, [], .asks (next (e.valueOf store name)))
  | .asks (.aliasOf name next) => (e, [], .asks (next (e.services.alias? name)))
  | .asks (.paths pattern next) => (e, [], .asks (next (e.system.world.expand pattern)))
  | .asks (.capture commands negated next) =>
    let (key, s, e) := e.startCapture commands store negated
    (e, s.duties.map .duty, .waits s.hub key next)
  | .waits hub key next =>
    let answered (e : Engine) (result : Except Fault Int) : Engine × List Work × Midway α :=
      let (c, e) := e.takeCapture key (result.toOption.getD 0)
      (e, [], .asks (next (result.map fun _ => c)))
    match e.hubs.get? hub with
    | none => answered e (.error (.unknownHub hub))
    | some h =>
      match h.status with
      | some status => answered { e with hubs := e.hubs.release hub } (.ok status)
      | none =>
        match e.turn true with
        | .took e work => (e, work, .waits hub key next)
        | .idle => (e, [], .waits hub key next)
        | .stalled => answered e (.error .stalled)

lemma perform_work {mid : Midway α} (hm : ∀ a, mid ≠ .asks (.done a)) (e : Engine)
    (store : StoreId) (f : α → Built) :
    e.perform (mid.work store f) =
      ((mid.next e store).1, (mid.next e store).2.1 ++ [(mid.next e store).2.2.work store f]) := by
  cases mid with
  | asks x =>
    cases x with
    | done a => exact absurd rfl (hm a)
    | _ => rfl
  | waits hub key next =>
    simp only [work, Engine.perform, Engine.await, Midway.next]
    rcases e.hubs.get? hub with _ | h
    · rfl
    · dsimp only
      rcases h.status with _ | s
      · simp only [Engine.turnThen]
        rcases e.turn true with ⟨e', works⟩ | _ | _ <;> rfl
      · rfl

lemma All.next {P : α → Prop} {mid : Midway α} (hP : mid.All P) (e : Engine) (store : StoreId) :
    (mid.next e store).2.2.All P := by
  cases mid with
  | asks x =>
    cases x with
    | done | capture => exact hP
    | _ => exact hP _
  | waits hub key next =>
    simp only [Midway.next]
    split
    · exact hP _
    · split
      · exact hP _
      · split
        · exact hP
        · exact hP
        · exact hP _

end Midway

namespace Engine

variable {α β : Type} {e e' : Engine} {store : StoreId} {x : Expansion α} {a : α} {n : ℕ}
  {e'' : Engine}

/-- An evaluation comes to an outcome in a number of steps, whatever is to be done with it and
whatever stands below. -/
def Evaluates (e : Engine) (store : StoreId) (x : Expansion α) (a : α) (e' : Engine) (n : ℕ) :
    Prop :=
  ∀ (f : α → Built) (ws : List Work),
    step^[n] ⟨e, .evaluate store (x.map f) :: ws⟩ = ⟨e', .evaluate store (.done (f a)) :: ws⟩

/-- After a number of steps an evaluation is not over, with some work above it. -/
def Evaluating (e : Engine) (store : StoreId) (x : Expansion α) (e' : Engine) (top : List Work)
    (mid : Midway α) (n : ℕ) : Prop :=
  ∀ (f : α → Built) (ws : List Work),
    step^[n] ⟨e, .evaluate store (x.map f) :: ws⟩ = ⟨e', top ++ mid.work store f :: ws⟩

lemma Evaluating.above {top : List Work} {w : Work} {mid : Midway α}
    (h : Evaluating e store x e' (w :: top) mid n) :
    Evaluating e store x (e'.perform w).1 ((e'.perform w).2 ++ top) mid (n + 1) := by
  intro f ws
  rw [iterate_succ_apply', h, List.cons_append, step_cons, List.append_assoc]

lemma Evaluating.next {mid : Midway α} (h : Evaluating e store x e' [] mid n)
    (hm : ∀ a, mid ≠ .asks (.done a)) :
    Evaluating e store x (mid.next e' store).1 (mid.next e' store).2.1 (mid.next e' store).2.2
      (n + 1) := by
  intro f ws
  rw [iterate_succ_apply', h, List.nil_append, step_cons, Midway.perform_work hm]
  simp

lemma evaluates_or_evaluating {P : α → Prop} (hP : x.All P) (e : Engine) (store : StoreId) (n : ℕ) :
    (∃ k < n, ∃ a e', P a ∧ Evaluates e store x a e' k) ∨
      ∃ e' top, ∃ mid : Midway α, mid.All P ∧ Evaluating e store x e' top mid n := by
  induction n with
  | zero => exact .inr ⟨e, [], .asks x, hP, fun _ _ => rfl⟩
  | succ n ih =>
    rcases ih with ⟨k, hk, h⟩ | ⟨e', top, mid, hall, hmid⟩
    · exact .inl ⟨k, by omega, h⟩
    · rcases top with _ | ⟨w, top⟩
      · by_cases hdone : ∃ a, mid = .asks (.done a)
        · obtain ⟨a, rfl⟩ := hdone
          exact .inl ⟨n, by omega, a, e', hall, hmid⟩
        · exact .inr ⟨_, _, _, hall.next e' store, hmid.next fun a ha => hdone ⟨a, ha⟩⟩
      · exact .inr ⟨_, _, mid, hall, hmid.above⟩

lemma Evaluates.idle {b : Built} {reply : Except Fault Reply} (h : Evaluates e store x a e' n)
    (hb : b = .reply reply) (j : ℕ) :
    (step^[j + 2 + n] ⟨e, .evaluate store (x.map fun _ => b) :: []⟩).stack = [] := by
  subst hb
  rw [iterate_add_apply, h, iterate_add_apply]
  have hfixed : step^[j] (⟨e', []⟩ : Machine) = ⟨e', []⟩ := iterate_fixed rfl j
  exact congrArg Machine.stack hfixed

lemma Evaluates.not_evaluating (h : e.Evaluates store x a e' n) {top : List Work}
    {mid : Midway α} {k : ℕ} (hk : n < k) : ¬ e.Evaluating store x e'' top mid k := by
  intro hmid
  have hstack := congrArg Machine.stack (hmid (fun _ => .reply (.ok .nothing)) [])
  rcases Nat.lt_or_ge k (n + 2) with hnext | hlater
  · obtain rfl : k = n + 1 := by omega
    rw [iterate_succ_apply', h] at hstack
    replace hstack : [.reply (.ok .nothing)] =
      top ++ [mid.work store fun _ => .reply (.ok .nothing)] := hstack
    rcases top with _ | ⟨w, top⟩
    · cases mid <;> simp [Midway.work] at hstack
    · simp at hstack
  · obtain ⟨j, rfl⟩ : ∃ j, k = j + 2 + n := ⟨k - 2 - n, by omega⟩
    rw [h.idle rfl j] at hstack
    simp at hstack

lemma Evaluates.le {a' : α} {n' : ℕ} (h : Evaluates e store x a e' n)
    (h' : Evaluates e store x a' e'' n') : n' ≤ n := by
  by_contra hlt
  have hmid : e.Evaluating store x e'' [] (.asks (.done a')) n' := h'
  exact h.not_evaluating (Nat.lt_of_not_le hlt) hmid

lemma Evaluates.unique {a' : α} {n' : ℕ} (h : Evaluates e store x a e' n)
    (h' : Evaluates e store x a' e'' n') : a = a' ∧ e' = e'' := by
  classical
  have hn : n = n' := le_antisymm (h'.le h) (h.le h')
  subst hn
  -- two outcomes can be told apart by what is done with them
  set f : α → Built := fun b => .reply (.ok (if b = a then .status 0 else .nothing))
  have hf := (h f []).symm.trans (h' f [])
  refine ⟨?_, congrArg Machine.engine hf⟩
  by_contra hne
  have hne' : a' ≠ a := fun he => hne he.symm
  simp [f, hne'] at hf

end Engine

end JobShell
