import JobShell.Proofs.Hub.Course
import Mathlib.Algebra.BigOperators.Group.Multiset.Basic
import Mathlib.Algebra.Order.BigOperators.Group.List
import Mathlib.Algebra.Order.Ring.Nat

/-!
The work in hand comes to an end.

Each hub completes once and each subscriber is called once. So every piece of work either lowers
what can still be brought about, or keeps that and lowers what is in hand.
-/

namespace JobShell.Hub.Session

open List Hubs

/-- What the subscribers of a hub may still do; an open hub may still complete. -/
def hubLoad (h : Hub Subscriber) : ℕ :=
  h.status.isNone.toNat + (h.subscribers.map fun p => 1 + 3 * Step.sizes p.2.actions).sum

def hubsLoad (hs : Hubs Subscriber) : ℕ := (hs.entries.map fun p => hubLoad p.2).sum

def workLoad : Work → ℕ
  | .steps _ rest => 3 * Step.sizes rest
  | _ => 0

def taskLoad : Task → ℕ
  | .flush _ => 1
  | .deferred actions => 1 + 3 * Step.sizes actions

/-- How much can still be brought about. -/
def load (s : Session) : ℕ :=
  hubsLoad s.hubs + (s.tasks.map taskLoad).sum + (s.stack.map workLoad).sum

variable {hs : Hubs Subscriber} {slot : HubId} {h : Hub Subscriber}

variable {s t : Session}

lemma stack_turn {rest : List Work} (ht : s.turn? rest = some t) :
    ∃ new, t.stack = new ++ (rest ++ s.stack) := by
  rcases htasks : s.tasks with _ | ⟨task, tasks⟩
  · simp [turn?, htasks] at ht
  · simp only [turn?, htasks, Option.some.injEq] at ht
    exact ⟨s.taskWork task, by rw [← ht, append_assoc]⟩

lemma stack_take (s : Session) (r : Receiver) (step : Step) :
    ∃ new, (s.take r step).stack = new ++ s.stack := by
  cases step with
  | subscribe | unsubscribe =>
    simp only [take]
    split <;> exact ⟨_, rfl⟩
  | turn block =>
    rcases ht : s.turn? [.conclude r (.flag true)] with _ | t
    · simp only [take, ht]
      exact ⟨_, rfl⟩
    · obtain ⟨new, hnew⟩ := stack_turn ht
      simp only [take, ht]
      exact ⟨new ++ [.conclude r (.flag true)], by rw [hnew, append_assoc]⟩
  | _ => exact ⟨_, rfl⟩

lemma stack_perform (s : Session) (w : Work) : ∃ new, (s.perform w).stack = new ++ s.stack := by
  have hturn : ∀ (rest : List Work) r result,
      ∃ new, ((s.turn? rest).getD (s.push [.conclude r result])).stack = new ++ s.stack := by
    intro rest r result
    rcases ht : s.turn? rest with _ | t
    · exact ⟨_, rfl⟩
    · obtain ⟨new, hnew⟩ := stack_turn ht
      exact ⟨new ++ rest, hnew.trans (append_assoc _ _ _).symm⟩
  cases w with
  | duty d =>
    simp only [perform, push]
    split
    · exact ⟨_, rfl⟩
    · exact ⟨[_] ++ _, rfl⟩
  | steps name rest =>
    cases rest with
    | nil => exact ⟨[], rfl⟩
    | cons step rest =>
      obtain ⟨new, hnew⟩ := stack_take (s.push [.steps name rest]) (.note name step.label) step
      exact ⟨new ++ [.steps name rest], hnew.trans (append_assoc _ _ _).symm⟩
  | wait hub r =>
    simp only [perform]
    split
    · exact ⟨_, rfl⟩
    · split
      · exact ⟨_, rfl⟩
      · exact hturn _ _ _
  | poll r => exact hturn _ _ _
  | conclude r result => cases r <;> exact ⟨[], rfl⟩

/-- Tasks are still being taken from the queue, or there are none left. -/
def Draining (s : Session) : Prop :=
  (∃ work, s.stack = work ++ [.poll .answer]) ∨
    ((s.stack = [.conclude .answer .nothing] ∨ s.stack = []) ∧ s.tasks = [])

lemma Draining.step (hd : s.Draining) : s.step.Draining := by
  rcases hd with ⟨work, hstack⟩ | ⟨hstack | hstack, htasks⟩
  · cases work with
    | nil =>
      simp only [Session.step, hstack, nil_append, perform]
      rcases ht : turn? { s with stack := [] } [.poll .answer] with _ | t
      · refine .inr ⟨.inl rfl, ?_⟩
        simp only [turn?] at ht
        split at ht
        · rename_i htasks
          exact htasks
        · cases ht
      · exact .inl ((stack_turn ht).imp fun new hnew => by simpa using hnew)
    | cons w work =>
      obtain ⟨new, hnew⟩ := stack_perform { s with stack := work ++ [.poll .answer] } w
      simp only [Session.step, hstack, cons_append]
      exact .inl ⟨new ++ work, by rw [hnew, append_assoc]⟩
  · simp only [Session.step, hstack, perform]
    exact .inr ⟨.inr rfl, htasks⟩
  · simp only [Session.step, hstack]
    exact .inr ⟨.inr hstack, htasks⟩

end JobShell.Hub.Session
