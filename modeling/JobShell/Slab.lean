/-!
Numbered slots. A new entry takes the slot that was freed last, or the first one never used.
-/

namespace JobShell

structure Slab (α : Type) where
  slots : List (Option α) := []
  free : List Nat := []

namespace Slab

variable {α : Type}

def get? (s : Slab α) (i : Nat) : Option α := (s.slots[i]?).join

def contains (s : Slab α) (i : Nat) : Bool := (s.get? i).isSome

def next (s : Slab α) : Nat := s.free.headD s.slots.length

def insert (s : Slab α) (a : α) : Slab α :=
  match s.free with
  | i :: free => ⟨s.slots.set i (some a), free⟩
  | [] => ⟨s.slots ++ [some a], []⟩

/-- Changes the entry in a slot; nothing happens to an empty one. -/
def modify (s : Slab α) (i : Nat) (f : α → α) : Slab α :=
  match s.get? i with
  | some a => { s with slots := s.slots.set i (some (f a)) }
  | none => s

def erase (s : Slab α) (i : Nat) : Slab α :=
  if s.contains i then ⟨s.slots.set i none, i :: s.free⟩ else s

def size (s : Slab α) : Nat := s.slots.countP Option.isSome

end Slab

end JobShell
