import JobShell.Slab
import JobShell.Value.Basic

/-!
The variables of a shell and of its subshells.

A subshell has a store of its own, which starts as a copy of its parent's and is thrown away at
the end. Only an escape reaches the parent.
-/

namespace JobShell

abbrev StoreId := Nat

structure Store where
  vars : Bindings Value := []
  parent : Option StoreId := none

/-- All stores. The root store has slot 0 and stays. -/
structure Stores where
  slab : Slab Store := ⟨[some {}], []⟩

namespace Stores

/-- The variable that holds the status of the last step. -/
def statusName : String := "?"

def root : StoreId := 0

def get? (s : Stores) (store : StoreId) (name : String) : Option Value :=
  (s.slab.get? store).bind (·.vars.get? name)

/-- Sets a variable; a store that does not exist is left alone. -/
def set (s : Stores) (store : StoreId) (name : String) (value : Value) : Stores :=
  ⟨s.slab.modify store fun t => { t with vars := t.vars.insert name value }⟩

def unset (s : Stores) (store : StoreId) (name : String) : Stores :=
  ⟨s.slab.modify store fun t => { t with vars := t.vars.erase name }⟩

def fork (s : Stores) (parent : StoreId) : StoreId × Stores :=
  let vars := ((s.slab.get? parent).map (·.vars)).getD []
  (s.slab.next, ⟨s.slab.insert { vars, parent := some parent }⟩)

/-- Where an escape from a store goes: to its parent, from the root to itself. -/
def escapeTarget (s : Stores) (store : StoreId) : StoreId :=
  ((s.slab.get? store).bind (·.parent)).getD store

def escape (s : Stores) (store : StoreId) (name : String) (value : Value) : Stores :=
  s.set (s.escapeTarget store) name value

def escapeAll (s : Stores) (store : StoreId) (bindings : List (String × Value)) : Stores :=
  bindings.foldl (fun s b => s.escape store b.1 b.2) s

/-- Throws a store away, unless it is the root. -/
def release (s : Stores) (store : StoreId) : Stores :=
  if store = root then s else ⟨s.slab.erase store⟩

def size (s : Stores) : Nat := s.slab.size

end Stores

end JobShell
