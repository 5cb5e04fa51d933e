import JobShell.Builtin

/-!
What a shell knows by name: its routines and its aliases.
-/

namespace JobShell

structure Services where
  routines : Bindings Routine := Builtin.all
  aliases : Bindings String := []

namespace Services

def find? (s : Services) (name : String) : Option Routine := s.routines.get? name

def add (s : Services) (name : String) (r : Routine) : Services :=
  { s with routines := s.routines.insert name r }

def remove (s : Services) (name : String) : Services :=
  { s with routines := s.routines.erase name }

/-- Adds a finalizer to a routine, and says whether there is one of that name. -/
def finalize (s : Services) (name : String) (f : Finalizer) : Bool × Services :=
  match s.find? name with
  | some r => (true, s.add name { r with finalizers := r.finalizers ++ [f] })
  | none => (false, s)

def names (s : Services) : List String := s.routines.map (·.1)

def alias? (s : Services) (name : String) : Option String := s.aliases.get? name

def setAlias (s : Services) (name value : String) : Services :=
  { s with aliases := s.aliases.insert name value }

def removeAlias (s : Services) (name : String) : Services :=
  { s with aliases := s.aliases.erase name }

end Services

end JobShell
