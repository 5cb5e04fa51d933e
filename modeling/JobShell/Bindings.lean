/-!
Values bound to names, kept in the order of the names with each name once.
-/

namespace JobShell

abbrev Bindings (α : Type) := List (String × α)

namespace Bindings

variable {α : Type}

def get? (b : Bindings α) (name : String) : Option α :=
  match b with
  | [] => none
  | (n, v) :: rest => if n = name then some v else get? rest name

/-- Binds a name, in place of what it was bound to before. -/
def insert (b : Bindings α) (name : String) (value : α) : Bindings α :=
  match b with
  | [] => [(name, value)]
  | (n, v) :: rest =>
    if name < n then (name, value) :: (n, v) :: rest
    else if n = name then (name, value) :: rest
    else (n, v) :: insert rest name value

def erase (b : Bindings α) (name : String) : Bindings α := b.filter (·.1 != name)

def ofList (pairs : List (String × α)) : Bindings α :=
  pairs.foldl (fun b p => insert b p.1 p.2) []

/-- All bindings of both, those of `inner` over those of `outer`. -/
def override (outer inner : Bindings α) : Bindings α :=
  inner.foldl (fun b p => insert b p.1 p.2) outer

end Bindings

end JobShell
