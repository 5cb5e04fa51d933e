import JobShell.Value.Basic

/-!
Bindings that hold while one command or one turn of a loop is evaluated.

Frames are stacked, and an inner frame hides an outer one.
-/

namespace JobShell

abbrev Frame := Bindings Value

/-- A stack of frames, the innermost one first. -/
structure Scope where
  frames : List Frame := []

namespace Scope

def depth (s : Scope) : Nat := s.frames.length

def push (s : Scope) (f : Frame) : Scope := ⟨f :: s.frames⟩

def top? (s : Scope) : Option Frame := s.frames.head?

def pop (s : Scope) : Scope := ⟨s.frames.tail⟩

/-- Binds a name in the innermost frame; without one, a frame is opened. -/
def set (s : Scope) (name : String) (value : Value) : Scope :=
  match s.frames with
  | [] => ⟨[Bindings.insert [] name value]⟩
  | f :: fs => ⟨f.insert name value :: fs⟩

def lookup? (s : Scope) (name : String) : Option Value := s.frames.findSome? (·.get? name)

def flatten (s : Scope) : Frame := s.frames.foldr (fun f outer => Bindings.override outer f) []

def same (s t : Scope) : Bool := s.frames.isEqv t.frames Value.sameMembers

end Scope

end JobShell
