import JobShell.System.Program

/-!
Actions: parts of programs, put together one after the other.
-/

namespace JobShell

def Action (α : Type) : Type := (α → Program) → Program

namespace Action

instance : Monad Action where
  pure a := fun next => next a
  bind x f := fun next => x fun a => f a next

def exit {α : Type} (status : Nat) : Action α := fun _ => .exit status

def run (a : Action Nat) : Program := a .exit

def read (fd count : Nat) : Action (Except SystemError Bytes) := Program.read fd count

def write (fd : Nat) (data : Bytes) : Action (Option SystemError) :=
  fun next => if data.isEmpty then next none else Program.write fd data next

def seek (fd : Nat) (distance : Int) : Action Bool := Program.seek fd distance

def inspect (fd : Nat) : Action (Except SystemError Inspection) := Program.inspect fd

def openFile (path : String) (mode : OpenMode) : Action (Except SystemError Nat) :=
  Program.openFile path mode

def close (fd : Nat) : Action (Option SystemError) := Program.close fd

def kill (target : Int) (s : Signal) : Action (Option SystemError) := Program.kill target s

def sleep (microseconds : Nat) : Action Unit := fun next => Program.sleep microseconds (next ())

def files : Action FileSystem := fun next => .look fun fs _ => next fs

def removeDirectory (path : String) : Action (Option SystemError) := Program.removeDirectory path

def readFrom (fd : Nat) : Nat → List Bytes → Action (Except SystemError Bytes)
  | 0, _ => exit 1
  | fuel + 1, pieces => do
    match ← read fd 65536 with
    | .error e => return .error e
    | .ok [] => return .ok pieces.reverse.flatten
    | .ok data => readFrom fd fuel (data :: pieces)

def readAll (fd : Nat) : Action (Except SystemError Bytes) := readFrom fd Program.patience []

end Action

end JobShell
