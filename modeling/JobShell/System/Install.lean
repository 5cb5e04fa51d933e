import JobShell.Script.Program
import JobShell.System.Time
import JobShell.Utility.Cat
import JobShell.Utility.Count
import JobShell.Utility.Head
import JobShell.Utility.Notify
import JobShell.Utility.Plain
import JobShell.Utility.Remove
import JobShell.Utility.Sort
import JobShell.Utility.Transliterate

/-!
The programs there are, and how the shell starts them.
-/

namespace JobShell

/-- The programs by name. The one that sorts takes longer to start than the others. -/
def Programs.all : Programs := [
  ("cat", Utility.Cat.program),
  ("echo", Utility.Echo.program),
  ("false", Utility.fail),
  ("head", Utility.Head.program),
  ("kill", Utility.Notify.program),
  ("printf", Utility.Print.program),
  ("rmdir", Utility.Remove.program),
  ("sh", Script.program),
  ("sleep", Utility.Pause.program),
  ("sort", fun start => .sleep 500 (Utility.Sort.program start)),
  ("tr", Utility.Transliterate.program),
  ("true", Utility.succeed),
  ("wc", Utility.Count.program),
  ("yes", Utility.Repeat.program)]

def FileSystem.standard : FileSystem :=
  let directories : List Place := [["dev", "fd"], ["bin"], ["usr", "bin"], ["tmp"]]
  let devices : List (String × Entry) := [("null", .device .null), ("zero", .device .zero),
    ("full", .device .full), ("tty", .device .terminal), ("stdin", .stream 0),
    ("stdout", .stream 1), ("stderr", .stream 2)]
  let fs := directories.foldl makeDirectories {}
  let fs := devices.foldl (fun fs (name, e) => fs.put ["dev", name] e) fs
  let fs := (List.range 3).foldl (fun fs fd => fs.put ["dev", "fd", toString fd] (.stream fd)) fs
  Programs.all.foldl (fun fs (name, _) =>
    (fs.put ["bin", name] .program).put ["usr", "bin", name] .program) fs

namespace System

def standard (world : World) : System := { world, programs := .all }

def ownDescriptors : Descriptors := .ofStreams ⟨.own 0, .own 1, .own 2⟩

def openOwn (s : System) (path : String) (mode : OpenMode) :
    Except SystemError (Endpoint × System) :=
  s.openFile ownDescriptors s.world.cwd path mode

/-- Starts the program of a command; a NUL character in its data is refused before anything. -/
def launch (s : System) (name : String) (args : List String) (env : Bindings String)
    (streams : Streams) (group : Option Pid) : Except SystemError (Pid × System) :=
  let hasNul (t : String) : Bool := t.contains '\x00'
  if hasNul name || args.any hasNul || env.any (fun (n, v) => hasNul n || hasNul v) then
    .error .nulInData
  else
    let start : Start := {
      name := Text.octets name
      args := args.map Text.octets
      env := env.map fun (n, v) => Text.octets s!"{n}={v}" }
    let attempt (path : String) : Except SystemError String := do
      let program ← s.world.files.programAt s.world.cwd path
      if start.isTooLong then .error .tooManyArguments else return program
    match FileSystem.findProgram attempt env name with
    | .error e => .error e
    | .ok program =>
      match s.programs.lookup program with
      | some run => .ok (s.spawn group streams (run start))
      | none => .error .badFormat

end System

end JobShell
