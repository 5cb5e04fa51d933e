import JobShell.CommandLine

/-!
The command line program. Trees run on a machine of their own, which starts with the files that the
arguments name.
-/

namespace JobShell.Main

def environment : IO (Bindings String) := do
  let names := ["HOME", "PATH"] ++ Config.keys
  let found ← names.filterMapM fun name => do
    return (← IO.getEnv name).map fun value => (name, value)
  return Bindings.ofList found

/-- Copies a file to the machine, if there is one. -/
def copyFile (files : FileSystem) (path : String) : IO FileSystem := do
  let place := (Path.segments path).filter (!·.isEmpty)
  try
    let data ← IO.FS.readBinFile path
    return (files.makeDirectories place.dropLast).put place (.file data.toList)
  catch _ => return files

def readInput : IO Bytes := do
  let stdin ← IO.getStdin
  return (← stdin.readBinToEnd).toList

end JobShell.Main

open JobShell JobShell.Main in
def main (args : List String) : IO UInt32 := do
  let env ← environment
  let base : World := { files := FileSystem.standard, env }
  let (paths, input) ← match CommandLine.parse {} args with
    | .run o => do
      let input ← if o.command.isNone && o.file.isNone then readInput else pure []
      pure ([o.config.getD (Config.path base)] ++ o.file.toList, input)
    | _ => pure ([], [])
  let files ← paths.foldlM copyFile base.files
  let outcome := CommandLine.run { base with files } args input
  let stdout ← IO.getStdout
  let stderr ← IO.getStderr
  stdout.write (ByteArray.mk outcome.out.toArray)
  stderr.write (ByteArray.mk outcome.err.toArray)
  stdout.flush
  return UInt32.ofNat outcome.status
