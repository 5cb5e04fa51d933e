import JobShell.FileSystem
import JobShell.Text.Numeral
import JobShell.Value.Json

/-!
Routines: commands that run inside the shell.

A routine is called with its arguments, its environment and all of its input, and hands back a
result and what it wrote. A finalizer is called after the job has ended.
-/

namespace JobShell

structure Invocation where
  name : String
  args : List String
  env : Bindings Value
  stdin : Bytes := []

/-- What a routine returns: a status, a text or a value to be written, nothing, or a failure, which
may name a status. -/
inductive Result where
  | status (n : Int)
  | text (s : String)
  | structured (v : Value)
  | nothing
  | failure (message : String) (status : Option Int)

/-- What a routine wrote, and the variables it sets beyond its own shell. -/
structure Output where
  stdout : Bytes := []
  stderr : Bytes := []
  escapes : List (String × Value) := []

namespace Output

def write (o : Output) (data : Bytes) : Output := { o with stdout := o.stdout ++ data }

def writeErr (o : Output) (data : Bytes) : Output := { o with stderr := o.stderr ++ data }

def print (o : Output) (s : String) : Output := o.write (Text.encode s)

def printErr (o : Output) (s : String) : Output := o.writeErr (Text.encode s)

def escape (o : Output) (name : String) (value : Value) : Output :=
  { o with escapes := o.escapes ++ [(name, value)] }

def append (o p : Output) : Output :=
  ⟨o.stdout ++ p.stdout, o.stderr ++ p.stderr, o.escapes ++ p.escapes⟩

/-- The status that a value carries in its member of that name. -/
def embeddedStatus (v : Value) : Int :=
  match v.member? "status" with
  | some (.number n) => (n.int64?.map Text.wrap32).getD 0
  | _ => 0

/-- The status a result stands for, once what there is to write has been written. -/
def conclude (o : Output) : Result → Int × Output
  | .status n => (n, o)
  | .text s => (0, o.print s)
  | .structured v => (embeddedStatus v, (o.print v.json).print "\n")
  | .nothing => (0, o)
  | .failure message status => (status.getD 0, o.printErr (message ++ "\n"))

end Output

abbrev Body := Invocation → World → Result × Output × World

abbrev Finalizer := Invocation → World → Output × World

structure Routine where
  body : Body
  finalizers : List Finalizer := []

end JobShell
