import JobShell.JobTable

/-!
Where the output of jobs goes, and what follows from that.
-/

namespace JobShell

inductive Mode where
  | foreground
  | background
  deriving DecidableEq, Repr

/-- Where one stream of a job ends: on the console as foreground or as background output, in the
input of another job, or in the buffers of a substitution. -/
inductive Sink where
  | terminal
  | console
  | forward (job : JobId)
  | capture (key : Nat)
  deriving DecidableEq, Repr

/-- The streams of a job that the engine holds the other end of. -/
structure Taps where
  stdin : Bool := false
  stdout : Bool := false
  stderr : Bool := false
  deriving DecidableEq, Repr

/-- Where a list of commands sends its output: to the terminal, to the console as background work,
or into the buffers of a substitution. -/
inductive Route where
  | terminal
  | console
  | capture (key : Nat)
  deriving DecidableEq, Repr

namespace Route

def mode : Route → Mode
  | .terminal => .foreground
  | _ => .background

def sink : Route → Sink
  | .terminal => .terminal
  | .console => .console
  | .capture key => .capture key

def taps (inheritTerminal : Bool) : Route → Taps
  | .terminal => if inheritTerminal then {} else { stdout := true, stderr := true }
  | _ => { stdout := true, stderr := true }

/-- Whether a pipeline is entered in the job table, and then whether as the foreground job. -/
def listed? : Route → Option Bool
  | .terminal => some true
  | .console => some false
  | .capture _ => none

end Route

end JobShell
