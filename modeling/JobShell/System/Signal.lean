import JobShell.Text.Blank
import JobShell.Text.Numeral

/-!
Signals: their numbers, their names, and what they do to a process that has not arranged for them.
-/

namespace JobShell

/-- What becomes of a process that gets a signal. -/
inductive Signal.Effect where
  | terminate
  | ignore
  | stop
  | resume
  deriving DecidableEq, Repr

/-- What a process arranged for a signal. -/
inductive Disposition where
  | default
  | ignore
  | heed
  deriving DecidableEq, Repr

abbrev Signal := Nat

namespace Signal

abbrev hangup : Signal := 1
abbrev interrupt : Signal := 2
abbrev quit : Signal := 3
abbrev kill : Signal := 9
abbrev pipe : Signal := 13
abbrev terminate : Signal := 15
abbrev child : Signal := 17
abbrev resume : Signal := 18
abbrev stop : Signal := 19

def bound : Nat := 65

def effect (s : Signal) : Effect :=
  if s = resume then .resume
  else if s = child || s = 23 || s = 28 then .ignore
  else if 19 ≤ s && s ≤ 22 then .stop
  else .terminate

def isFirm (s : Signal) : Bool := s = kill || s = stop

/-- The names of the signals from 0 on, the first one for the end of a program. -/
def standardNames : List String := [
  "EXIT", "HUP", "INT", "QUIT", "ILL", "TRAP", "ABRT", "BUS", "FPE", "KILL", "USR1", "SEGV", "USR2",
  "PIPE", "ALRM", "TERM", "STKFLT", "CHLD", "CONT", "STOP", "TSTP", "TTIN", "TTOU", "URG", "XCPU",
  "XFSZ", "VTALRM", "PROF", "WINCH", "IO", "PWR", "SYS"]

/-- The name of a signal; those for free use are named from the two ends of their range. -/
def name (s : Signal) : String :=
  match standardNames[s]? with
  | some n => n
  | none =>
    if s < 34 then toString s
    else if s = 34 then "RTMIN"
    else if s < 50 then s!"RTMIN+{s - 34}"
    else if s < 64 then s!"RTMAX-{64 - s}"
    else "RTMAX"

def descriptions : List String := [
  "Unknown signal 0", "Hangup", "Interrupt", "Quit", "Illegal instruction",
  "Trace/breakpoint trap", "Aborted", "Bus error", "Floating point exception", "Killed",
  "User defined signal 1", "Segmentation fault", "User defined signal 2", "Broken pipe",
  "Alarm clock", "Terminated", "Stack fault", "Child exited", "Continued", "Stopped (signal)",
  "Stopped", "Stopped (tty input)", "Stopped (tty output)", "Urgent I/O condition",
  "CPU time limit exceeded", "File size limit exceeded", "Virtual timer expired",
  "Profiling timer expired", "Window changed", "I/O possible", "Power failure", "Bad system call"]

def description (s : Signal) : String :=
  match descriptions[s]? with
  | some d => d
  | none => if 34 ≤ s && s ≤ 64 then s!"Real-time signal {s - 34}" else s!"Unknown signal {s}"

def ofDigits? (s : String) : Option Signal := (Text.digits? s.toList).filter (· < bound)

/-- The signal of a number or of a name in any case, the names counted from a first signal on. -/
def decode? (first : Signal) (s : String) : Option Signal :=
  match ofDigits? s with
  | some n => some n
  | none =>
    (List.range bound).find? fun n =>
      first ≤ n && Text.upperAscii (name n) == Text.upperAscii s

end Signal

end JobShell
