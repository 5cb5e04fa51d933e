import JobShell.FileSystem
import JobShell.System.Signal
import JobShell.Text.Octet

/-!
Programs as the system sees them: what they ask for, one request after the other.

A program reads and writes through numbered descriptors, looks at files, sleeps, sends signals, and
runs other programs. Between two requests it only computes. Texts it hands over are octets.
-/

namespace JobShell

abbrev Pid := Nat

/-- How a process ended. -/
inductive Ending where
  | status (n : Int)
  | signal (s : Signal)
  deriving DecidableEq, Repr

/-- What a process learns about its children. -/
inductive Awaited where
  | ended (pid : Pid) (how : Ending)
  /-- A signal arrived first. -/
  | interrupted
  /-- There is nothing to tell, or no child at all. -/
  | nothing
  deriving DecidableEq

/-- What is behind a descriptor: the place it stands for unless it is no file, and where in it. -/
structure Inspection where
  place : Option Place := none
  offset : Nat := 0
  append : Bool := false

inductive Program where
  | exit (status : Nat)
  /-- Reads at most as many bytes; none at the end. -/
  | read (fd count : Nat) (next : Except SystemError Bytes → Program)
  | write (fd : Nat) (data : Bytes) (next : Option SystemError → Program)
  /-- Moves on in a file, and says whether that can be done. -/
  | seek (fd : Nat) (distance : Int) (next : Bool → Program)
  | inspect (fd : Nat) (next : Except SystemError Inspection → Program)
  | openFile (path : String) (mode : OpenMode) (next : Except SystemError Nat → Program)
  /-- Copies a descriptor to the first free one from a number on. Programs that take over do not
  get it. -/
  | saveFd (fd least : Nat) (next : Except SystemError Nat → Program)
  /-- Copies a descriptor to another one. -/
  | copyFd (source target : Nat) (next : Option SystemError → Program)
  | close (fd : Nat) (next : Option SystemError → Program)
  /-- Makes a pipe, and goes on with its two ends. -/
  | pipe (next : Nat → Nat → Program)
  | fork (child : Program) (next : Pid → Program)
  /-- Lets the program of a file take over. -/
  | exec (path : String) (args : List String) (env : List String) (next : SystemError → Program)
  /-- Waits for a child to end. -/
  | await (block interruptible : Bool) (next : Awaited → Program)
  /-- Sends a signal to a process, or to a group by a number that is not positive. -/
  | kill (target : Int) (s : Signal) (next : Option SystemError → Program)
  | arrange (s : Signal) (d : Disposition) (next : Disposition → Program)
  /-- Takes the signals that were caught. -/
  | caught (next : List Signal → Program)
  | sleep (microseconds : Nat) (next : Program)
  /-- Goes on with its own number and that of its parent. -/
  | identify (next : Pid → Pid → Program)
  /-- Goes on with the files and the current directory. -/
  | look (next : FileSystem → Place → Program)
  | enter (path : String) (next : Option SystemError → Program)
  | removeDirectory (path : String) (next : Option SystemError → Program)

/-- What a program is started with. -/
structure Start where
  name : String
  args : List String
  env : List String

def Program.patience : Nat := 1 <<< 40

end JobShell
