import JobShell.System.Process

/-!
How time passes.

Time passes only while the shell waits. Then every process runs as far as it can, and what the shell
is to hear of it is put down as events in the order in which it happened. If nothing happens, the
clock goes on to the next moment at which a sleeper wakes.
-/

namespace JobShell.System

def step (moved : Bool) (s : System) (pid : Pid) : Bool × System :=
  match s.process? pid with
  | some p =>
    if p.state = .running then
      match s.act p with
      | some s => (true, s.drain)
      | none => (moved, s)
    else (moved, s)
  | none => (moved, s)

/-- Lets every process take a step; says whether one did. A round of steps takes a microsecond. -/
def pass (s : System) : Bool × System :=
  let (moved, s) :=
    (s.processes.map (·.pid)).foldl (fun (moved, s) pid => s.step moved pid) (false, s)
  (moved, if moved then { s with clock := s.clock + 1 } else s)

def nextWake? (s : System) : Option Nat :=
  (s.processes.filterMap fun p => if p.state = .running then p.wake else none).min?

/-- Lets time pass until something happened that the shell is to hear of, and all that happens at
that moment has happened. Processes that never rest are left alone after some rounds. -/
def wait : Nat → Nat → System → System
  | 0, _, s => s
  | fuel + 1, rounds, s =>
    match s.pass with
    | (true, s) =>
      if s.events.isEmpty then wait fuel rounds s
      else
        match rounds with
        | 0 => s
        | rounds + 1 => wait fuel rounds s
    | (false, s) =>
      if !s.events.isEmpty then s
      else
        match s.nextWake? with
        | some time => wait fuel rounds { s with clock := max s.clock time }
        | none => s

end JobShell.System
