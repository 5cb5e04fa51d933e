import JobShell.FileSystem
import JobShell.JobTable

/-!
Where output goes: to a transcript, or straight to the terminal.

Foreground output is `out` and `err`, background output `log` and `error`. A console is paused
while a job in the foreground has the terminal.
-/

namespace JobShell

inductive Channel where
  | out
  | err
  | log
  | error
  deriving DecidableEq, Repr

inductive ConsoleEvent where
  | text (channel : Channel) (text : String)
  | pause
  | resume
  | restore
  | job (info : JobInfo)
  deriving DecidableEq

/-- A console that keeps a transcript, or one that writes to the terminal. -/
inductive Console where
  | transcript (events : List ConsoleEvent)
  | direct

namespace Console

def record (e : ConsoleEvent) : Console → Console
  | .transcript es => .transcript (es ++ [e])
  | .direct => .direct

def write (channel : Channel) (data : Bytes) (c : Console) (t : Terminal) : Console × Terminal :=
  match c with
  | .transcript es => (.transcript (es ++ [.text channel (Text.decodeLossy data)]), t)
  | .direct =>
    match channel with
    | .out | .log => (.direct, { t with out := t.out ++ data })
    | .err | .error => (.direct, { t with err := t.err ++ data })

def noticeLine (info : JobInfo) : String := s!"[{info.id}]  {info.state.label}\t{info.command}\n"

/-- Tells of a change in a job. On the terminal it is shown unless the job is in the foreground,
where only its being stopped is shown. -/
def notice (info : JobInfo) (c : Console) (t : Terminal) : Console × Terminal :=
  match c with
  | .transcript es => (.transcript (es ++ [.job info]), t)
  | .direct =>
    if info.foreground ∧ info.state ≠ .stopped then (.direct, t)
    else (.direct, { t with err := t.err ++ Text.encode (noticeLine info) })

def pause : Console → Console := record .pause

def resume : Console → Console := record .resume

def restore : Console → Console := record .restore

def events : Console → List ConsoleEvent
  | .transcript es => es
  | .direct => []

def textOn (channels : List Channel) (c : Console) : String :=
  String.join (c.events.filterMap fun
    | .text channel s => if channel ∈ channels then some s else none
    | _ => none)

def merge : List ConsoleEvent → List ConsoleEvent
  | [] => []
  | .text c s :: es =>
    match merge es with
    | .text d t :: rest =>
      if c = d then .text c (s ++ t) :: rest else .text c s :: .text d t :: rest
    | rest => .text c s :: rest
  | e :: es => e :: merge es

end Console

end JobShell
