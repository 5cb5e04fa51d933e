import JobShell.Script.Shell

/-!
The processes that a shell started: waiting for them and telling of them.
-/

namespace JobShell.Script

namespace Ending

def code : Ending → Nat
  | .status n => (n % 256).toNat
  | .signal s => 128 + s

/-- What is said of a process that a signal ended; interruptions and broken pipes are
passed over. -/
def remark? : Ending → Option String
  | .status _ => none
  | .signal s => if s = Signal.interrupt || s = Signal.pipe then none else some s.description

end Ending

namespace Job

def code (j : Job) : Nat :=
  match j.processes.getLast? with
  | some (_, some how) => Ending.code how
  | _ => 0

def record (j : Job) (pid : Pid) (how : Ending) : Job :=
  { j with processes := j.processes.map fun (p, e) => if p = pid then (p, some how) else (p, e) }

def has (j : Job) (pid : Pid) : Bool := j.processes.any (·.1 == pid)

def state (j : Job) : String :=
  if !j.isDone then "Running"
  else
    match j.processes.getLast? with
    | some (_, some (.status n)) => if n = 0 then "Done" else s!"Done({n})"
    | some (_, some (.signal s)) => s.description
    | _ => "Done"

end Job

namespace Shell

/-- The first number that no job has. Jobs that were waited for give theirs up. -/
def freeNumber (s : Shell) : Nat :=
  let taken := (s.jobs.filter fun j => !(j.isDone && j.waited)).map (·.number)
  ((List.range (taken.length + 1)).map (· + 1)).find? (!taken.contains ·) |>.getD 1

def addJob (s : Shell) (processes : List Pid) : Job × Shell :=
  let number := s.freeNumber
  let j : Job := ⟨number, processes.map (·, none), false⟩
  (j, { s with jobs := j :: s.jobs.filter (·.number != number) })

def job? (s : Shell) (number : Nat) : Option Job := s.jobs.find? (·.number == number)

def dropJob (s : Shell) (number : Nat) : Shell :=
  { s with jobs := s.jobs.filter (·.number != number) }

def recordEnd (s : Shell) (pid : Pid) (how : Ending) : Shell :=
  { s with jobs := s.jobs.map (·.record pid how) }

end Shell

namespace Act

/-- Waits until a job is done, and says what became of its processes. Returns whether it is. -/
def waitUntilDone (interruptible : Bool) (number : Nat) : Nat → Act Bool
  | 0 => return true
  | fuel + 1 => do
    match (← get).job? number with
    | none => return true
    | some j =>
      if j.isDone then return true
      else
        match ← await true interruptible with
        | .ended pid how =>
          modify (·.recordEnd pid how)
          if j.has pid then
            if let some remark := Ending.remark? how then writeTo 2 (remark ++ "\n")
          waitUntilDone interruptible number fuel
        | .interrupted => return false
        | .nothing => return true

def waitForJob (number : Nat) : Act Nat := do
  let _ ← waitUntilDone false number Program.patience
  let code := (((← get).job? number).map Job.code).getD 0
  modify (·.dropJob number)
  return code

def reap : Nat → Act Unit
  | 0 => return
  | fuel + 1 => do
    match ← await false false with
    | .ended pid how =>
      modify (·.recordEnd pid how)
      reap fuel
    | _ => return

def jobNamed (text : String) : Act Job := do
  let s ← get
  let lacks : Act Job := fail s!"No such job: {text}"
  match text.toList with
  | '%' :: cs =>
    if cs = [] || cs = ['%'] || cs = ['+'] then
      match s.jobs.head? with
      | some j => return j
      | none => fail "No current job"
    else if cs = ['-'] then
      match s.jobs.tail.head? with
      | some j => return j
      | none => fail "No previous job"
    else
      match (Text.digits? cs).bind s.job? with
      | some j => return j
      | none => lacks
  | cs =>
    match (Text.digits? cs).bind fun pid => s.jobs.find? (·.has pid) with
    | some j => return j
    | none => lacks

end Act

end JobShell.Script
