import JobShell.Fault
import JobShell.Text.Numeral

/-!
The table that gives jobs the small numbers their users type.

Numbers are reused from 1 on, so age is kept beside them: the current job is the one registered
last. An entry leaves the table when its job ends.
-/

namespace JobShell

abbrev JobId := Nat

inductive JobState where
  | unstarted
  | running
  | stopped
  | terminated
  | failed
  deriving DecidableEq, Repr

namespace JobState

def label : JobState → String
  | .unstarted => "Unstarted"
  | .running => "Running"
  | .stopped => "Stopped"
  | .terminated => "Done"
  | .failed => "Failed"

def isFinal : JobState → Bool
  | .terminated | .failed => true
  | _ => false

end JobState

structure JobInfo where
  id : Nat
  command : String
  state : JobState
  status : Option Int
  foreground : Bool
  deriving DecidableEq

structure JobTable.Entry where
  job : JobId
  command : String
  state : JobState
  status : Option Int
  /-- How many jobs had been registered before. -/
  seq : Nat

/-- How a job is listed, if it is: whether in the foreground, and by what text. -/
abbrev Listing := Option (Bool × String)

/-- The entries are in the order of their numbers. -/
structure JobTable where
  entries : List (Nat × JobTable.Entry) := []
  foreground : Option Nat := none
  nextSeq : Nat := 0

namespace JobTable

/-- What a change of state meant for the table. -/
inductive Change where
  | updated
  | foregroundStopped
  | removed
  | unknown
  deriving DecidableEq

def entry? (t : JobTable) (id : Nat) : Option Entry := t.entries.lookup id

def contains (t : JobTable) (id : Nat) : Bool := (t.entry? id).isSome

def insertEntry (id : Nat) (e : Entry) : List (Nat × Entry) → List (Nat × Entry)
  | [] => [(id, e)]
  | (i, d) :: rest => if id < i then (id, e) :: (i, d) :: rest else (i, d) :: insertEntry id e rest

/-- The lowest number from 1 on that is not taken. -/
def freshId (t : JobTable) : Nat :=
  ((List.range' 1 (t.entries.length + 1)).find? (!t.contains ·)).getD 0

def add (t : JobTable) (job : JobId) (command : String) (foreground : Bool) : Nat × JobTable :=
  let id := t.freshId
  (id, {
    entries := insertEntry id ⟨job, command, .unstarted, none, t.nextSeq⟩ t.entries
    foreground := if foreground then some id else t.foreground
    nextSeq := t.nextSeq + 1 })

def infoOf (t : JobTable) (id : Nat) (e : Entry) : JobInfo :=
  ⟨id, e.command, e.state, e.status, t.foreground == some id⟩

def get? (t : JobTable) (id : Nat) : Option JobInfo := (t.entry? id).map (t.infoOf id)

def jobOf? (t : JobTable) (id : Nat) : Option JobId := (t.entry? id).map (·.job)

/-- A number that is not in the table clears the foreground. -/
def setForeground (t : JobTable) (id : Option Nat) : JobTable :=
  { t with foreground := id.filter t.contains }

def eraseEntry (t : JobTable) (id : Nat) : JobTable :=
  { t with
    entries := t.entries.filter (·.1 != id)
    foreground := if t.foreground = some id then none else t.foreground }

def update (t : JobTable) (id : Nat) (state : JobState) (status : Option Int) :
    Change × JobTable :=
  if t.contains id then
    if state.isFinal then (.removed, t.eraseEntry id)
    else
      let entries := t.entries.map fun (i, e) =>
        if i = id then (i, { e with state, status }) else (i, e)
      if state = .stopped ∧ t.foreground = some id then
        (.foregroundStopped, { t with entries, foreground := none })
      else (.updated, { t with entries })
  else (.unknown, t)

def remove (t : JobTable) (id : Nat) : Option JobInfo × JobTable :=
  match t.get? id with
  | some info => (some info, t.eraseEntry id)
  | none => (none, t)

def list (t : JobTable) : List JobInfo := t.entries.map fun (id, e) => t.infoOf id e

/-! ### Age -/

/-- The numbers, the one registered last first. -/
def byAge (t : JobTable) : List Nat :=
  (t.entries.mergeSort fun a b => decide (b.2.seq ≤ a.2.seq)).map (·.1)

def current? (t : JobTable) : Option Nat := t.byAge[0]?

def previous? (t : JobTable) : Option Nat := t.byAge[1]?

/-! ### Job specifications -/

def occursIn (needle : Chars) : Chars → Bool
  | [] => needle.isEmpty
  | c :: cs => needle.isPrefixOf (c :: cs) || occursIn needle cs

def existing (t : JobTable) (id : Nat) : Except Fault Nat :=
  if t.contains id then .ok id else .error (.unknownJob id)

def unique? (t : JobTable) (p : Chars → Bool) : Option Nat :=
  match t.entries.filter fun (_, e) => p e.command.toList with
  | [(id, _)] => some id
  | _ => none

/-- Resolves what a user types for a job: a number with or without `%`, `%%` or `%+` for the
current and `%-` for the previous job, `%text` and `%?text` for the one job whose command starts
with the text or contains it. -/
def resolve (t : JobTable) (spec : String) : Except Fault Nat :=
  let orInvalid : Option Nat → Except Fault Nat
    | some id => .ok id
    | none => .error (.invalidJobSpec spec)
  match spec.toList with
  | '%' :: rest =>
    match rest with
    | [] | ['%'] | ['+'] => orInvalid t.current?
    | ['-'] => orInvalid t.previous?
    | '?' :: needle => orInvalid (if needle.isEmpty then none else t.unique? (occursIn needle))
    | _ =>
      match Text.count? (String.ofList rest) with
      | some id => t.existing id
      | none => orInvalid (t.unique? rest.isPrefixOf)
  | _ =>
    match Text.count? spec with
    | some id => t.existing id
    | none => .error (.invalidJobSpec spec)

/-! ### The listing -/

def mark (t : JobTable) (id : Nat) : String :=
  if some id = t.current? then "+" else if some id = t.previous? then "-" else " "

def line (t : JobTable) (job : JobInfo) : String :=
  let suffix := if job.state = .running ∧ ¬ job.foreground then " &" else ""
  s!"[{job.id}]{t.mark job.id}  {job.state.label}\t{job.command}{suffix}\n"

def listing (t : JobTable) : String := String.join (t.list.map t.line)

end JobTable

end JobShell
