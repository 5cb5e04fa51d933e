import JobShell.Launch
import JobShell.Route

/-!
Chains: routines of one job, each fed with the output of the one before.

A chain runs as a whole, once it was started and its input is complete. A routine whose
redirections fail is not called; it has status 1 and writes nothing, and the next one goes on with
no input.
-/

namespace JobShell

namespace Chain

/-! ### Redirections -/

inductive Dest where
  | out
  | err
  | file (path : String) (append : Bool)
  | closed
  deriving DecidableEq

structure Routes where
  input : Option Bytes := none
  stdout : Dest := .out
  stderr : Dest := .err

namespace Routes

def set (r : Routes) (fd : Int) (d : Dest) : Routes :=
  if fd = 1 then { r with stdout := d }
  else if fd = 2 then { r with stderr := d }
  else r

/-- Follows one redirection, or says what is wrong with it. A file that is read is read at once. -/
def redirect (r : Routes) (w : World) (d : Redirection) : Except String Routes × World :=
  match d.op, d.target with
  | .input, .file path =>
    match w.take path with
    | (.ok data, w) => (.ok { r with input := some data }, w)
    | (.error e, w) => (.error s!"{path}: {e.message}", w)
  | .output, .file path => (.ok (r.set d.fd (.file path false)), w)
  | .append, .file path => (.ok (r.set d.fd (.file path true)), w)
  | .dupOutput, .fd n =>
    if n = 1 then (.ok (r.set d.fd r.stdout), w)
    else if n = 2 then (.ok (r.set d.fd r.stderr), w)
    else (.error s!"{n}: bad file descriptor", w)
  | _, .close => (.ok (r.set d.fd .closed), w)
  | _, _ => (.ok r, w)

/-- Follows redirections from left to right, up to the first that fails. -/
def follow (r : Routes) (w : World) : List Redirection → Except String Routes × World
  | [] => (.ok r, w)
  | d :: ds =>
    match r.redirect w d with
    | (.ok r, w) => r.follow w ds
    | (.error message, w) => (.error message, w)

def plan (w : World) (ds : List Redirection) : Except String Routes × World :=
  ({} : Routes).follow w ds

end Routes

/-- What a delivery leaves: the two streams, and the file opened last. -/
structure Delivery where
  stdout : Bytes := []
  stderr : Bytes := []
  world : World
  opened : Option (String × Place) := none

namespace Delivery

/-- Sends one stream to its end. A file that is open already is written on. -/
def send (d : Delivery) (dest : Dest) (data : Bytes) : Except String Delivery × World :=
  match dest with
  | .out => (.ok { d with stdout := d.stdout ++ data }, d.world)
  | .err => (.ok { d with stderr := d.stderr ++ data }, d.world)
  | .closed => (.ok d, d.world)
  | .file path append =>
    let known := d.opened.filter fun (p, _) => Path.components p == Path.components path
    let found : Except SystemError (Place × FileSystem) :=
      match known with
      | some (_, place) => .ok (place, d.world.files)
      | none =>
        d.world.files.openAt d.world.cwd path (if append then .appending else .writing)
    match found with
    | .error e => (.error s!"{path}: {e.message}", d.world)
    | .ok (place, files) =>
      let world := { d.world with files }
      match world.append place data with
      | .ok world => (.ok { d with world, opened := some (path, place) }, world)
      | .error e => (.error s!"{path}: {e.message}", world)

end Delivery

/-- Sends the streams of a routine where they belong, standard output first. What was written
before something went wrong stays written. -/
def Routes.deliver (r : Routes) (w : World) (o : Output) :
    Except String (Bytes × Bytes) × World :=
  match ({ world := w } : Delivery).send r.stdout o.stdout with
  | (.error e, w) => (.error e, w)
  | (.ok d, _) =>
    match d.send r.stderr o.stderr with
    | (.error e, w) => (.error e, w)
    | (.ok d, w) => (.ok (d.stdout, d.stderr), w)

/-! ### Running -/

structure Pending where
  finalizers : List Finalizer
  call : Invocation

namespace Pending

def run (p : Pending) (w : World) : Output × World :=
  p.finalizers.foldl (fun (out, w) f =>
    let (o, w) := f p.call w
    (out.append o, w)) ({}, w)

end Pending

/-- A chain at work: what flows to the next routine, and what has been collected. -/
structure Progress where
  flow : Bytes
  stderr : Bytes := []
  status : Int := 0
  escapes : List (String × Value) := []
  finalizers : List Finalizer := []
  lastCall : Option Invocation := none
  world : World

/-- How the routine of a launch is called. -/
def Progress.call (p : Progress) (l : Launch) (routes : Routes) (world : World) : Invocation where
  name := l.name
  args := l.args
  env := l.routineEnv world
  stdin := routes.input.getD p.flow

def advance (failedStatus : Int) (p : Progress) (l : Launch) : Progress :=
  match Routes.plan p.world l.redirections with
  | (.error message, world) =>
    { p with
      flow := [], stderr := p.stderr ++ Text.encode s!"{l.name}: {message}\n", status := 1
      world }
  | (.ok routes, world) =>
    let call := p.call l routes world
    let (status, out, world, finalizers) : Int × Output × World × List Finalizer :=
      match l.routine with
      | some r =>
        let (result, out, world) := r.body call world
        let (status, out) := out.conclude result
        (status, out, world, r.finalizers)
      | none =>
        (failedStatus, ({} : Output).printErr s!"{l.name}: command not found\n", world, [])
    let p := { p with
      escapes := p.escapes ++ out.escapes
      finalizers := p.finalizers ++ finalizers
      lastCall := some { call with stdin := [] } }
    match routes.deliver world out with
    | (.ok (stdout, stderr), world) =>
      { p with flow := stdout, stderr := p.stderr ++ stderr, status, world }
    | (.error message, world) =>
      { p with
        flow := [], status := 1, world
        stderr := p.stderr ++ Text.encode s!"{l.name}: {message}\n" }

structure Outcome where
  stdout : Bytes
  stderr : Bytes
  status : Int
  escapes : List (String × Value)
  pending : Option Pending

def Progress.outcome (p : Progress) : Outcome where
  stdout := p.flow
  stderr := p.stderr
  status := p.status
  escapes := p.escapes
  pending := if p.finalizers.isEmpty then none else p.lastCall.map (⟨p.finalizers, ·⟩)

/-- Runs launches on an input. Without any, the input comes to nothing. -/
def runAll (failedStatus : Int) (launches : List Launch) (input : Bytes) (w : World) :
    Outcome × World :=
  let p := launches.foldl (advance failedStatus)
    { flow := if launches.isEmpty then [] else input, world := w }
  (p.outcome, p.world)

end Chain

/-- A job of routines that waits for its input. -/
structure Chain where
  launches : List Launch
  input : Bytes := []
  closed : Bool := false
  started : Bool := false
  queued : Bool := false

namespace Chain

/-- Says whether the chain can run now; it says so once. -/
def ready (c : Chain) : Bool × Chain :=
  if c.started && c.closed && !c.queued then (true, { c with queued := true }) else (false, c)

/-- Starts a chain; without anything to feed it, its input is complete. -/
def start (c : Chain) (taps : Taps) : Bool × Chain :=
  ({ c with started := true, closed := c.closed || !taps.stdin } : Chain).ready

def write (c : Chain) (data : Bytes) : Chain :=
  if c.closed then c else { c with input := c.input ++ data }

def close (c : Chain) : Bool × Chain := ({ c with closed := true } : Chain).ready

def run (c : Chain) (failedStatus : Int) (w : World) : Outcome × Chain × World :=
  let (o, w) := runAll failedStatus c.launches c.input w
  (o, { c with launches := [], input := [] }, w)

end Chain

end JobShell
