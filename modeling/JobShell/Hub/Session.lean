import JobShell.Fault
import JobShell.Hub.Basic
import JobShell.Text.Numeral

/-!
Hubs on their own, driven step by step.

The subscribers of a session carry steps to take when they are called, so a call may create,
complete, wait for or drop other hubs. A session is a machine: its stack holds the work in hand,
the innermost first, and its queue the work put off to a later turn. Every subscriber may be called
once, so the number of steps in the script bounds the run.
-/

namespace JobShell.Hub

/-- What can be done to hubs. Hubs are named in the order of their creation, subscribers by name. -/
inductive Step where
  | create (parent : Option Nat)
  | addChild (parent child : Nat)
  | subscribe (hub : Nat) (name : String) (actions : List Step)
  | unsubscribe (name : String)
  | notify (hub : Nat) (status : Int)
  | sealOff (hub : Nat)
  | retain (hub : Nat)
  | release (hub : Nat)
  | status (hub : Nat)
  | wait (hub : Nat)
  | turn (block : Bool)
  | poll
  | drain
  | defer (actions : List Step)
  deriving Inhabited

namespace Step

def label : Step → String
  | .create _ => "create"
  | .addChild .. => "add_child"
  | .subscribe .. => "subscribe"
  | .unsubscribe _ => "unsubscribe"
  | .notify .. => "notify"
  | .sealOff _ => "seal"
  | .retain _ => "retain"
  | .release _ => "release"
  | .status _ => "status"
  | .wait _ => "wait"
  | .turn _ => "turn"
  | .poll => "poll"
  | .drain => "drain"
  | .defer _ => "defer"

mutual

def size : Step → Nat
  | .subscribe _ _ actions => 1 + sizes actions
  | .defer actions => 1 + sizes actions
  | _ => 1

def sizes : List Step → Nat
  | [] => 0
  | s :: ss => s.size + sizes ss

end

end Step

inductive Result where
  | nothing
  | flag (b : Bool)
  | status (n : Int)
  | created (handle : Nat) (slot : HubId)
  | fault (f : Fault)

/-- What a session leaves on record: a subscriber called, or a step taken by one. -/
inductive Entry where
  | called (name : String) (status : Int)
  | done (name : String) (label : String) (result : Result)

structure Subscriber where
  name : String
  actions : List Step

/-- Where the result of a step goes: it is the answer, or it is put on record for a subscriber. -/
inductive Receiver where
  | answer
  | note (name : String) (label : String)

inductive Work where
  | duty (d : Duty)
  | steps (name : String) (rest : List Step)
  | wait (hub : HubId) (r : Receiver)
  | poll (r : Receiver)
  | conclude (r : Receiver) (result : Result)

inductive Task where
  | flush (hub : HubId)
  | deferred (actions : List Step)

structure Session where
  hubs : Hubs Subscriber := {}
  tasks : List Task := []
  /-- The slots of the hubs in the order of their creation. -/
  handles : List HubId := []
  /-- Where each subscriber was entered last. -/
  keys : List (String × HubId × Nat) := []
  fired : List Entry := []
  stack : List Work := []
  answer : Result := .nothing

namespace Session

/-- The slot of a hub; a hub that was never created has a slot that is never used. -/
def slot (s : Session) (handle : Nat) : HubId :=
  (s.handles[handle]?).getD (1 <<< 64 - 1)

def push (s : Session) (work : List Work) : Session := { s with stack := work ++ s.stack }

def taskWork (s : Session) : Task → List Work
  | .flush hub => (s.hubs.flush hub).map .duty
  | .deferred actions => [.steps "deferred" actions]

/-- Takes the task that is first in the queue in hand, before `rest`. -/
def turn? (s : Session) (rest : List Work) : Option Session :=
  match s.tasks with
  | [] => none
  | task :: tasks => some { s with tasks, stack := s.taskWork task ++ rest ++ s.stack }

def take (s : Session) (r : Receiver) : Step → Session
  | .create parent =>
    let (hub, hubs) := s.hubs.create (parent.map s.slot)
    { s with hubs, handles := s.handles ++ [hub] }.push
      [.conclude r (.created s.handles.length hub)]
  | .addChild parent child =>
    { s with hubs := s.hubs.addChild (s.slot parent) (s.slot child) }.push [.conclude r .nothing]
  | .subscribe handle name actions =>
    let hub := s.slot handle
    match s.hubs.subscribe hub ⟨name, actions⟩ with
    | none => s.push [.conclude r (.fault (.unknownHub hub))]
    | some (key, hubs) =>
      { s with
        hubs
        keys := (name, hub, key) :: s.keys
        tasks := if (s.hubs.status? hub).isSome then s.tasks ++ [Task.flush hub] else s.tasks
      }.push [.conclude r .nothing]
  | .unsubscribe name =>
    match s.keys.lookup name with
    | none => s.push [.conclude r .nothing]
    | some (hub, key) =>
      let (removed, hubs) := s.hubs.unsubscribe hub key
      { s with hubs }.push [.conclude r (.flag removed)]
  | .notify handle status =>
    s.push [.duty (.notify (s.slot handle) status), .conclude r .nothing]
  | .sealOff handle => s.push [.duty (.sealOff (s.slot handle)), .conclude r .nothing]
  | .retain handle => { s with hubs := s.hubs.retain (s.slot handle) }.push [.conclude r .nothing]
  | .release handle => { s with hubs := s.hubs.release (s.slot handle) }.push [.conclude r .nothing]
  | .status handle =>
    s.push [.conclude r (((s.hubs.status? (s.slot handle)).map .status).getD .nothing)]
  | .wait handle => s.push [.wait (s.slot handle) r]
  | .turn block =>
    match s.turn? [.conclude r (.flag true)] with
    | some s => s
    | none => s.push [.conclude r (if block then .fault .stalled else .flag false)]
  | .poll | .drain => s.push [.poll r]
  | .defer actions =>
    { s with tasks := s.tasks ++ [Task.deferred actions] }.push [.conclude r .nothing]

def perform (s : Session) : Work → Session
  | .duty d =>
    let (hubs, call, duties) := s.hubs.perform d
    let s := { s with hubs }.push (duties.map .duty)
    match call with
    | none => s
    | some (sub, status) =>
      { s with fired := s.fired ++ [Entry.called sub.name status] }.push
        [.steps sub.name sub.actions]
  | .steps _ [] => s
  | .steps name (step :: rest) => (s.push [.steps name rest]).take (.note name step.label) step
  | .wait hub r =>
    match s.hubs.get? hub with
    | none => s.push [.conclude r (.fault (.unknownHub hub))]
    | some h =>
      match h.status with
      | some status => { s with hubs := s.hubs.release hub }.push [.conclude r (.status status)]
      | none => (s.turn? [.wait hub r]).getD (s.push [.conclude r (.fault .stalled)])
  | .poll r => (s.turn? [.poll r]).getD (s.push [.conclude r .nothing])
  | .conclude .answer result => { s with answer := result }
  | .conclude (.note name label) result =>
    { s with fired := s.fired ++ [.done name label result] }

def step (s : Session) : Session :=
  match s.stack with
  | [] => s
  | w :: stack => { s with stack }.perform w

def run : Nat → Session → Session
  | 0, s => s
  | fuel + 1, s => if s.stack.isEmpty then s else run fuel s.step

/-- Takes one step, with nothing in hand. -/
def start (s : Session) (step : Step) : Session :=
  { s with fired := [], stack := [], answer := .nothing }.take .answer step

/-- Takes one step and all that follows from it. `total` is the number of steps there are in all:
each hub completes once and each subscriber is called once. -/
def act (total : Nat) (s : Session) (step : Step) : Session :=
  run (16 * (total + 2) * (total + 2)) (s.start step)

end Session

end JobShell.Hub
