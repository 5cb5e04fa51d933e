import JobShell.Engine.Machine

/-!
What can be asked of an engine.

A request works with a given amount of fuel and is refused as stalled when that is used up; no
script comes near that, for scripts have no loops but those over the values of a list.
-/

namespace JobShell.Engine

/-- Something that is asked of an engine. -/
abbrev Request := Engine → Except Fault Reply × Engine

def ample : Nat := 1 <<< 40

def drive (fuel : Nat) (stack : List Work) (e : Engine) : Except Fault Reply × Engine :=
  (Machine.run fuel ⟨e, stack⟩).getD (.error .stalled, e)

/-! ### Running -/

/-- Starts a script; its hub is kept until someone has waited for it. -/
def spawn (script : Tree.Script) (e : Engine) : HubId × Engine :=
  let (hub, e) := e.spawnItems script.items {} none
  (hub, { e with hubs := e.hubs.retain hub })

def wait (fuel : Nat) (hub : HubId) : Request :=
  drive fuel [.await hub .request]

def run (fuel : Nat) (script : Tree.Script) (e : Engine) : Except Fault Reply × Engine :=
  let (hub, e) := e.spawn script
  e.wait fuel hub

def runCommands (fuel : Nat) (commands : List Command) (e : Engine) :
    Except Fault Reply × Engine :=
  let (hub, e) := e.spawnRunner (commands.map .ready) {} none
  { e with hubs := e.hubs.retain hub }.wait fuel hub

def runPipeline (fuel : Nat) (commands : List Command) (negated : Bool) (e : Engine) :
    Except Fault Reply × Engine :=
  let (s, e) := e.startPipeline commands {} none negated
  drive fuel (s.duties.map .duty ++ [.await s.hub .request]) { e with hubs := e.hubs.retain s.hub }

def notify (fuel : Nat) (hub : HubId) (status : Int) : Request :=
  drive fuel [.duty (.notify hub status)]

def takeTurns (fuel : Nat) (count : Nat) (block : Bool) : Request :=
  drive fuel [.turns count block []]

/-- Does all that can be done without waiting. -/
def poll (fuel : Nat) : Request := drive fuel [.poll]

/-- Works until no task and no process is left. -/
def drain (fuel : Nat) : Request := drive fuel [.drain]

/-- Takes turns until a job has a state, or without one until it is gone. -/
def runUntil (fuel : Nat) (id : Nat) (state : Option JobState) : Request :=
  drive fuel [.untilState id state]

/-! ### Evaluating -/

def evaluateAs {α : Type} (fuel : Nat) (x : Evaluation α) (f : α → Reply) : Request :=
  drive fuel [.evaluate Stores.root (x.run.map fun r => .reply (r.map f))]

def substitute (fuel : Nat) (commands : List Command) : Request :=
  evaluateAs fuel (Evaluation.capture commands false) .captured

def buildCommand (fuel : Nat) (scope : Scope) (c : Tree.Simple) : Request :=
  evaluateAs fuel (c.command scope) .command

def wordText (fuel : Nat) (scope : Scope) (w : Tree.Word) : Request :=
  evaluateAs fuel (w.text scope) .text

def wordPattern (fuel : Nat) (scope : Scope) (w : Tree.Word) : Request :=
  evaluateAs fuel (w.pattern scope) .text

def valuesOf (fuel : Nat) (scope : Scope) (words : List Tree.Word) (e : Engine) :
    Except Fault Reply × Engine :=
  e.evaluateAs fuel (loopItems scope e.config.separators words) .values

def lookup (e : Engine) (scope : Scope) (name : String) : Value :=
  (scope.lookup? name).getD (e.valueOf Stores.root name)

/-! ### Other requests -/

def rootValue? (e : Engine) (name : String) : Option Value := e.stores.get? Stores.root name

def setVariable (e : Engine) (name : String) (v : Value) : Engine :=
  { e with stores := e.stores.set Stores.root name v }

/-- Has the engine hear of an interrupt on a later turn. -/
def postInterrupt (e : Engine) : Engine := { e with events := e.events ++ [.interrupt] }

end JobShell.Engine
