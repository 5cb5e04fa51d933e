import JobShell.Engine.Control
import Mathlib.Data.Option.Basic
import Mathlib.Tactic.Common

/-!
A plain interpreter of command trees.

It runs a tree by recursion: no hubs, no tasks, no jobs. It has a result only for what runs in the
foreground and within the shell: it has none where an item is sent to the background, or where a
command is no routine, has finalizers or works on the job table.
-/

namespace JobShell.Interpreter

open JobShell.Tree

/-- What does not change while a script runs. -/
structure Setting where
  config : Config
  services : Services

/-- What a script reads and changes. -/
structure State where
  stores : Stores
  console : Console
  world : World

namespace State

def write (channel : Channel) (data : Bytes) (σ : State) : State :=
  let (console, terminal) := σ.console.write channel data σ.world.terminal
  { σ with console, world := { σ.world with terminal } }

def notice (info : JobInfo) (σ : State) : State :=
  let (console, terminal) := σ.console.notice info σ.world.terminal
  { σ with console, world := { σ.world with terminal } }

/-- Writes a stream that has something in it. -/
def output (channel : Channel) (data : Bytes) (σ : State) : State :=
  if data.isEmpty then σ else σ.write channel data

def setAll (store : StoreId) (bindings : Bindings Value) (σ : State) : State :=
  { σ with stores := bindings.foldl (fun s (n, v) => s.set store n v) σ.stores }

def setStatus (store : StoreId) (status : Int) (σ : State) : State :=
  { σ with stores := σ.stores.set store Stores.statusName (.int status) }

def valueOf (store : StoreId) (name : String) (σ : State) : Value :=
  match σ.stores.get? store name with
  | some v => v
  | none => .text ((σ.world.env.get? name).getD "")

end State

/-- A run that changes the state, if there is a result. -/
abbrev Run (α : Type) := StateT State Option α

variable (k : Setting)

/-- A fault is reported, and is the outcome. -/
def fault (f : Fault) : Run Int := do
  modify (State.write .err (Text.encode f.report))
  return f.status k.config.failedStatus

def negate (negated : Bool) (status : Int) : Int :=
  if negated then if status = 0 then 1 else 0 else status

/-! ### Pipelines -/

/-- A routine that is done when its job is done. -/
def Setting.plain (c : Command) : Bool := (k.services.find? c.name).any (·.finalizers.isEmpty)

/-- Runs commands one after the other, each on the output of the one before. -/
def chain (store : StoreId) (cs : List Command) : Run Chain.Outcome := do
  let σ ← get
  let launches := cs.map (Launch.resolve k.services σ.world .routine)
  let (o, world) := Chain.runAll k.config.failedStatus launches [] σ.world
  set { σ with world, stores := σ.stores.escapeAll store o.escapes }
  return o

/-- Runs a pipeline with the terminal. Commands that only set variables have no part in it. -/
def pipeline (store : StoreId) (cs : List Command) (negated : Bool) : Run Int := do
  let cs := cs.filter (!·.assignmentOnly)
  if cs.isEmpty then return 0
  else
    guard (cs.all k.plain)
    modify fun σ => { σ with console := σ.console.pause }
    let o ← chain k store cs
    modify (State.output .out o.stdout)
    modify (State.output .err o.stderr)
    modify (State.notice ⟨1, Command.pipeLine cs, .terminated, some o.status, true⟩)
    modify fun σ => { σ with console := σ.console.resume }
    return negate negated o.status

/-- Runs a pipeline for its output. -/
def capture (store : StoreId) (cs : List Command) (negated : Bool) : Run Captured := do
  let cs := cs.filter (!·.assignmentOnly)
  if cs.isEmpty then return ⟨"", "", 0⟩
  else
    guard (cs.all k.plain)
    let o ← chain k store cs
    return ⟨Text.decodeLossy o.stdout, Text.decodeLossy o.stderr, negate negated o.status⟩

/-- Evaluates, with the answers the shell has at the time. -/
def answer {α : Type} (store : StoreId) : Expansion α → Run α
  | .done a => pure a
  | .value name next => do answer store (next ((← get).valueOf store name))
  | .aliasOf name next => answer store (next (k.services.alias? name))
  | .paths pattern next => do answer store (next ((← get).world.expand pattern))
  | .capture cs negated next => do answer store (next (.ok (← capture k store cs negated)))

/-- Runs a command. One that has no name only sets variables. -/
def command (store : StoreId) (c : Command) : Run Int :=
  if c.assignmentOnly then do
    modify (State.setAll store c.assignments)
    return 0
  else do
    guard (c.name ∉ ["jobs", "fg", "bg"])
    pipeline k store [c] false

/-! ### Trees -/

/-- Runs a body for each value; the status is that of the last time. -/
def forEach (body : Value → Run Int) : List Value → Int → Run Int
  | [], status => pure status
  | v :: vs, _ => do forEach body vs (← body v)

mutual

def items (scope : Scope) (store : StoreId) : List Item → Option Int → Run Int
  | [], last => pure (last.getD 0)
  | ⟨n, background⟩ :: rest, _ => do
    guard !background
    let status ← node scope store n
    modify (State.setStatus store status)
    items scope store rest (some status)

def node (scope : Scope) (store : StoreId) : Node → Run Int
  | .command c => do
    match ← answer k store (c.command scope).run with
    | .error f => fault k f
    | .ok c => command k store { c with background := false }
  | .pipeline cs negated => do
    match ← answer k store (commands scope cs).run with
    | .error f => fault k f
    | .ok cs => pipeline k store cs negated
  | .logical op left right => do
    let status ← node scope store left
    modify (State.setStatus store status)
    if op.goesOn status then
      let status ← node scope store right
      modify (State.setStatus store status)
      return status
    else return status
  | .conditional condition onSuccess onFailure => do
    let status ← items scope store condition none
    if status = 0 then branch scope store onSuccess else branch scope store onFailure
  | .loop name words body => do
    match ← answer k store (loopItems scope k.config.separators words).run with
    | .error f => fault k f
    | .ok values => forEach (fun v => items (scope.push [(name, v)]) store body none) values 0
  | .choice subject arms => do
    match ← answer k store (subject.text scope).run with
    | .error f => fault k f
    | .ok text => select scope store text arms
  | .subshell body => do
    let σ ← get
    let (child, stores) := σ.stores.fork store
    set { σ with stores }
    let status ← items scope child body none
    modify fun σ => { σ with stores := σ.stores.release child }
    return status

/-- A branch that is missing succeeds. -/
def branch (scope : Scope) (store : StoreId) : Option (List Item) → Run Int
  | none => pure 0
  | some body => items scope store body none

/-- Runs the first arm with a pattern that matches. -/
def select (scope : Scope) (store : StoreId) (text : String) : List Arm → Run Int
  | [] => pure 0
  | ⟨patterns, body⟩ :: rest => do
    match ← answer k store (anyMatches scope text patterns).run with
    | .error f => fault k f
    | .ok true => items scope store body none
    | .ok false => select scope store text rest

end

/-- Runs a script in the root store. -/
def script (s : Script) : Run Int := items k {} Stores.root s.items none

/-! ### Results -/

section Results

variable {k} {σ σ' : State} {s : Int} {store : StoreId} {commands cs : List Command}
  {negated : Bool}

lemma bind_eq_some {α β : Type} {x : Run α} {f : α → Run β} {r : β × State} :
    (x >>= f) σ = some r ↔ ∃ a σ1, x σ = some (a, σ1) ∧ f a σ1 = some r := by
  show (x σ).bind (fun p => f p.1 p.2) = some r ↔ _
  rw [Option.bind_eq_some_iff]
  exact ⟨fun ⟨⟨a, σ1⟩, h⟩ => ⟨a, σ1, h⟩, fun ⟨a, σ1, h⟩ => ⟨(a, σ1), h⟩⟩

lemma guard_bind_eq_some {p : Prop} [Decidable p] {x : Unit → Run α} {r : α × State}
    (h : (guard p >>= x) σ = some r) : p ∧ x () σ = some r := by
  obtain ⟨_, _, hg, h⟩ := bind_eq_some.mp h
  by_cases hp : p
  · rw [guard, if_pos hp] at hg
    cases hg
    exact ⟨hp, h⟩
  · rw [guard, if_neg hp] at hg
    cases hg

lemma pipeline_empty (hcs : commands.filter (!·.assignmentOnly) = []) :
    pipeline k store commands negated σ = some (0, σ) := by
  simp only [pipeline, hcs]
  rfl

lemma pipeline_eq_some (hcs : commands.filter (!·.assignmentOnly) = cs) (hne : cs ≠ [])
    (h : pipeline k store commands negated σ = some (s, σ')) :
    cs.all k.plain = true ∧ ∃ o w, Chain.runAll k.config.failedStatus
        (cs.map (Launch.resolve k.services σ.world .routine)) [] σ.world = (o, w) ∧
      s = negate negated o.status ∧
      let σ1 := { σ with
        world := w, stores := σ.stores.escapeAll store o.escapes, console := σ.console.pause }
      let σ2 := ((σ1.output .out o.stdout).output .err o.stderr).notice
        ⟨1, Command.pipeLine cs, .terminated, some o.status, true⟩
      σ' = { σ2 with console := σ2.console.resume } := by
  have hempty : cs.isEmpty = false := by simpa using hne
  simp only [pipeline, hcs, hempty, Bool.false_eq_true, if_false] at h
  obtain ⟨hp, h⟩ := guard_bind_eq_some h
  cases h
  exact ⟨hp, _, _, rfl, rfl, rfl⟩

lemma capture_empty (hcs : commands.filter (!·.assignmentOnly) = []) :
    capture k store commands negated σ = some (⟨"", "", 0⟩, σ) := by
  simp only [capture, hcs]
  rfl

lemma capture_eq_some (hcs : commands.filter (!·.assignmentOnly) = cs) (hne : cs ≠ [])
    {c : Captured} (h : capture k store commands negated σ = some (c, σ')) :
    cs.all k.plain = true ∧ ∃ o w, Chain.runAll k.config.failedStatus
        (cs.map (Launch.resolve k.services σ.world .routine)) [] σ.world = (o, w) ∧
      c = ⟨Text.decodeLossy o.stdout, Text.decodeLossy o.stderr, negate negated o.status⟩ ∧
      σ' = { σ with world := w, stores := σ.stores.escapeAll store o.escapes } := by
  have hempty : cs.isEmpty = false := by simpa using hne
  simp only [capture, hcs, hempty, Bool.false_eq_true, if_false] at h
  obtain ⟨hp, h⟩ := guard_bind_eq_some h
  cases h
  exact ⟨hp, _, _, rfl, rfl, rfl⟩

end Results

end JobShell.Interpreter
