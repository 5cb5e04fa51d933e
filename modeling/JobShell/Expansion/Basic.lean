import JobShell.Command
import JobShell.Fault

/-!
Evaluation as questions and answers.

To evaluate a word one needs values of variables, aliases, paths that match a pattern and the output
of commands, and commands may change all of these. So evaluation is a tree of questions: whoever
runs it answers one, goes on with the branch for that answer, and may do anything in between.
-/

namespace JobShell

structure Captured where
  stdout : String
  stderr : String
  status : Int

/-- The text that stands for the command: its output without line feeds at the end. -/
def Captured.value (c : Captured) : String := Text.dropFinalNewlines c.stdout

inductive Expansion (α : Type) where
  | done (a : α)
  /-- The value of a variable or of the environment. -/
  | value (name : String) (next : Value → Expansion α)
  | aliasOf (name : String) (next : Option String → Expansion α)
  | paths (pattern : String) (next : List String → Expansion α)
  /-- The outcome of a pipeline. -/
  | capture (commands : List Command) (negated : Bool) (next : Except Fault Captured → Expansion α)

namespace Expansion

variable {α β : Type}

def bind (e : Expansion α) (f : α → Expansion β) : Expansion β :=
  match e with
  | .done a => f a
  | .value name next => .value name fun v => (next v).bind f
  | .aliasOf name next => .aliasOf name fun a => (next a).bind f
  | .paths pattern next => .paths pattern fun ps => (next ps).bind f
  | .capture commands negated next => .capture commands negated fun c => (next c).bind f

def map (f : α → β) (e : Expansion α) : Expansion β := e.bind fun a => .done (f a)

instance : Monad Expansion where
  pure := .done
  bind := bind

end Expansion

abbrev Evaluation := ExceptT Fault Expansion

namespace Evaluation

def value (name : String) : Evaluation Value := ExceptT.mk (.value name fun v => .done (.ok v))

def aliasOf (name : String) : Evaluation (Option String) :=
  ExceptT.mk (.aliasOf name fun a => .done (.ok a))

def paths (pattern : String) : Evaluation (List String) :=
  ExceptT.mk (.paths pattern fun ps => .done (.ok ps))

def capture (commands : List Command) (negated : Bool) : Evaluation Captured :=
  ExceptT.mk (.capture commands negated .done)

def malformed {α : Type} (m : Malformation) : Evaluation α := throw (.malformed m)

end Evaluation

end JobShell
