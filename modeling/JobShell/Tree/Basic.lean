/-!
Command trees: what a shell runs, after its text has been parsed.

A script is a list of items. An item is a node, optionally sent to the background. Words are kept
unevaluated, as the parts they are put together from when their turn comes.
-/

namespace JobShell.Tree

inductive Connective where
  | and
  | or
  deriving DecidableEq

/-- Whether the right side runs after the left side had a status. -/
def Connective.goesOn (status : Int) : Connective → Bool
  | .and => status == 0
  | .or => status != 0

inductive RedirectOp where
  | input
  | output
  | append
  | dupOutput
  | dupInput
  deriving DecidableEq

mutual

structure Word where
  parts : List Part

/-- A piece of a word: literal text, the value of a parameter, the output of a command, or
characters with the meaning they have in a file name pattern. -/
inductive Part where
  | literal (text : String)
  | param (name : String)
  | output (body : List Item)
  | glob (raw : String)

structure Item where
  node : Node
  background : Bool

inductive Node where
  | command (command : Simple)
  | pipeline (commands : List Simple) (negated : Bool)
  | logical (op : Connective) (left right : Node)
  | conditional (condition : List Item) (onSuccess onFailure : Option (List Item))
  | loop (name : String) (words : List Word) (body : List Item)
  | choice (subject : Word) (arms : List Arm)
  | subshell (body : List Item)

/-- A simple command: assignment words, the name unless there are only assignments, argument
words and redirections. -/
structure Simple where
  assignments : List Word
  name : Option Word
  args : List Word
  redirects : List Redirect

structure Redirect where
  op : RedirectOp
  fd : Option Int
  target : Word

structure Arm where
  patterns : List Word
  body : List Item

end

structure Script where
  items : List Item

instance : Inhabited Word := ⟨⟨[]⟩⟩

instance : Inhabited Simple := ⟨⟨[], none, [], []⟩⟩

instance : Inhabited Node := ⟨.command default⟩

namespace RedirectOp

def symbol : RedirectOp → String
  | .input => "<"
  | .output => ">"
  | .append => ">>"
  | .dupOutput => ">&"
  | .dupInput => "<&"

/-- The descriptor an operator applies to when none is written. -/
def defaultFd : RedirectOp → Int
  | .input | .dupInput => 0
  | _ => 1

def ofSymbol? : String → Option RedirectOp
  | "<" => some .input
  | ">" => some .output
  | ">>" => some .append
  | ">&" => some .dupOutput
  | "<&" => some .dupInput
  | _ => none

end RedirectOp

def Part.isGlob : Part → Bool
  | .glob _ => true
  | _ => false

def Part.literal? : Part → Option String
  | .literal s => some s
  | _ => none

namespace Word

def hasGlob (w : Word) : Bool := w.parts.any Part.isGlob

def literal? (w : Word) : Option String := (w.parts.mapM Part.literal?).map String.join

end Word

end JobShell.Tree
