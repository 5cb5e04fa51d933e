import JobShell.Tree.Basic

/-!
Short forms for writing command trees by hand.
-/

namespace JobShell.Tree

namespace Word

def literal (s : String) : Word := ⟨[.literal s]⟩

def param (name : String) : Word := ⟨[.param name]⟩

def glob (raw : String) : Word := ⟨[.glob raw]⟩

def output (body : List Item) : Word := ⟨[.output body]⟩

def push (w : Word) (p : Part) : Word := ⟨w.parts ++ [p]⟩

end Word

instance : Coe String Word := ⟨Word.literal⟩

namespace Simple

def named (name : Word) : Simple := ⟨[], some name, [], []⟩

def assignment (words : List Word) : Simple := ⟨words, none, [], []⟩

def arg (c : Simple) (w : Word) : Simple := { c with args := c.args ++ [w] }

def withArgs (c : Simple) (ws : List Word) : Simple := { c with args := c.args ++ ws }

def assign (c : Simple) (w : Word) : Simple := { c with assignments := c.assignments ++ [w] }

def redirect (c : Simple) (op : RedirectOp) (fd : Option Int) (target : Word) : Simple :=
  { c with redirects := c.redirects ++ [⟨op, fd, target⟩] }

end Simple

instance : Coe Simple Node := ⟨Node.command⟩

namespace Node

def both (left right : Node) : Node := .logical .and left right

def either (left right : Node) : Node := .logical .or left right

def piped (commands : List Simple) : Node := .pipeline commands false

def inverted (commands : List Simple) : Node := .pipeline commands true

end Node

namespace Item

def foreground (node : Node) : Item := ⟨node, false⟩

def inBackground (node : Node) : Item := ⟨node, true⟩

end Item

instance : Coe Node Item := ⟨Item.foreground⟩

end JobShell.Tree
