import JobShell.Text.Utf8

/-!
Shell scripts as trees: commands, the words they are made of, and their redirections.

Texts are octets. A word is a row of characters, each quoted or not, with the things among them that
are replaced when the word is expanded.
-/

namespace JobShell.Script

/-- What is made of a parameter's value. Some operators also apply to a value that is empty. -/
inductive Operator where
  | value
  | length
  /-- Stands for a word if there is no value. -/
  | otherwise (orEmpty : Bool)
  | assign (orEmpty : Bool)
  | demand (orEmpty : Bool)
  /-- Stands for a word if there is a value. -/
  | instead (orEmpty : Bool)
  | trim (atEnd longest : Bool)
  /-- Makes no sense, which is found out when it is reached. -/
  | senseless
  deriving DecidableEq

/-- How a redirection opens a file. -/
inductive Opening where
  | input
  | output
  /-- Overwrites a file even if files are protected. -/
  | clobber
  | append
  | update
  deriving DecidableEq

mutual

inductive Part where
  | char (c : Char) (quoted : Bool)
  /-- A quotation mark, which makes a word of nothing at all. -/
  | mark
  | parameter (name : String) (op : Operator) (quoted : Bool) (operand : List Part)
  | output (command : Option Node) (quoted : Bool)
  | arithmetic (text : List Part) (quoted : Bool)

inductive Redirect where
  | file (fd : Nat) (how : Opening) (name : List Part)
  /-- Copies a descriptor, or closes one. -/
  | copy (fd : Nat) (source : Option Nat)
  | copyNamed (fd : Nat) (name : List Part)
  /-- Reads a text of the script, by its number. -/
  | document (fd id : Nat)

inductive Clause where
  | mk (patterns : List (List Part)) (body : Option Node)

inductive Node where
  | simple (line : Nat) (assignments words : List (List Part)) (redirects : List Redirect)
  | pipeline (commands : List Node) (background : Bool)
  | redirected (line : Nat) (body : Option Node) (redirects : List Redirect)
  | background (line : Nat) (body : Option Node) (redirects : List Redirect)
  | subshell (line : Nat) (body : Option Node) (redirects : List Redirect)
  | both (first second : Node)
  | either (first second : Node)
  | sequence (first second : Node)
  | negation (body : Node)
  | choice (test yes no : Option Node)
  | loop (whileTrue : Bool) (test body : Option Node)
  | iteration (line : Nat) (name : String) (words : List (List Part)) (body : Option Node)
  | selection (line : Nat) (word : List Part) (clauses : List Clause)
  | definition (line : Nat) (name : String) (body : Node)

end

abbrev Word := List Part

/-- A piece of a script, which may hold no command at all. -/
abbrev Body := Option Node

/-! ### Names -/

def isNameStart (c : Char) : Bool := c.isAlpha || c == '_'

def isNameChar (c : Char) : Bool := c.isAlphanum || c == '_'

def isSpecialParameter (c : Char) : Bool := c.isDigit || "!#$*-?@".toList.contains c

def isName (s : String) : Bool :=
  match s.toList with
  | [] => false
  | c :: cs => isNameStart c && cs.all isNameChar

def keywords : List String := ["!", "case", "do", "done", "elif", "else", "esac", "fi", "for", "if",
  "in", "then", "until", "while", "\x7b", "\x7d"]

def specialCommands : List String := [
  ".", ":", "break", "continue", "eval", "exec", "exit", "export", "readonly", "return", "set",
  "shift", "times", "trap", "unset"]

namespace Word

def plain? (w : Word) : Option String :=
  (w.mapM fun (p : Part) =>
    match p with
    | .char c false => some c
    | _ => none).map String.ofList

def characters (w : Word) : Chars :=
  w.filterMap fun (p : Part) =>
    match p with
    | .char c _ => some c
    | _ => none

def assignment? (w : Word) : Option (String × Word) :=
  let isNamePart (p : Part) : Bool :=
    match p with
    | .char c false => isNameChar c
    | _ => false
  let name := w.takeWhile isNamePart
  match w.drop name.length, (plain? name).filter isName with
  | .char '=' false :: rest, some n => some (n, rest)
  | _, _ => none

end Word

end JobShell.Script
