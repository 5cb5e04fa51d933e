import JobShell.Script.Grammar
import JobShell.Text.Numeral

/-!
Tokens of scripts, and the text that they are taken from.

A script may come in pieces. What is there is read as far as it goes; if a command is not complete
and more may follow, reading starts again with more text.
-/

namespace JobShell.Script

/-- The kinds of redirections as they are written. -/
inductive Arrow where
  | file (how : Opening)
  | copy
  | document (stripTabs : Bool)
  deriving DecidableEq

inductive Token where
  | eof | newline | semicolon | ampersand | both | either | pipe | opening | closing | clauseEnd
  | redirect (fd : Nat) (arrow : Arrow)
  | word (w : Word) (quoted : Bool)
  | keyword (k : String)

namespace Token

def shown : Token → String
  | .eof => "end of file"
  | .newline => "newline"
  | .semicolon => "\";\""
  | .ampersand => "\"&\""
  | .both => "\"&&\""
  | .either => "\"||\""
  | .pipe => "\"|\""
  | .opening => "\"(\""
  | .closing => "\")\""
  | .clauseEnd => "\";;\""
  | .redirect .. => "redirection"
  | .word .. => "word"
  | .keyword k => "\"" ++ k ++ "\""

/-- Whether two tokens are the same, apart from words and redirections. -/
def is : Token → Token → Bool
  | .redirect .., _ | .word .., _ => false
  | t, u => t.shown == u.shown

def endsList : Token → Bool
  | .eof | .closing | .clauseEnd => true
  | .keyword k => ["do", "done", "elif", "else", "esac", "fi", "then", "\x7d"].contains k
  | _ => false

end Token

/-- What the next token is looked at for. -/
structure Check where
  newlines : Bool := false
  keywords : Bool := false
  aliases : Bool := false
  /-- The word ends a text, and nothing in it is replaced. -/
  delimiter : Bool := false

def Check.command : Check := { keywords := true, aliases := true }

def Check.body : Check := { newlines := true, keywords := true, aliases := true }

/-- The text of an alias that is being read. -/
structure Pushed where
  text : Chars
  name : String
  /-- It ends in a blank, so that the next word may be an alias too. -/
  blank : Bool

/-- A text of the script that is still to be read. -/
structure PendingDocument where
  id : Nat
  delimiter : Chars
  stripTabs : Bool
  literal : Bool

inductive ReadError where
  /-- The text ends too early. -/
  | more
  | mistake (line : Nat) (message : String)

structure Reader where
  text : Chars
  /-- Nothing follows the text. -/
  complete : Bool := true
  /-- It is what the shell was started for, not a part of that. -/
  isScript : Bool := false
  line : Nat := 1
  pushed : List Pushed := []
  /-- A token that was read and not used. -/
  back : Option Token := none
  /-- The last word that was read. -/
  recent : Word := []
  check : Check := {}
  aliases : List (String × String) := []
  pending : List PendingDocument := []
  documents : List (Nat × Word) := []
  nextDocument : Nat := 0

abbrev Read := StateT Reader (Except ReadError)

namespace Read

def fail {α : Type} (message : String) : Read α := do
  throw (.mistake (← get).line message)

def nextLine : Read Unit := modify fun r => { r with line := r.line + 1 }

def expect (check : Check) : Read Unit := modify ({ · with check })

def pushBack (t : Token) : Read Unit := modify ({ · with back := some t })

def dropSpent : List Pushed → List Pushed × Bool
  | [] => ([], false)
  | p :: ps =>
    if p.text.isEmpty then
      let (ps, blank) := dropSpent ps
      (ps, blank || p.blank)
    else (p :: ps, false)

def char : Read (Option Char) := do
  let r ← get
  let (pushed, blank) := dropSpent r.pushed
  let check := if blank then { r.check with aliases := true } else r.check
  match pushed with
  | p :: ps =>
    match p.text with
    | c :: cs =>
      set { r with pushed := { p with text := cs } :: ps, check }
      return some c
    | [] => return none
  | [] =>
    match r.text with
    | c :: cs =>
      set { r with text := cs, pushed := [], check }
      return some c
    | [] =>
      if r.complete then
        set { r with pushed := [], check }
        return none
      else throw .more

def unread : Option Char → Read Unit
  | none => return
  | some c => modify fun r =>
    match r.pushed with
    | p :: ps => { r with pushed := { p with text := c :: p.text } :: ps }
    | [] => { r with text := c :: r.text }

def ample : Nat := 1 <<< 40

def next : Read (Option Char) := do
  for _ in [:ample] do
    let c ← char
    if c ≠ some '\\' then return c
    let d ← char
    if d ≠ some '\n' then
      unread d
      return c
    nextLine
  throw .more

/-- Takes a character if it is the next one. -/
def accept (c : Char) : Read Bool := do
  let d ← next
  if d ≠ some c then unread d
  return d = some c

def comment : Read Unit := do
  for _ in [:ample] do
    match ← char with
    | some '\n' => return ← unread (some '\n')
    | none => return
    | some _ => pure ()
  throw .more

def single (start : List Part) : Read (List Part) := do
  let mut acc := start
  for _ in [:ample] do
    match ← char with
    | none => fail "Unterminated quoted string"
    | some '\'' => return acc
    | some c =>
      if c = '\n' then nextLine
      acc := .char c true :: acc
  throw .more

def run (p : Char → Bool) : Read Chars := do
  let mut acc := []
  for _ in [:ample] do
    match ← next with
    | some c =>
      if p c then acc := c :: acc
      else
        unread (some c)
        return acc.reverse
    | none => return acc.reverse
  throw .more

def isDoubleSpecial (c : Char) : Bool := c == '\\' || c == '\x60' || c == '$'

def backquoted (double : Bool) : Read Chars := do
  let mut acc := []
  for _ in [:ample] do
    match ← next with
    | none => fail "EOF in backquote substitution"
    | some '\x60' => return acc.reverse
    | some '\\' =>
      let c ← char
      let taken := c.any fun c => isDoubleSpecial c || (double && c == '"')
      acc := c.toList ++ if taken then acc else '\\' :: acc
    | some c =>
      if c = '\n' then nextLine
      acc := c :: acc
  throw .more

/-- The arrow of a redirection after its first character, and the descriptor it is for by itself. -/
def arrow (output : Bool) : Read (Nat × Arrow) := do
  match output, ← next with
  | true, some '>' => return (1, .file .append)
  | true, some '|' => return (1, .file .clobber)
  | true, some '&' => return (1, .copy)
  | false, some '<' => return (0, .document (← accept '-'))
  | false, some '&' => return (0, .copy)
  | false, some '>' => return (0, .file .update)
  | _, c =>
    unread c
    return if output then (1, .file .output) else (0, .file .input)

def takeDelimiter (d : PendingDocument) : Read Bool := do
  let r ← get
  let text := if d.stripTabs then r.text.dropWhile (· == '\t') else r.text
  let line := text.takeWhile (· ≠ '\n')
  let rest := text.drop line.length
  if rest.isEmpty && !r.complete then throw .more
  else if line = d.delimiter then
    set { r with text := rest.drop 1, line := r.line + 1 }
    return true
  else
    set { r with text }
    return false

def line : Read Chars := do
  let r ← get
  let line := r.text.takeWhile (· ≠ '\n')
  match r.text.drop line.length with
  | c :: rest =>
    set { r with text := rest, line := r.line + 1 }
    return line ++ [c]
  | [] =>
    set { r with text := [] }
    return line

end Read

end JobShell.Script
