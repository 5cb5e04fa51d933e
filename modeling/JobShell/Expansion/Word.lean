import JobShell.Expansion.Basic
import JobShell.Pattern
import JobShell.Scope
import JobShell.Text.Blank

/-!
From command trees to commands.

Words are evaluated from left to right. Assignments come first, in a frame of their own, and each
one is seen by all that follows.
-/

namespace JobShell

open JobShell.Tree Evaluation

/-- A parameter is looked up in the scope, then among variables, then in the environment. -/
def Scope.resolve (scope : Scope) (name : String) : Evaluation Value :=
  match scope.lookup? name with
  | some v => pure v
  | none => Evaluation.value name

/-- Names of variables: letters, digits and underscores, no digit first; all of them ASCII. -/
def isName (name : Chars) : Bool :=
  match name with
  | [] => false
  | c :: cs => (c.isAlpha || c == '_') && cs.all fun c => c.isAlphanum || c == '_'

def splitAssignment (word : String) : Except Malformation (String × String) :=
  match Text.splitFirst '=' word.toList with
  | none => .error (.notAssignment word)
  | some (name, value) =>
    if isName name then .ok (String.ofList name, String.ofList value)
    else .error (.invalidName (String.ofList name))

/-- The command an alias stands for, or the name itself. -/
def expandAlias (name : String) (target : Option String) : String × List Argument :=
  match target.map Text.words with
  | some (first :: rest) => (first, rest.map .text)
  | _ => (name, [])

mutual

/-- The text of a word; wildcards stand for themselves. -/
def Tree.Word.text (scope : Scope) : Word → Evaluation String
  | ⟨parts⟩ => partsText scope parts

def partsText (scope : Scope) : List Part → Evaluation String
  | [] => pure ""
  | p :: ps => do
    let s ← p.text scope
    return s ++ (← partsText scope ps)

def Tree.Part.text (scope : Scope) : Part → Evaluation String
  | .literal s => pure s
  | .glob raw => pure raw
  | .param name => do return (← scope.resolve name).render
  | .output body => do return (← bodyOutput scope body).value

/-- The pattern of a word: only its wildcard parts are special. -/
def Tree.Word.pattern (scope : Scope) : Word → Evaluation String
  | ⟨parts⟩ => partsPattern scope parts

def partsPattern (scope : Scope) : List Part → Evaluation String
  | [] => pure ""
  | p :: ps => do
    let s ← p.pattern scope
    return s ++ (← partsPattern scope ps)

def Tree.Part.pattern (scope : Scope) : Part → Evaluation String
  | .literal s => pure (Pattern.escape s)
  | .glob raw => pure raw
  | .param name => do return Pattern.escape (← scope.resolve name).render
  | .output body => do return Pattern.escape (← bodyOutput scope body).value

/-- Runs the body of a substitution, which is one command or one pipeline. -/
def bodyOutput (scope : Scope) : List Item → Evaluation Captured
  | [⟨.command c, _⟩] => do capture [← c.command scope] false
  | [⟨.pipeline cs negated, _⟩] => do capture (← commands scope cs) negated
  | [_] => malformed .bodyKind
  | items => malformed (.bodyLength items.length)

/-- Evaluates assignment words in the innermost frame. -/
def assignments (scope : Scope) : List Word → Evaluation Scope
  | [] => pure scope
  | w :: ws => do
    let text ← w.text scope
    match splitAssignment text with
    | .ok (name, value) => assignments (scope.set name (Value.coerce value)) ws
    | .error m => malformed m

def arguments (scope : Scope) : List Word → Evaluation (List Argument)
  | [] => pure []
  | w :: ws => do
    let a ←
      if w.hasGlob then do pure (.pattern (← w.pattern scope))
      else do pure (.text (← w.text scope))
    return a :: (← arguments scope ws)

def redirections (scope : Scope) : List Redirect → Evaluation (List Redirection)
  | [] => pure []
  | ⟨op, fd, target⟩ :: rs => do
    let text ← target.text scope
    if text.isEmpty then malformed (.noTarget op)
    else return .ofText op (fd.getD op.defaultFd) text :: (← redirections scope rs)

def Tree.Simple.command (scope : Scope) : Simple → Evaluation Command
  | ⟨assigned, name, args, redirects⟩ => do
    let scope ← assignments (scope.push []) assigned
    match name with
    | none => return { assignments := scope.top?.getD [] }
    | some name =>
      let name ← name.text scope
      let (name, first) := expandAlias name (← aliasOf name)
      if name.isEmpty then malformed .emptyName
      else
        let args ← arguments scope args
        let redirections ← redirections scope redirects
        return { name, args := first ++ args, redirections, assignments := scope.flatten }

def commands (scope : Scope) : List Simple → Evaluation (List Command)
  | [] => pure []
  | c :: cs => do
    let c ← c.command scope
    return c :: (← commands scope cs)

end

/-! ### Loops and choices -/

def fieldsOf (separators text : String) : List Value :=
  (Text.fields separators.toList.contains text.toList).map fun f => .text (String.ofList f)

/-- The items of a value: those of a list, the fields of a text, or the value itself. -/
def Value.items (separators : String) : Value → List Value
  | .list vs => vs
  | .text s => fieldsOf separators s
  | v => [v]

/-- The paths of a pattern, or the fields of a text. -/
def textItems (scope : Scope) (separators : String) (w : Word) : Evaluation (List Value) :=
  if w.hasGlob then do
    let pattern ← w.pattern scope
    match ← paths pattern with
    | [] => return [.text pattern]
    | ps => return ps.map .text
  else do return fieldsOf separators (← w.text scope)

/-- What a word of a loop stands for. A parameter that stands alone stands for the items of its
value. -/
def wordItems (scope : Scope) (separators : String) (w : Word) : Evaluation (List Value) :=
  match w.parts with
  | [.param name] => do return (← scope.resolve name).items separators
  | _ => textItems scope separators w

def loopItems (scope : Scope) (separators : String) : List Word → Evaluation (List Value)
  | [] => pure []
  | w :: ws => do
    let vs ← wordItems scope separators w
    return vs ++ (← loopItems scope separators ws)

/-- Whether one of the patterns matches; the rest are not evaluated. -/
def anyMatches (scope : Scope) (subject : String) : List Word → Evaluation Bool
  | [] => pure false
  | w :: ws => do
    if Pattern.matchesText (← w.pattern scope) subject then return true
    else anyMatches scope subject ws

def selectArm (scope : Scope) (subject : String) : List Arm → Evaluation (Option (List Item))
  | [] => pure none
  | ⟨patterns, body⟩ :: arms => do
    if ← anyMatches scope subject patterns then return some body
    else selectArm scope subject arms

def chooseArm (scope : Scope) (subject : Word) (arms : List Arm) :
    Evaluation (Option (List Item)) := do
  selectArm scope (← subject.text scope) arms

end JobShell
