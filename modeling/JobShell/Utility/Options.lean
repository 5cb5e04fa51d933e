import JobShell.Text.Octet
import JobShell.Text.Blank

/-!
Options on the command lines of programs.

Single letters follow one dash and may be run together, words follow two. Options and operands stand
in any order up to a `--`.
-/

namespace JobShell.Options

/-- Whether an option takes an argument. -/
inductive Arity where
  | none
  | required
  | optional
  deriving DecidableEq, Repr

/-- The options of a program. Words stand for letters. Options of a strict program come before its
operands. -/
structure Spec where
  letters : List (Char × Arity)
  words : List (String × Char × Arity) := []
  strict : Bool := false

/-- What was given: options with their arguments, and operands. Nothing after a mistake counts. -/
structure Given where
  options : List (Char × String) := []
  operands : List String := []
  mistake : Option String := none

namespace Given

def has (g : Given) (c : Char) : Bool := g.options.any (·.1 == c)

def addOption (g : Given) (c : Char) (arg : String) : Given :=
  { g with options := g.options ++ [(c, arg)] }

def addOperand (g : Given) (arg : String) : Given := { g with operands := g.operands ++ [arg] }

def stop (g : Given) (mistake : String) : Given := { g with mistake := some mistake }

end Given

/-- An option that still needs its argument: the letter, and how it is written. -/
structure Owed where
  letter : Char
  word : Option String := none

def Owed.complaint (o : Owed) : String :=
  match o.word with
  | some w => s!"option '--{w}' requires an argument"
  | none => "option requires an argument -- '" ++ o.letter.toString ++ "'"

def readLetters (spec : Spec) (g : Given) : Chars → Given × Option Owed
  | [] => (g, none)
  | c :: cs =>
    match spec.letters.lookup c with
    | none => (g.stop ("invalid option -- '" ++ c.toString ++ "'"), none)
    | some .none => readLetters spec (g.addOption c "") cs
    | some .required =>
      if cs.isEmpty then (g, some ⟨c, none⟩) else (g.addOption c (String.ofList cs), none)
    | some .optional => (g.addOption c (String.ofList cs), none)

def findWord (spec : Spec) (name : Chars) : Except String (String × Char × Arity) :=
  let shown := String.ofList name
  let matching := spec.words.filter fun (w, _) => name.isPrefixOf w.toList
  match spec.words.find? (·.1 == shown), matching with
  | some w, _ => .ok w
  | none, [] => .error s!"unrecognized option '--{shown}'"
  | none, w :: ws =>
    if ws.all (·.2 == w.2) then .ok w
    else
      .error (s!"option '--{shown}' is ambiguous; possibilities:" ++
        String.join (matching.map fun (w, _) => s!" '--{w}'"))

def readWord (spec : Spec) (g : Given) (text : Chars) : Given × Option Owed :=
  let (name, arg) : Chars × Option Chars :=
    match Text.splitFirst '=' text with
    | some (n, a) => (n, some a)
    | none => (text, none)
  match findWord spec name with
  | .error e => (g.stop e, none)
  | .ok (w, c, arity) =>
    match arity, arg with
    | .none, some _ => (g.stop s!"option '--{w}' doesn't allow an argument", none)
    | .none, none => (g.addOption c "", none)
    | .required, none => (g, some ⟨c, some w⟩)
    | _, arg => (g.addOption c (String.ofList (arg.getD [])), none)

def read (spec : Spec) (g : Given) (owed : Option Owed) : List String → Given
  | [] => owed.elim g fun o => g.stop o.complaint
  | arg :: args =>
    match owed with
    | some o => read spec (g.addOption o.letter arg) none args
    | none =>
      match arg.toList with
      | ['-', '-'] => { g with operands := g.operands ++ args }
      | '-' :: '-' :: text =>
        let (g, owed) := readWord spec g text
        if g.mistake.isSome then g else read spec g owed args
      | '-' :: c :: cs =>
        let (g, owed) := readLetters spec g (c :: cs)
        if g.mistake.isSome then g else read spec g owed args
      | _ =>
        if spec.strict then { g with operands := g.operands ++ arg :: args }
        else read spec (g.addOperand arg) none args

def parse (spec : Spec) (args : List String) : Given := read spec {} none args

end JobShell.Options
