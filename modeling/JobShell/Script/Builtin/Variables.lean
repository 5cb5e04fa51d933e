import JobShell.Script.Builtin.Options

/-!
Commands that set and show variables, arguments, options and aliases.
-/

namespace JobShell.Script.Variables

open Act

/-! ### Variables -/

def sorted {α : Type} (xs : List (String × α)) : List (String × α) :=
  xs.mergeSort fun a b => !(b.1 < a.1)

def list (word : String) (chosen : Variable → Bool) : Act Nat := do
  for (name, v) in sorted (← get).bindings do
    if chosen v then say (word ++ name ++ v.value.elim "" ("=" ++ quoted ·) ++ "\n")
  return 0

def splitAssignment (text : String) : String × Option String :=
  match Text.splitFirst '=' text.toList with
  | some (name, value) => (String.ofList name, some (String.ofList value))
  | none => (text, none)

def mark (name : String) (change : Variable → Variable) : Act Unit := do
  if !isName name then fail s!"{name}: bad variable name"
  modify fun s => s.putVariable name (some (change (s.known name)))

def declare (word : String) (chosen : Variable → Bool) (change : Variable → Variable)
    (args : List String) : Act Nat := do
  let (found, names) ← options "p" args
  if !found.isEmpty || names.isEmpty then return ← list (word ++ " ") chosen
  for arg in names do
    let (name, value) := splitAssignment arg
    if let some value := value then setVariable name value
    mark name change
  return 0

def publish : List String → Act Nat := declare "export" (·.exported) ({ · with exported := true })

def readonly : List String → Act Nat :=
  declare "readonly" (·.readonly) ({ · with readonly := true })

def unset (args : List String) : Act Nat := do
  let (found, names) ← options "vf" args
  let functions := (found.getLast?.map (·.1)) = some 'f'
  for name in names do
    let s ← get
    if functions then set { s with functions := s.functions.filter (·.1 != name) }
    else if !isName name then fail s!"{name}: bad variable name"
    else if (s.known name).readonly then fail s!"{name}: is read only"
    else set (s.putVariable name none)
  return 0

def localize (args : List String) : Act Nat := do
  if (← get).scopes.isEmpty then fail "not in a function"
  for arg in args do
    let (name, value) := splitAssignment arg
    if name ≠ "-" then
      keepVariable name
      value.elim (mark name id) (setVariable name)
  return 0

/-! ### Options and arguments -/

def optionNames : List (String × Char) := [("errexit", 'e'), ("noglob", 'f'), ("ignoreeof", 'I'),
  ("interactive", 'i'), ("monitor", 'm'), ("noexec", 'n'), ("stdin", 's'), ("xtrace", 'x'),
  ("verbose", 'v'), ("vi", 'V'), ("emacs", 'E'), ("noclobber", 'C'), ("allexport", 'a'),
  ("notify", 'b'), ("nounset", 'u'), ("privileged", 'p'), ("nolog", 'L'), ("debug", 'D')]

def setChosen (letter : Option Char) (on : Bool) (shown : String) : Act Unit := do
  let some c := letter | fail s!"Illegal option -{shown}"
  if c = 'm' && on then warn "can't access tty; job control turned off" else setOption c on

def setLetter (c : Char) (on : Bool) : Act Unit :=
  let known := optionNames.any (·.2 == c) && c ≠ 'L' && c ≠ 'D'
  setChosen (if known then some c else none) on c.toString

def setNamed (name : String) (on : Bool) : Act Unit :=
  setChosen (optionNames.lookup name) on s!"o {name}"

def listOptions (asCommands : Bool) : Act Unit := do
  let s ← get
  unless asCommands do say "Current option settings\n"
  for (name, c) in optionNames do
    let on := s.options.contains c
    let padded := name ++ String.ofList (List.replicate (16 - name.length) ' ')
    say <| match asCommands, on with
      | true, true => s!"set -o {name}\n"
      | true, false => s!"set +o {name}\n"
      | false, true => padded ++ "on\n"
      | false, false => padded ++ "off\n"

def setLetters (on : Bool) (cs : Chars) (args : List String) : Act (List String) := do
  let mut args := args
  for c in cs do
    match c, args with
    | 'o', [] => listOptions (!on)
    | 'o', a :: rest =>
      setNamed a on
      args := rest
    | c, _ => setLetter c on
  return args

/-- Takes options, and says which arguments are left, if they are to replace the old ones. -/
def takeSettings (args : List String) : Act (Option (List String)) := do
  let mut rest := args
  for _ in args do
    match rest.map String.toList with
    | ['-'] :: _ =>
      setOption 'x' false
      setOption 'v' false
      return if rest.tail.isEmpty then none else some rest.tail
    | ['-', '-'] :: _ => return some rest.tail
    | ('-' :: cs) :: _ => rest ← setLetters true cs rest.tail
    | ('+' :: cs) :: _ => rest ← setLetters false cs rest.tail
    | [] => return none
    | _ => return some rest
  return none

def settings (args : List String) : Act Nat := do
  if args.isEmpty then return ← list "" (·.value.isSome)
  if let some args ← takeSettings args then modify ({ · with args, optionOffset := none })
  return 0

def shift (args : List String) : Act Nat := do
  let n ← args.head?.elim (pure 1) number
  if (← get).args.length < n then fail "can't shift that many"
  modify fun s => { s with args := s.args.drop n, optionOffset := none }
  return 0

/-! ### Options of scripts -/

/-- What was found among a script's options. -/
structure Found where
  letter : Char
  value : Option String := none
  complaint : Option String := none
  /-- The number of the next argument, and how far it was taken. -/
  index : Nat
  offset : Option Nat := none
  done : Bool := false

def nextOption (letters : Chars) (args : List String) (index : Nat) (offset : Option Nat) :
    Found :=
  let argument (n : Nat) : Chars := ((args[n]?).getD "").toList
  let rest : Chars :=
    if index ≤ 1 then [] else offset.elim [] fun n => (argument (index - 2)).drop n
  let finished : Found := { letter := '?', index, done := true }
  let entered : Chars × Nat :=
    match rest, argument (index - 1) with
    | [], '-' :: cs => (cs, index + 1)
    | rest, _ => (rest, index)
  match entered with
  | ([], _) => finished
  | (['-'], index) =>
    if rest.isEmpty then { finished with index }
    else { letter := '?', complaint := some "Illegal option --", index }
  | (c :: cs, index) =>
    let silent := letters.head? = some ':'
    let offset : Option Nat := some ((argument (index - 2)).length - cs.length)
    let refused (letter : Char) (complaint : String) (offset : Option Nat) : Found :=
      if silent then { letter, value := some c.toString, index, offset }
      else { letter := '?', complaint := some complaint, index, offset }
    match letters.dropWhile (· ≠ c), args[index - 1]? with
    | [], _ => refused '?' ("Illegal option -" ++ c.toString) offset
    | _ :: ':' :: _, a =>
      if !cs.isEmpty then { letter := c, value := some (String.ofList cs), index }
      else if a.isSome then { letter := c, value := a, index := index + 1 }
      else refused ':' ("No arg for -" ++ c.toString ++ " option") none
    | _, _ => { letter := c, value := some "", index, offset }

def getopts (args : List String) : Act Nat := do
  let letters :: name :: more := args | fail "Usage: getopts optstring var [arg...]"
  let s ← get
  let args := if more.isEmpty then s.args else more
  let index := max 1 (((s.valueOf? "OPTIND").bind decimal?).getD 1).toNat
  let f :=
    if args.length + 1 < index then nextOption letters.toList args 1 none
    else nextOption letters.toList args index s.optionOffset
  if let some c := f.complaint then
    writeTo 2 (c ++ "\n")
    modify (·.putVariable "OPTARG" none)
  if let some v := f.value then setVariable "OPTARG" v
  setVariable "OPTIND" (toString f.index)
  setVariable name f.letter.toString
  modify ({ · with optionOffset := f.offset })
  return if f.done then 1 else 0

/-! ### Reading lines -/

/-- A character of a line, and whether a backslash stood before it. -/
abbrev Mark := Char × Bool

def readLine (raw : Bool) : Act (List Mark × Bool) := do
  let mut acc := []
  let mut escaped := false
  for _ in [:Program.patience] do
    let .ok (b :: _) ← ask (Action.read 0 1) | return (acc.reverse, false)
    let c := Text.octet b
    if c = '\x00' then continue
    if c = '\n' && !escaped then return (acc.reverse, true)
    let starts := c = '\\' && !raw && !escaped
    unless starts || c = '\n' do acc := (c, escaped) :: acc
    escaped := starts
  return (acc.reverse, false)

def isBlank (separators : Chars) (m : Mark) : Bool :=
  !m.2 && separators.contains m.1 && (m.1 == ' ' || m.1 == '\t' || m.1 == '\n')

def isSeparator (separators : Chars) (m : Mark) : Bool := !m.2 && separators.contains m.1

def takeField (separators : Chars) (ms : List Mark) : List Mark × List Mark :=
  let field := ms.takeWhile (!isSeparator separators ·)
  let after := (ms.drop field.length).dropWhile (isBlank separators)
  (field, if after.head?.any (isSeparator separators) then after.tail.dropWhile (isBlank separators)
    else after)

/-- Where what is left for the last name may end, after a separator at `cut`. Something else than
blanks, and a separator unless blanks before it ended a field, moves the end on; escaped characters
do not. -/
def lastEnd (separators : Chars) (blank : Bool) (cut : Option Nat) (i : Nat) :
    List Mark → Option Nat
  | [] => cut
  | m :: ms =>
    if m.2 then lastEnd separators false cut (i + 1) ms
    else if isBlank separators m then lastEnd separators blank (cut <|> some i) (i + 1) ms
    else
      let cut := if isSeparator separators m && blank then cut else none
      lastEnd separators false cut (i + 1) ms

/-- What is left for the last name: without the blanks at its end, and without the divider if there
is one field only. -/
def lastField (separators : Chars) (ms : List Mark) : List Mark :=
  let i := (ms.takeWhile (!isSeparator separators ·)).length
  let stop := ms[i]?.bind fun m =>
    lastEnd separators (isBlank separators m) (some i) (i + 1) (ms.drop (i + 1))
  stop.elim ms ms.take

def fieldsOf (separators : Chars) : Nat → List Mark → List (List Mark)
  | 0, _ => []
  | 1, ms => [lastField separators ms]
  | n + 1, ms => let (f, rest) := takeField separators ms; f :: fieldsOf separators n rest

def read (args : List String) : Act Nat := do
  let (found, names) ← options "p:r" args
  if names.isEmpty then fail "arg count"
  let (ms, complete) ← readLine (found.any (·.1 == 'r'))
  let separators := (← get).separators
  let fields := fieldsOf separators names.length (ms.dropWhile (isBlank separators))
  for (name, f) in names.zip fields do setVariable name (String.ofList (f.map (·.1)))
  return if complete then 0 else 1

/-! ### Aliases -/

def shownAlias (name value : String) : String := name ++ "=" ++ quoted value ++ "\n"

def aliases (args : List String) : Act Nat := do
  if args.isEmpty then
    for (n, v) in sorted (← get).aliases do say (shownAlias n v)
  let mut code := 0
  for arg in args do
    let s ← get
    let (name, value) := splitAssignment arg
    match value, s.aliases.lookup name with
    | some value, _ => set { s with aliases := (name, value) :: s.aliases.filter (·.1 != name) }
    | none, some v => say (shownAlias name v)
    | none, none =>
      writeTo 2 s!"alias: {name} not found\n"
      code := 1
  return code

def unalias (args : List String) : Act Nat := do
  let (found, names) ← options "a" args
  if !found.isEmpty then
    modify ({ · with aliases := [] })
    return 0
  let mut code := 0
  for name in names do
    let s ← get
    if (s.aliases.lookup name).isNone then
      writeTo 2 s!"unalias: {name} not found\n"
      code := 1
    set { s with aliases := s.aliases.filter (·.1 != name) }
  return code

end JobShell.Script.Variables
