import JobShell.Script.Arithmetic
import JobShell.Script.Match
import JobShell.Script.Shell

/-!
Expanding words: parameters, the output of commands and arithmetic are put in, the result is split
into fields, and fields that are patterns become the names of files.
-/

namespace JobShell.Script

/-- A piece of an expanded word. -/
inductive Cell where
  /-- A character; one that was put in without quotes may divide fields. -/
  | char (c : Char) (quoted divides : Bool)
  | mark
  /-- Between two arguments. A soft one is like a blank. -/
  | gap (soft : Bool)
  /-- Where something that was put in starts or ends. -/
  | edge

namespace Cell

def glyphs (cells : List Cell) : List Glyph :=
  cells.filterMap fun c =>
    match c with
    | .char c quoted _ => some ⟨c, quoted⟩
    | _ => none

def characters (cells : List Cell) : Chars := (glyphs cells).map (·.char)

end Cell

/-! ### Fields -/

/-- Fields while they are divided: those that are complete and the one that is read, the last ones
first. After the end of a field the blanks that belong to it are skipped, and one divider more if it
ended with a blank. -/
structure Division where
  complete : List (List Cell) := []
  current : List Cell := []
  skipping : Option Bool := none

namespace Division

def add (d : Division) (c : Cell) : Division :=
  { d with current := c :: d.current, skipping := none }

def finish (d : Division) (skipping : Option Bool) : Division :=
  { complete := d.current.reverse :: d.complete, current := [], skipping }

def divide (d : Division) (blank : Bool) : Division :=
  match d.skipping, blank with
  | some _, true => d
  | some true, false => { d with skipping := some false }
  | _, true => if d.current.isEmpty then d else d.finish (some true)
  | _, false => d.finish (some false)

def step (separators : Chars) (d : Division) (c : Cell) : Division :=
  match c with
  | .edge => { d with skipping := none }
  | .gap true => d.divide true
  | .gap false => d.finish none
  | .mark => d.add c
  | .char x _ divides =>
    if divides && separators.contains x then d.divide (x == ' ' || x == '\t' || x == '\n')
    else d.add c

end Division

def divideFields (separators : Chars) (cells : List Cell) : List (List Cell) :=
  let d := cells.foldl (Division.step separators) {}
  (if d.current.isEmpty then d.complete else d.current.reverse :: d.complete).reverse

/-! ### Parameters -/

/-- What a parameter stands for. -/
inductive Content where
  | text (s : Chars)
  | arguments (xs : List String)

namespace Shell

def optionLetters : Chars := "pubaCEVvxsnmiIfe".toList

def content? (s : Shell) (name : String) : Option Content :=
  let text (t : String) : Option Content := some (.text t.toList)
  match name with
  | "@" | "*" => some (.arguments s.args)
  | "$" => text (toString s.pid)
  | "?" => text (toString s.status)
  | "#" => text (toString s.args.length)
  | "!" => s.background.bind fun pid => text (toString pid)
  | "-" => text (String.ofList (optionLetters.filter s.options.contains))
  | "0" => text s.name
  | name =>
    match Text.digits? name.toList with
    | some n => (s.args[n - 1]?).bind text
    | none => (s.valueOf? name).bind text

def joint (s : Shell) : Chars :=
  ((s.valueOf? "IFS").getD " ").toList.take 1

def textOf (s : Shell) : Content → Chars
  | .text t => t
  | .arguments xs => (xs.map String.toList).intersperse s.joint |>.flatten

/-- The home directory of a user; nothing else is known of users than where the first one lives. -/
def home? (s : Shell) (user : Chars) : Option String :=
  if user.isEmpty then s.valueOf? "HOME"
  else if user = "root".toList then some "/root"
  else none

end Shell

/-- How a word is expanded. -/
structure Mode where
  /-- It becomes fields. -/
  fields : Bool := false
  /-- Its plain characters divide fields as well, as in a word that stands for a value. -/
  divides : Bool := false
  /-- A tilde may follow a colon. -/
  colons : Bool := false

def Mode.put (q : Bool) (cs : Chars) : List Cell :=
  if q then cs.map (.char · true false) else .edge :: cs.map (.char · false true) ++ [.edge]

def Mode.separates (m : Mode) (name : String) (q : Bool) : Bool := m.fields && (!q || name = "@")

def Mode.lengthOf (m : Mode) (s : Shell) (name : String) (q : Bool) (v : Content) : Nat :=
  match v with
  | .text t => t.length
  | .arguments xs =>
    if m.separates name q then xs.foldl (· + ·.length) (xs.length - 1)
    else (s.textOf v).length

def Mode.insert (m : Mode) (s : Shell) (name : String) (q : Bool) (v : Content) : List Cell :=
  let joined (gap : Cell) (cells : String → List Cell) : List String → List Cell :=
    fun xs => ((xs.map cells).intersperse [gap]).flatten
  match v with
  | .text t => put q t
  | .arguments xs =>
    if !m.separates name q then (s.textOf v).map (.char · q false)
    else if q then
      joined (.gap false) (fun x => .mark :: x.toList.map (.char · true false)) xs
    else .edge :: joined (.gap true) (fun x => x.toList.map (.char · false true)) xs ++ [.edge]

def Mode.insertTrimmed (m : Mode) (s : Shell) (name : String) (q : Bool) (v : Content)
    (one : Chars → Chars) (several : List Chars → List Chars) : List Cell :=
  match v, m.separates name q with
  | .arguments (x :: xs), true =>
    m.insert s name q (.arguments ((several ((x :: xs).map String.toList)).map String.ofList))
  | v, _ => put q (one (s.textOf v))

/-- The user after a tilde, and what follows; nothing in it is quoted or replaced. -/
def takeUser? (colons : Bool) : List Part → Option (Chars × List Part)
  | [] => some ([], [])
  | .char c false :: rest =>
    if c = '/' || (colons && c = ':') then some ([], .char c false :: rest)
    else (takeUser? colons rest).map fun (cs, rest) => (c :: cs, rest)
  | _ => none

namespace Act

/-- The texts a word can be replaced by come from commands that are run elsewhere. -/
abbrev Capture := Body → Act Chars

def demand (name message : String) : Act (List Cell) := fail s!"{name}: {message}"

def computeArithmetic (text : Chars) : Act Chars := do
  let s ← get
  match Arithmetic.compute s.valueOf? text with
  | .error e => fail (e.message text)
  | .ok (n, assigned) =>
    assigned.forM fun (name, n) => setVariable name (toString n)
    return (toString n).toList

variable (capture : Capture)

def expandPart (inside : Mode → Bool → List Part → Act (List Cell)) (m : Mode) :
    Part → Act (List Cell)
  | .char c q => return [.char c q (!q && m.divides)]
  | .mark => return [.mark]
  | .output body q => return Mode.put q (← capture body)
  | .arithmetic text q => do
    let cells ← inside {} false text
    return Mode.put q (← computeArithmetic (Cell.characters cells))
  | .parameter name op q operand => do
    let s ← get
    let v := s.content? name
    let lacks (orEmpty : Bool) : Bool := v.all fun v => orEmpty && m.lengthOf s name q v == 0
    let inner : Act (List Cell) := do
      let cells ← inside { m with divides := m.fields && !q, colons := false } true operand
      return .edge :: cells ++ [.edge]
    let plain : Act Chars := do return Cell.characters (← inside {} true operand)
    let valueOr (absent : List Cell) (f : Content → Act (List Cell)) : Act (List Cell) :=
      match v with
      | some v => f v
      | none => if s.options.contains 'u' then demand name "parameter not set" else return absent
    let value := valueOr [] fun v => return m.insert s name q v
    match op with
    | .senseless => fail "Bad substitution"
    | .value => value
    | .length =>
      valueOr (Mode.put q ['0']) fun v =>
        return Mode.put q (toString (m.lengthOf s name q v)).toList
    | .otherwise orEmpty => if lacks orEmpty then inner else value
    | .instead orEmpty => if lacks orEmpty then return [] else inner
    | .assign orEmpty =>
      unless lacks orEmpty do return ← value
      let text ← plain
      setVariable name (String.ofList text)
      return Mode.put q text
    | .demand orEmpty =>
      unless lacks orEmpty do return ← value
      let message := String.ofList (← plain)
      demand name (if !operand.isEmpty then message
        else if orEmpty then "parameter not set or null" else "parameter not set")
    | .trim atEnd longest => valueOr [] fun v => do
      let pattern := Cell.glyphs (← inside {} true operand)
      let all := if atEnd then trimEnds else trimStarts
      return m.insertTrimmed s name q v (trim atEnd pattern longest) (all pattern longest)

/-- Expands the parts of a word one after the other; a tilde may come first. -/
def expandParts : Nat → Mode → Bool → List Part → Act (List Cell)
  | 0, _, _, _ => fail "Bad substitution"
  | fuel + 1, m, tilde, parts => do
    let mut (cells, tilde, rest) : Array Cell × Bool × List Part := (#[], tilde, parts)
    for _ in parts do
      let p :: more := rest | break
      if let (true, .char '~' false) := (tilde, p) then
        let s ← get
        let home : Option (String × List Part) := do
          let (user, more) ← takeUser? m.colons more
          return (← s.home? user, more)
        if let some (h, more) := home then
          (cells, tilde, rest) := (cells ++ Mode.put true h.toList, false, more)
          continue
      let (p, more) :=
        match rest with
        | .mark :: .parameter "@" .value true [] :: .mark :: more =>
          (.parameter "@" .value true [], more)
        | _ => (p, more)
      let new ← expandPart capture (expandParts fuel) m p
      (cells, tilde, rest) := (cells ++ new, m.colons && p matches .char ':' false, more)
    return cells.toList

def expandCharacters (m : Mode) (tilde : Bool) (w : Word) : Act String := do
  return String.ofList (Cell.characters (← expandParts capture Read.ample m tilde w))

def expandText : Word → Act String := expandCharacters capture {} true

def expandValue : Word → Act String := expandCharacters capture { colons := true } true

def expandDocument : Word → Act String := expandCharacters capture {} false

def expandPattern (w : Word) : Act (List Glyph) := do
  return Cell.glyphs (← expandParts capture Read.ample {} true w)

def expandFiles (cells : List Cell) : Act (List String) := do
  let text := String.ofList (Cell.characters cells)
  let glyphs := Cell.glyphs cells
  if (← isOn 'f') || !glyphs.any (fun g => g.is '*' || g.is '?' || g.is '[') then return [text]
  let (fs, cwd) ← look
  match filesMatching fs cwd glyphs with
  | [] => return [text]
  | found => return found.map String.ofList

def expandFields (w : Word) : Act (List String) := do
  let cells ← expandParts capture Read.ample { fields := true } true w
  let fields := divideFields (← get).separators cells
  fields.foldlM (fun acc f => do return acc ++ (← expandFiles f)) []

end Act

end JobShell.Script
