import JobShell.Utility.Tool

/-!
Concatenation of files, as they are or with what is hard to see made visible.
-/

namespace JobShell.Utility.Cat

/-- What is to be shown. -/
structure Style where
  number : Bool := false
  numberFilled : Bool := false
  squeeze : Bool := false
  ends : Bool := false
  tabs : Bool := false
  unprintable : Bool := false

namespace Style

def isPlain (s : Style) : Bool :=
  !(s.number || s.numberFilled || s.squeeze || s.ends || s.tabs || s.unprintable)

def add (s : Style) : Char → Style
  | 'b' => { s with number := true, numberFilled := true }
  | 'n' => { s with number := true }
  | 's' => { s with squeeze := true }
  | 'E' => { s with ends := true }
  | 'T' => { s with tabs := true }
  | 'v' => { s with unprintable := true }
  | 'e' => { s with ends := true, unprintable := true }
  | 't' => { s with tabs := true, unprintable := true }
  | 'A' => { s with ends := true, tabs := true, unprintable := true }
  | _ => s

end Style

def spec : Options.Spec where
  letters := "benstuvAET".toList.map (·, .none)
  words := [("number-nonblank", 'b', .none), ("number", 'n', .none), ("squeeze-blank", 's', .none),
    ("show-nonprinting", 'v', .none), ("show-ends", 'E', .none), ("show-tabs", 'T', .none),
    ("show-all", 'A', .none)]

/-- Where a line stands: the number of the last line with one, how many line ends came right before
(none inside of a line), and a carriage return that may yet be the end of a line. -/
structure Cursor where
  line : Nat := 0
  ends : Option Nat := some 0
  held : Bool := false

def visible (b : UInt8) : Bytes :=
  let low (b : UInt8) : Bytes :=
    if b < 32 then [94, b + 64] else if b = 127 then [94, 63] else [b]
  if b < 128 then low b else [77, 45] ++ low (b - 128)

def shown (style : Style) (b : UInt8) : Bytes :=
  if b = 9 then if style.tabs then [94, 73] else [9]
  else if style.unprintable then visible b
  else [b]

def numbered (c : Cursor) : Bytes × Cursor :=
  let t := toString (c.line + 1)
  let pad := String.ofList (List.replicate (6 - t.length) ' ')
  (Text.bytes (pad ++ t ++ "\t"), { c with line := c.line + 1 })

def step (style : Style) (c : Cursor) (b : UInt8) : Bytes × Cursor :=
  if b = 10 then
    let before : Bytes := if c.held then [94, 77] else []
    let ends := c.ends.elim 0 (· + 1)
    let blank := 0 < ends && !c.held
    if blank && 2 ≤ ends && style.squeeze then ([], { c with ends := some 2 })
    else
      let (label, c) :=
        if blank && style.number && !style.numberFilled then numbered c else ([], c)
      (before ++ label ++ (if style.ends then [36] else []) ++ [10],
        { c with ends := some (min ends 2), held := false })
  else
    let before : Bytes := if c.held then [13] else []
    let (label, c) := if c.ends.isSome && style.number then numbered c else ([], c)
    if b = 13 && style.ends && !style.unprintable then
      (before ++ label, { c with ends := none, held := true })
    else (before ++ label ++ shown style b, { c with ends := none, held := false })

def render (style : Style) (c : Cursor) (data : Bytes) : Bytes × Cursor :=
  let (out, c) := data.foldl (fun ((out : List Bytes), c) b =>
    let (o, c) := step style c b
    (o :: out, c)) ([], c)
  (out.reverse.flatten, c)

def copy (name : String) (style : Style) (fd : Nat) (c : Cursor) :
    Action (Option SystemError × Cursor) := do
  let mut c := c
  for _ in [:Program.patience] do
    match ← Action.read fd 131072 with
    | .error e => return (some e, c)
    | .ok [] => return (none, c)
    | .ok data =>
      let (out, new) := if style.isPlain then (data, c) else render style c data
      Tool.output name out
      c := new
  return (none, c)

def feedsItself (source target : Inspection) (fs : FileSystem) : Bool :=
  match source.place, target.place with
  | some a, some b =>
    match fs.entry? a with
    | some (.file data) => a == b && source.offset < data.length
    | _ => false
  | _, _ => false

/-- Copies an operand; says how far it got and what went wrong. -/
def one (name : String) (style : Style) (target : Inspection) (c : Cursor) (operand : String) :
    Action (Option String × Cursor) := do
  match ← Tool.openOperand operand with
  | .error e => return (e.reason, c)
  | .ok fd =>
    match ← Action.inspect fd with
    | .error e => return (e.reason, c)
    | .ok source =>
      let itself := feedsItself source target (← Action.files)
      let (e, c) ← if itself then pure (none, c) else copy name style fd c
      Tool.closeOperand operand fd
      return (if itself then "input file is output file" else e.map (·.reason), c)

def program (s : Start) : Program := Action.run do
  let name := s.name
  let g ← Tool.options spec s 1
  let style := g.options.foldl (fun st (c, _) => st.add c) {}
  let operands := Tool.orInput g.operands
  let target ← Tool.require name "standard output" 1 (← Action.inspect 1)
  let mut (ok, c) : Bool × Cursor := (true, {})
  for operand in operands do
    let (problem, new) ← one name style target c operand
    if let some p := problem then Tool.warn name s!"{Quote.file operand}: {p}"
    (ok, c) := (ok && problem.isNone, new)
  if c.held then Tool.output name [13]
  let closed ← Tool.closeInput name "closing standard input" operands
  return if ok && closed then 0 else 1

end JobShell.Utility.Cat
