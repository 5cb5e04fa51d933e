import JobShell.Utility.Tool

/-!
Counts of lines, words and bytes.
-/

namespace JobShell.Utility.Count

structure Counts where
  lines : Nat := 0
  words : Nat := 0
  bytes : Nat := 0
  /-- The width of the widest line. -/
  longest : Nat := 0

def Counts.add (a b : Counts) : Counts :=
  ⟨a.lines + b.lines, a.words + b.words, a.bytes + b.bytes, max a.longest b.longest⟩

/-- Counts so far, whether a word is being read, and how far the line has got. -/
structure Scan where
  counts : Counts := {}
  inWord : Bool := false
  column : Nat := 0

namespace Scan

def endWord (s : Scan) : Scan :=
  { s with
    counts := { s.counts with words := s.counts.words + if s.inWord then 1 else 0 }
    inWord := false }

def endLine (s : Scan) : Scan :=
  { s with counts := { s.counts with longest := max s.counts.longest s.column }, column := 0 }

def step (s : Scan) (b : UInt8) : Scan :=
  let s := { s with counts := { s.counts with bytes := s.counts.bytes + 1 } }
  if b = 10 then
    ({ s with counts := { s.counts with lines := s.counts.lines + 1 } } : Scan).endLine.endWord
  else if b = 13 || b = 12 then s.endLine.endWord
  else if b = 9 then ({ s with column := s.column + (8 - s.column % 8) } : Scan).endWord
  else if b = 32 then ({ s with column := s.column + 1 } : Scan).endWord
  else if b = 11 then s.endWord
  else if 32 < b && b < 127 then { s with column := s.column + 1, inWord := true }
  else s

end Scan

def scan (data : Bytes) : Counts := (data.foldl Scan.step {}).endLine.endWord.counts

/-- Which counts are shown. -/
structure Wanted where
  lines : Bool := false
  words : Bool := false
  chars : Bool := false
  bytes : Bool := false
  longest : Bool := false

namespace Wanted

def add (w : Wanted) : Char → Wanted
  | 'l' => { w with lines := true }
  | 'w' => { w with words := true }
  | 'm' => { w with chars := true }
  | 'c' => { w with bytes := true }
  | 'L' => { w with longest := true }
  | _ => w

def select (w : Wanted) (c : Counts) : List Nat :=
  (if w.lines then [c.lines] else []) ++ (if w.words then [c.words] else []) ++
    (if w.chars then [c.bytes] else []) ++ (if w.bytes then [c.bytes] else []) ++
    if w.longest then [c.longest] else []

def number (w : Wanted) : Nat := (w.select {}).length

end Wanted

/-- When a row with the sums is shown. -/
inductive Total where
  | auto
  | always
  | only
  | never
  deriving DecidableEq, Repr

structure Settings where
  wanted : Option Wanted := none
  total : Total := .auto

def totals : List (String × Total) :=
  [("auto", .auto), ("always", .always), ("only", .only), ("never", .never)]

def Settings.set (s : Settings) (o : Char × String) : Except Tool.Mistake Settings :=
  match o.1 with
  | 't' => do
    let i ← Tool.choose "total" o.2 (totals.map ([·.1]))
    return { s with total := totals[i]?.elim .auto (·.2) }
  | c => .ok { s with wanted := some ((s.wanted.getD {}).add c) }

def spec : Options.Spec where
  letters := "clLmw".toList.map (·, .none)
  words := [("bytes", 'c', .none), ("chars", 'm', .none), ("lines", 'l', .none),
    ("words", 'w', .none), ("max-line-length", 'L', .none), ("total", 't', .required)]

def padLeft (width n : Nat) : String :=
  let t := toString n
  String.ofList (List.replicate (width - t.length) ' ') ++ t

def row (wanted : Wanted) (width : Nat) (c : Counts) (name : Option String) : String :=
  let shown (n : String) : String := if n.contains '\n' then Quote.file n else n
  " ".intercalate ((wanted.select c).map (padLeft width)) ++
    name.elim "" (fun n => " " ++ shown n) ++ "\n"

/-! ### The width of the columns -/

def size? (fs : FileSystem) (place : Option Place) : Option Nat :=
  match place.bind fs.entry? with
  | some (.file data) => some data.length
  | _ => none

/-- What is known of an operand before it is read: whether it exists, and its size. -/
def status (operand : Option String) : Action (Option (Option Nat)) := fun next =>
  match operand with
  | none | some "-" =>
    .inspect 0 fun
      | .error _ => next none
      | .ok i => .look fun fs _ => next (some (size? fs i.place))
  | some path =>
    .look fun fs cwd =>
      match fs.locate cwd (Text.ofOctets path) with
      | .ok place => next (some (size? fs (some place)))
      | .error _ => next none

/-- Wide enough for the sum of all sizes, and for seven digits if something has no size. -/
def width (found : List (Option (Option Nat))) : Nat :=
  let sizes := found.filterMap id
  let total := (sizes.filterMap id).foldl (· + ·) 0
  max (toString total).length (if sizes.any (·.isNone) then 7 else 1)

/-! ### Counting -/

/-- Counts an operand; gives what went wrong as well, and nothing if it cannot be opened. -/
def one (name : String) (operand : Option String) : Action (Option Counts × Bool) := do
  match ← Tool.openOperand (operand.getD "-") with
  | .error e =>
    Tool.warn name (Quote.file (operand.getD "-") ++ ": " ++ e.reason)
    return (none, false)
  | .ok fd =>
    let data ← Action.readAll fd
    Tool.closeOperand (operand.getD "-") fd
    match data with
    | .ok data => return (scan data, true)
    | .error e =>
      Tool.warn name (Quote.file (operand.getD "standard input") ++ ": " ++ e.reason)
      return (some {}, false)

def program (s : Start) : Program := Action.run do
  let (settings, operands) ← Tool.settings spec s 1 {} Settings.set
  let wanted := settings.wanted.getD { lines := true, words := true, bytes := true }
  let operands : List (Option String) := if operands.isEmpty then [none] else operands.map some
  let only := settings.total == .only
  let found ←
    if only || (operands.length = 1 && wanted.number = 1) then pure [] else operands.mapM status
  let mut (total, ok, unwritten) : Counts × Bool × Bool := ({}, true, false)
  for o in operands do
    let (counts, fine) ← one s.name o
    ok := ok && fine
    if let some c := counts then
      total := total.add c
      unless only do
        let e ← Action.write 1 (Text.bytes (row wanted (width found) c o))
        unwritten := unwritten || e.isSome
  let sums : Option (Option String) :=
    match settings.total, decide (1 < operands.length) with
    | .only, _ => some none
    | .always, _ | .auto, true => some "total"
    | _, _ => none
  if let some label := sums then
    let e ← Action.write 1 (Text.bytes (row wanted (width found) total label))
    unwritten := unwritten || e.isSome
  let closed ← Tool.closeInput s.name "-" (operands.map (·.getD "-"))
  if unwritten then Tool.failLate s.name 1
  return if ok && closed then 0 else 1

end JobShell.Utility.Count
