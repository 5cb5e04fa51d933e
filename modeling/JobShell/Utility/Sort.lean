import JobShell.Utility.Compare
import JobShell.Utility.Tool

/-!
Sorting of lines, by the bytes of whole lines or by keys.

A key is a part of the line together with a way to compare. Lines whose keys are all equal are
compared as a whole, unless only the keys count.
-/

namespace JobShell.Utility.Sort

/-! ### Keys -/

/-- How parts of lines are compared. -/
inductive Kind where
  | text
  | numeric
  | general
  | human
  | month
  | version
  deriving DecidableEq, Repr

/-- A way to compare parts of lines, and the options that set it. -/
structure Manner where
  kind : Kind := .text
  skipStart : Bool := false
  skipEnd : Bool := false
  /-- Only blanks, letters and digits count. -/
  dictionary : Bool := false
  printable : Bool := false
  fold : Bool := false
  reverse : Bool := false
  /-- Equal parts come together in an order of their own. -/
  random : Bool := false
  /-- The letters of kinds and of what is left out, which exclude each other. -/
  letters : Chars := []

/-- A key from a character of a field to one of another field, counted from zero; no first field
stands for the start of the line, no last one for its end. -/
structure Key where
  start : Option (Nat × Nat) := none
  stop : Option (Nat × Nat) := none
  manner : Manner := {}

namespace Manner

def isDefault (o : Manner) : Bool :=
  o.kind == .text && !o.skipStart && !o.skipEnd && !o.dictionary && !o.printable && !o.fold &&
    !o.random

/-- Adds an option; `start` and `stop` say to which ends of a key blanks refer. -/
def add? (o : Manner) (start stop : Bool) (c : Char) : Option Manner :=
  let exclusive := { o with letters := o.letters ++ [c] }
  let kinds : List (Char × Kind) :=
    [('g', .general), ('h', .human), ('M', .month), ('n', .numeric), ('V', .version)]
  match c with
  | 'b' => some { o with skipStart := o.skipStart || start, skipEnd := o.skipEnd || stop }
  | 'd' => some { exclusive with dictionary := true, printable := false }
  | 'f' => some { o with fold := true }
  | 'i' => some { exclusive with printable := !o.dictionary }
  | 'r' => some { o with reverse := true }
  | 'R' => some { exclusive with random := true }
  | c => (kinds.lookup c).map fun kind => { exclusive with kind }

def conflict? (o : Manner) : Option String :=
  let given (c : Char) : Bool :=
    if c == 'f' then o.fold else if c == 'i' then o.printable else o.letters.contains c
  let kinds := (['g', 'h', 'M', 'n'].filter given).length +
    if ['d', 'i', 'R', 'V'].any given then 1 else 0
  if kinds < 2 then none else some (String.ofList ("dfghiMnRV".toList.filter given))

end Manner

/-! ### Reading keys -/

def leadingNumber? (cs : Chars) : Option (Nat × Chars) :=
  (Text.digits? (cs.takeWhile Char.isDigit)).map (·, cs.dropWhile Char.isDigit)

def takeManner (start stop : Bool) : Manner → Chars → Manner × Chars
  | o, [] => (o, [])
  | o, c :: cs =>
    match o.add? start stop c with
    | some o => takeManner start stop o cs
    | none => (o, c :: cs)

def badSpec (message spec : String) : String :=
  s!"{message}: invalid field specification {Quote.plain spec}"

def fieldNumber (message : String) (cs : Chars) : Except String (Nat × Chars) :=
  (leadingNumber? cs).elim
    (.error s!"{message}: invalid count at start of {Quote.plain (String.ofList cs)}") .ok

def position (message spec : String) (cs : Chars) :
    Except String (Nat × Option Nat × Chars) := do
  let (field, rest) ← fieldNumber message cs
  if field = 0 then throw (badSpec "field number is zero" spec)
  let '.' :: rest := rest | return (field - 1, none, rest)
  let (char, rest) ← fieldNumber "invalid number after '.'" rest
  return (field - 1, some char, rest)

def key (spec : String) : Except String Key := do
  let (field, char, rest) ← position "invalid number at field start" spec spec.toList
  if char = some 0 then throw (badSpec "character offset is zero" spec)
  let char := char.getD 1 - 1
  let start := if field = 0 && char = 0 then none else some (field, char)
  let mut (manner, rest) := takeManner true false {} rest
  let mut stop := none
  if let ',' :: more := rest then
    let (field, char, more) ← position "invalid number after ','" spec more
    stop := some (field, char.getD 0)
    (manner, rest) := takeManner false true manner more
  unless rest.isEmpty do throw (badSpec "stray character in field spec" spec)
  return ⟨start, stop, manner⟩

/-! ### The part of a line that a key stands for -/

def isBlank (b : UInt8) : Bool := b == 32 || b == 9 || b == 10

def pastField (separator : Option UInt8) (keep : Bool) (line : Bytes) : Bytes :=
  match separator with
  | none => (line.dropWhile isBlank).dropWhile (!isBlank ·)
  | some t =>
    let rest := line.dropWhile (· != t)
    if keep then rest else rest.drop 1

def pastFields (separator : Option UInt8) (n : Nat) (keepLast : Bool) (line : Bytes) : Bytes :=
  n.fold (fun i _ => pastField separator (keepLast && i + 1 == n)) line

def past (separator : Option UInt8) (skip : Bool) (field char : Nat) (line : Bytes) : Bytes :=
  let rest := pastFields separator field false line
  (if skip then rest.dropWhile isBlank else rest).drop char

def part (separator : Option UInt8) (k : Key) (line : Bytes) : Bytes :=
  let (field, char) := k.start.getD (0, 0)
  let rest := past separator k.manner.skipStart field char line
  let after :=
    match k.stop with
    | none => []
    | some (field, 0) => pastFields separator (field + 1) true line
    | some (field, char) => past separator k.manner.skipEnd field char line
  rest.take (rest.length - after.length)

/-! ### Comparing -/

def upper (b : UInt8) : UInt8 := if 97 ≤ b && b ≤ 122 then b - 32 else b

def isAlphanumeric (b : UInt8) : Bool :=
  (48 ≤ b && b ≤ 57) || (65 ≤ b && b ≤ 90) || (97 ≤ b && b ≤ 122)

def counted (o : Manner) (part : Bytes) : Bytes :=
  let kept :=
    if o.dictionary then part.filter fun b => isBlank b || isAlphanumeric b
    else if o.printable then part.filter fun b => 32 ≤ b && b < 127
    else part
  if o.fold then kept.map upper else kept

def months : List String :=
  ["JAN", "FEB", "MAR", "APR", "MAY", "JUN", "JUL", "AUG", "SEP", "OCT", "NOV", "DEC"]

def month (part : Bytes) : Nat :=
  let letters := ((part.dropWhile isBlank).take 3).map upper
  (months.idxOf? (Text.ofBytes letters)).elim 0 (· + 1)

def compareParts (o : Manner) (a b : Bytes) : Ordering :=
  let (a, b) := (counted o a, counted o b)
  let text (p : Bytes) : Chars := (p.dropWhile isBlank).map Text.octet
  match o.kind with
  | .text => compare a b
  | .numeric => Compare.decimals (text a) (text b)
  | .general => Compare.numbers (text a) (text b)
  | .human => Compare.sizes (text a) (text b)
  | .month => compare (month a) (month b)
  | .version => Compare.versions (a.map Text.octet) (b.map Text.octet)

/-! ### Settings -/

structure Settings where
  keys : List Key := []
  manner : Manner := {}
  separator : Option UInt8 := none
  /-- Only whether the lines are in order is asked, perhaps without a message. -/
  check : Option Bool := none
  merge : Bool := false
  output : Option String := none
  stable : Bool := false
  unique : Bool := false
  ending : UInt8 := 10

namespace Settings

def compareKeys (s : Settings) (keys : List Key) (a b : Bytes) : Ordering :=
  keys.foldl (fun found k =>
    found.then <|
      let (a, b) := if k.manner.reverse then (b, a) else (a, b)
      compareParts k.manner (part s.separator k a) (part s.separator k b)) .eq

/-- The keys that count: those without a manner of their own take the common one. -/
def effectiveKeys (s : Settings) : List Key :=
  if s.keys.isEmpty then if s.manner.isDefault then [] else [{ manner := s.manner }]
  else
    s.keys.map fun k =>
      if k.manner.isDefault && !k.manner.reverse then { k with manner := s.manner } else k

def compareLines (s : Settings) (keys : List Key) (a b : Bytes) : Ordering :=
  let found := s.compareKeys keys a b
  if found ≠ .eq || (!keys.isEmpty && (s.unique || s.stable)) then found
  else if s.manner.reverse then compare b a
  else compare a b

def separatorOf (s : Settings) (text : String) : Except String UInt8 := do
  let chosen ← match Text.bytes text with
    | [] => .error "empty tab"
    | [b] => .ok b
    | [92, 48] => .ok 0
    | _ => .error s!"multi-character tab {Quote.plain text}"
  if s.separator.any (· ≠ chosen) then throw "incompatible tabs"
  return chosen

def sortWords : List (String × Char) := [
  ("general-numeric", 'g'), ("human-numeric", 'h'), ("month", 'M'), ("numeric", 'n'),
  ("random", 'R'), ("version", 'V')]

def failure (message : String) : Tool.Mistake := { message, status := 2 }

def incompatible (letters : String) : Tool.Mistake :=
  failure s!"options '-{letters}' are incompatible"

def setCheck (s : Settings) (quiet : Bool) : Except Tool.Mistake Settings :=
  if s.check = some !quiet then .error (incompatible "cC") else .ok { s with check := some quiet }

def checkAmount (text : String) : Except Tool.Mistake Unit := do
  let refuse (what : String) := throw (failure s!"{what} -S argument {Quote.always text}")
  let some (_, rest) := leadingNumber? (text.toList.dropWhile (· == ' ')) | refuse "invalid"
  unless rest.isEmpty || "bEgGkKmMPQRtTYZ%".toList.any ([·] = rest) do refuse "invalid suffix in"

def addLetter (s : Settings) (c : Char) : Settings :=
  { s with manner := (s.manner.add? true true c).getD s.manner }

def set (s : Settings) (o : Char × String) : Except Tool.Mistake Settings := do
  match o.1 with
  | 'k' => return { s with keys := s.keys ++ [← (key o.2).mapError failure] }
  | 't' => return { s with separator := some (← (s.separatorOf o.2).mapError failure) }
  | 'o' =>
    if s.output.any (· ≠ o.2) then throw (failure "multiple output files specified")
    return { s with output := some o.2 }
  | 'c' =>
    if o.2.isEmpty then return ← s.setCheck false
    s.setCheck ((← Tool.choose "check" o.2 [["quiet", "silent"], ["diagnose-first"]]) == 0)
  | 'C' => s.setCheck true
  | 'm' => return { s with merge := true }
  | 's' => return { s with stable := true }
  | 'S' => checkAmount o.2; return s
  | 'u' => return { s with unique := true }
  | 'z' => return { s with ending := 0 }
  | 'W' =>
    let i ← Tool.choose "sort" o.2 (sortWords.map ([·.1]))
    return sortWords[i]?.elim s fun w => s.addLetter w.2
  | c => return s.addLetter c

end Settings

def spec : Options.Spec where
  letters := "bcCdfghimMnrRsuVz".toList.map (·, .none) ++ "koStTy".toList.map (·, .required)
  words :=
    [("ignore-leading-blanks", 'b'), ("check", 'c'), ("dictionary-order", 'd'),
      ("ignore-case", 'f'), ("general-numeric-sort", 'g'), ("human-numeric-sort", 'h'),
      ("ignore-nonprinting", 'i'), ("key", 'k'), ("merge", 'm'), ("month-sort", 'M'),
      ("numeric-sort", 'n'), ("output", 'o'), ("reverse", 'r'), ("stable", 's'),
      ("buffer-size", 'S'), ("field-separator", 't'), ("temporary-directory", 'T'),
      ("unique", 'u'), ("version-sort", 'V'), ("zero-terminated", 'z'), ("sort", 'W'),
      ("parallel", 'T'), ("batch-size", 'T'), ("random-sort", 'R'), ("random-source", 'T'),
      ("compress-program", 'T')].map fun (w, c) =>
        (w, c, if c = 'c' then .optional
          else if "koStTW".toList.contains c then .required else .none)

/-! ### Running -/

def readLines (name : String) (ending : UInt8) (file : String) : Action (List Bytes) := do
  let shown := Quote.file file
  let fd ← Tool.require name s!"open failed: {shown}" 2 (← Tool.openOperand file)
  let data ← Action.readAll fd
  if 1 < fd then Tool.closeOperand file fd
  return Tool.lines ending (← Tool.require name s!"read failed: {shown}" 2 data)

def writeLines (name : String) (s : Settings) (ls : List Bytes) : Action Unit := do
  let data := ls.flatMap (· ++ [s.ending])
  match s.output with
  | none =>
    let some e ← Action.write 1 data | return
    Tool.warn name s!"fflush failed: 'standard output': {e.reason}"
    Tool.failLate name 2
  | some file =>
    let shown := Quote.file file
    let fd ← Tool.require name s!"open failed: {shown}" 2 (← Action.openFile file .writing)
    if let some e ← Action.write fd data then
      Tool.fail name s!"write failed: {shown}: {e.reason}" 2

def checkOrder (name : String) (s : Settings) (quiet : Bool) (file : String) : Action Nat := do
  let ls ← readLines name s.ending file
  let fine (a b : Bytes) : Bool :=
    let found := s.compareLines s.effectiveKeys a b
    found == .lt || (found == .eq && !s.unique)
  let some ((_, line), n) := ((ls.zip ls.tail).zipIdx 2).find? fun ((a, b), _) => !fine a b
    | return 0
  if quiet then return 1
  let start := Text.bytes s!"{name}: {Quote.file file}:{n}: disorder: "
  let e ← Action.write 2 (start ++ line ++ [s.ending])
  return if e.isNone then 1 else 2

def arrange (s : Settings) (files : List (List Bytes)) : List Bytes :=
  let order := s.compareLines s.effectiveKeys
  let before (a b : Bytes) : Bool := order a b != .gt
  let ls :=
    if s.merge then files.foldr (fun a b => a.merge b before) []
    else files.flatten.mergeSort before
  if s.unique then ls.eraseRepsBy fun a b => order a b == .eq else ls

def program (start : Start) : Program := Action.run do
  let name := start.name
  let (s, operands) ← Tool.settings spec start 2 {} Settings.set
  if let some letters := s.effectiveKeys.findSome? (·.manner.conflict?) then
    (Settings.incompatible letters).refuse name
  let files := Tool.orInput operands
  if let some quiet := s.check then
    let letter := if quiet then "C" else "c"
    if let some extra := files[1]? then
      Tool.fail name s!"extra operand {Quote.always extra} not allowed with -{letter}" 2
    if s.output.isSome then (Settings.incompatible (letter ++ "o")).refuse name
    return ← checkOrder name s quiet (files.headD "-")
  for file in files do
    if file ≠ "-" then
      let found ← Action.openFile file .reading
      let _ ← Action.close (← Tool.require name s!"cannot read: {Quote.file file}" 2 found)
  if let some file := s.output then
    let found ← Action.openFile file { access := .write, create := true }
    let _ ← Action.close (← Tool.require name s!"open failed: {Quote.file file}" 2 found)
  if !s.merge && files.contains "-" then
    let _ ← Tool.require name "stat failed: -" 2 (← Action.inspect 0)
  writeLines name s (arrange s (← files.mapM (readLines name s.ending)))
  return 0

end JobShell.Utility.Sort
