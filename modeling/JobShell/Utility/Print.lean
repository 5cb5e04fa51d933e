import JobShell.Utility.Conversion
import JobShell.Utility.Integer
import JobShell.Utility.Tool

/-!
Printing arguments by a format, which is used again as long as arguments are left.
-/

namespace JobShell.Utility.Print

attribute [local instance(high)] instPowNat

/-- What is written: text, or a complaint between texts. -/
inductive Piece where
  | text (cs : Chars)
  | complaint (message : String)

structure State where
  args : List String
  /-- The last piece comes first. -/
  pieces : List Piece := []
  used : Bool := false
  failed : Bool := false

/-- Why printing ends early. -/
inductive Stop where
  | done
  | mistake (message : String)

abbrev Printer := ExceptT Stop (StateM State)

def put (cs : Chars) : Printer Unit := modify fun s => { s with pieces := .text cs :: s.pieces }

def complain (message : String) : Printer Unit :=
  modify fun s => { s with pieces := .complaint message :: s.pieces }

def argument? : Printer (Option String) := do
  let s ← get
  match s.args with
  | [] => return none
  | a :: args =>
    set { s with args, used := true }
    return some a

/-! ### Escapes -/

def hexText (least n : Nat) (upper : Bool) : String :=
  String.ofList (Layout.inCase upper ((Nat.toDigits 16 n).leftpad least '0'))

def isForbidden (n : Nat) : Bool :=
  (n ≤ 0x9f && n ≠ 0x24 && n ≠ 0x40 && n ≠ 0x60) || (0xd800 ≤ n && n ≤ 0xdfff)

def codePoint (letter : Char) (cs : Chars) : Printer Chars := do
  let width := if letter = 'u' then 4 else 8
  let (ds, _) := Quantity.takeDigits 16 (cs.take width)
  if ds.length < width then throw (.mistake "missing hexadecimal number in escape")
  let n := Quantity.ofDigits 16 ds
  if isForbidden n then
    throw (.mistake
      ("invalid universal character name \\" ++ letter.toString ++ hexText width n false))
  put (if n < 128 then [Char.ofNat n]
    else if n < 65536 then ("\\u" ++ hexText 4 n true).toList
    else ("\\U" ++ hexText 8 n true).toList)
  return cs.drop width

/-- What follows a backslash, and what is left after it. With `zero` an octal number may have a zero
before its three digits. -/
def escape (zero : Bool) (cs : Chars) : Printer Chars := do
  let c :: rest := cs | put ['\\']; return []
  let digits (base count : Nat) (cs : Chars) : Printer Chars := do
    let (ds, _) := Quantity.takeDigits base (cs.take count)
    if ds.isEmpty && base = 16 then throw (.mistake "missing hexadecimal number in escape")
    put [Char.ofNat (Quantity.ofDigits base ds % 256)]
    return cs.drop ds.length
  match c with
  | 'x' => digits 16 2 rest
  | 'c' => throw .done
  | 'u' | 'U' => codePoint c rest
  | _ =>
    if '0' ≤ c && c ≤ '7' then return ← digits 8 3 (if zero && c = '0' then rest else cs)
    match c with
    | '"' | '\\' => put [c]
    | 'e' => put ['\x1b']
    | _ => put (((Quote.control? c).map ([·])).getD ['\\', c])
    return rest

def escaped (text : Chars) : Printer Unit := do
  let mut rest := text
  for _ in text do
    match rest with
    | [] => break
    | '\\' :: more => rest ← escape true more
    | c :: more =>
      put [c]
      rest := more

/-! ### Numbers -/

def fail (message : String) : Printer Unit := do
  complain message
  modify ({ · with failed := true })

/-- A number at the start of an argument. An argument that starts with a quote stands for the
character after it. -/
def number {α β : Type} (take? : Chars → Option (α × Chars)) (ofNat : Nat → β)
    (finish : α → β × Bool) (arg : String) : Printer β := do
  let quoted (c : Char) (more : Chars) : Printer β := do
    unless more.isEmpty do
      let shown := String.ofList more
      complain (s!"warning: {shown}: character(s) following character constant have been ignored")
    return ofNat c.toNat
  match arg.toList with
  | '"' :: c :: more | '\'' :: c :: more => quoted c more
  | cs =>
    match take? cs with
    | none =>
      unless cs.isEmpty do fail s!"{Quote.plain arg}: expected a numeric value"
      return ofNat 0
    | some (n, rest) =>
      let (value, limited) := finish n
      if limited then fail s!"{Quote.plain arg}: {SystemError.outOfRange.reason}"
      else unless rest.isEmpty do fail s!"{Quote.plain arg}: value not completely converted"
      return value

def signed : String → Printer Int := number Integer.take? Int.ofNat Integer.signed

def unsigned : String → Printer Nat := number Integer.take? id Integer.unsigned

def fraction : String → Printer Quantity :=
  number Quantity.take? (fun n => .finite false n 1) (Quantity.round .extended)

/-! ### Directives -/

/-- The conversions that a flag, or a point before a precision, does not go with. -/
def excluded : Char → String
  | '\'' | 'I' => "aAceEosxX"
  | '#' => "cdisu"
  | '0' => "cs"
  | '.' => "c"
  | _ => ""

def star (precise : Bool) : Printer Int := do
  let some a ← argument? | return 0
  let n ← signed a
  let what := if precise then "precision" else "field width"
  if 2 ^ (31 : Nat) ≤ n || (!precise && n < -2 ^ (31 : Nat)) then
    throw (.mistake s!"invalid {what}: {Quote.plain a}")
  return n

def directive (cs : Chars) : Printer Chars := do
  match cs with
  | '%' :: rest => put ['%']; return rest
  | 'b' :: rest =>
    if let some a ← argument? then escaped a.toList
    return rest
  | 'q' :: rest =>
    if let some a ← argument? then put (Quote.shell a).toList
    return rest
  | _ =>
    let marks := "-+ #0'I".toList
    let (l, rest) ← Layout.read marks star cs
    let rest := rest.dropWhile ("lLhjtz".toList.contains ·)
    let head := cs.take (cs.length - rest.length)
    let flags := head.takeWhile (marks.contains ·) ++ head.filter (· == '.')
    let fits (c : Char) : Bool :=
      "aAcdeEfFgGiosuxX".toList.contains c && !flags.any fun f => (excluded f).contains c
    let shown := String.ofList (cs.take (cs.length - rest.tail.length))
    let some c := rest.head?.filter fits
      | throw (.mistake s!"%{shown}: invalid conversion specification")
    let arg := (← argument?).getD ""
    put (← match c with
      | 'c' => pure (l.text [arg.toList.headD '\x00'])
      | 's' => pure (l.text arg.toList)
      | c => l.number .extended (signed arg) (unsigned arg) (fraction arg) c)
    return rest.tail

def formatted (format : Chars) : Printer Unit := do
  let mut rest := format
  for _ in format do
    match rest with
    | [] => break
    | '%' :: more => rest ← directive more
    | '\\' :: more => rest ← escape false more
    | c :: more =>
      put [c]
      rest := more

def all (format : Chars) : Printer Unit := do
  for _ in [:(← get).args.length + 1] do
    modify ({ · with used := false })
    formatted format
    let s ← get
    let a :: _ := s.args | return
    unless s.used do
      complain s!"warning: ignoring excess arguments, starting with {Quote.plain a}"
      return

/-! ### The program -/

def perform (name : String) (held : List Chars) : List Piece → Action Unit
  | [] => Tool.print name (String.ofList held.reverse.flatten)
  | .text cs :: rest => perform name (cs :: held) rest
  | .complaint m :: rest => do
    Tool.print name (String.ofList held.reverse.flatten)
    Tool.warn name m
    perform name [] rest

def program (start : Start) : Program := Action.run do
  let name := start.name
  match (if start.args.head? = some "--" then start.args.tail else start.args) with
  | [] => Tool.misuse name "missing operand" 1
  | format :: args =>
    let (stop, s) := (all format.toList).run.run { args }
    perform name [] s.pieces.reverse
    match stop with
    | .ok () => return if s.failed then 1 else 0
    | .error .done => return 0
    | .error (.mistake m) => Tool.fail name m 1

end JobShell.Utility.Print
