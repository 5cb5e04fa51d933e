import JobShell.Script.Builtin.Options
import JobShell.Utility.Conversion
import JobShell.Utility.Integer
import JobShell.Utility.Quote

/-!
The shell's own ways to print: words with escapes in them, and arguments by a format.
-/

namespace JobShell.Script.Print

open Utility (Integer Quantity Layout)

/-! ### Escapes -/

def octal (cs : Chars) : Chars × Chars :=
  let (ds, _) := Quantity.takeDigits 8 (cs.take 3)
  ([Char.ofNat (Quantity.ofDigits 8 ds % 256)], cs.drop ds.length)

def escape (cs : Chars) : Chars × Chars :=
  match cs with
  | [] => (['\\'], [])
  | '\\' :: rest => (['\\'], rest)
  | 'e' :: rest => (['\x1b'], rest)
  | c :: rest =>
    if '0' ≤ c && c ≤ '7' then octal cs
    else ((Quote.control? c).map ([·], rest)).getD (['\\'], cs)

/-- A text with its escapes carried out, and whether one of them ends all output. -/
def unescape (text : String) : Chars × Bool := Id.run do
  let mut (done, rest) : List Chars × Chars := ([], text.toList)
  for _ in text.toList do
    if let '\\' :: 'c' :: _ := rest then return (done.reverse.flatten, true)
    let (new, more) :=
      match rest with
      | '\\' :: '0' :: digits => octal digits
      | '\\' :: more => escape more
      | c :: more => ([c], more)
      | [] => ([], [])
    (done, rest) := (new :: done, more)
  return (done.reverse.flatten, false)

def words (ending : Chars) : List String → Chars
  | [] => ending
  | w :: ws =>
    let (cs, stop) := unescape w
    if stop then cs else if ws.isEmpty then cs ++ ending else cs ++ ' ' :: words ending ws

def echo (args : List String) : Act Nat := do
  let (ending, args) : Chars × List String :=
    if args.head? = some "-n" then ([], args.tail) else (['\n'], args)
  Act.say (String.ofList (words ending args))
  return 0

/-! ### Formats -/

structure State where
  args : List String
  failed : Bool := false

abbrev Printer := StateT State Act

def put (cs : Chars) : Printer Unit := Act.say (String.ofList cs)

def complain (message : String) : Printer Unit := do
  Act.warn message
  modify ({ · with failed := true })

def argument? : Printer (Option String) := do
  let s ← get
  match s.args with
  | [] => return none
  | a :: args =>
    set { s with args }
    return some a

def check (text : String) (rest : Chars) (limited : Bool) : Printer Unit := do
  if !rest.isEmpty then
    if rest = text.toList then complain s!"{text}: expected numeric value"
    else complain s!"{text}: not completely converted"
  else if limited then complain s!"{text}: {SystemError.outOfRange.reason}"

def number {α β : Type} (zero : β) (ofNat : Nat → β) (take? : Chars → Option (α × Chars))
    (finish : α → β × Bool) : Printer β := do
  match ← argument? with
  | none => return zero
  | some a =>
    match a.toList with
    | '"' :: cs | '\'' :: cs => return ofNat (cs.headD '\x00').toNat
    | cs =>
      match take? cs with
      | none =>
        check a cs false
        return zero
      | some (n, rest) =>
        let (value, limited) := finish n
        check a rest limited
        return value

def signed : Printer Int := number 0 Int.ofNat Integer.take? Integer.signed

def unsigned : Printer Nat := number 0 id Integer.take? Integer.unsigned

def fraction : Printer Quantity :=
  number (.finite false 0 1) (.finite false · 1) Quantity.take? (Quantity.round .double)

def convert (l : Layout) (letter : Char) (directive : String) : Printer Bool := do
  let text : Printer Chars := do return ((← argument?).getD "").toList
  match letter with
  | 'b' =>
    let (cs, stop) := unescape (String.ofList (← text))
    put (l.text cs)
    return stop
  | 'c' => put ({ l with precision := none }.text [(← text).headD '\x00'])
  | 's' => put (l.text (← text))
  | letter =>
    unless "diouxXaAeEfFgG".toList.contains letter do Act.fail s!"%{directive}: invalid directive"
    put (← l.number .double signed unsigned fraction letter)
  return false

def formatted (format : Chars) : Printer Bool := do
  let mut rest := format
  for _ in format do
    match rest with
    | [] => break
    | '\\' :: more =>
      let (os, more) := escape more
      put os
      rest := more
    | '%' :: '%' :: more =>
      put ['%']
      rest := more
    | '%' :: start =>
      let (l, c :: more) ← Layout.read "-+ #0".toList (fun _ => signed) start
        | Act.fail "missing format character"
      if ← convert l c (String.ofList (start.take (start.length - more.length))) then return true
      rest := more
    | c :: more =>
      put [c]
      rest := more
  return false

def all (format : Chars) : Printer Unit := do
  for _ in [:(← get).args.length + 1] do
    let before := (← get).args.length
    let stopped ← formatted format
    let left := (← get).args.length
    if stopped || before ≤ left || left = 0 then return

def printf (args : List String) : Act Nat := do
  match ← Act.operands args with
  | [] => Act.fail "usage: printf format [arg ...]"
  | format :: args =>
    let (_, s) ← (all format.toList).run { args }
    return if s.failed then 1 else 0

end JobShell.Script.Print
