import JobShell.Text.Octet

/-!
Names in messages, quoted so that they can be told from the text around them.

In the shell's style a name stays as it is unless something in it means something to a shell; then
it is put in single quotes, and what cannot be printed is written as an escape in quotes of its own.
-/

namespace JobShell.Quote

def isPrintable (c : Char) : Bool := ' ' ≤ c && c ≤ '~'

/-- The letters that stand for control characters after a backslash, from the seventh on. -/
def letters : Chars := "abtnvfr".toList

def control? (letter : Char) : Option Char :=
  (letters.idxOf? letter).map fun i => Char.ofNat (7 + i)

def escapeOf (c : Char) : Chars :=
  let digit (n : Nat) : Char := Char.ofNat (48 + n % 8)
  match letters.find? (control? · = some c) with
  | some l => ['\\', l]
  | none => ['\\', digit (c.toNat / 64), digit (c.toNat / 8), digit c.toNat]

/-! ### The shell's style -/

def specials : Chars := " !\"$&()*;<=>?[\\^\x60|'".toList

def needsQuotes (colon : Bool) (s : Chars) : Bool :=
  s.isEmpty || s == ['\x7b'] || s == ['\x7d'] || s.head? == some '#' || s.head? == some '~' ||
    s.any fun c => specials.contains c || !isPrintable c || (colon && c == ':')

def isPlain (first : Bool) (c : Char) : Bool :=
  isPrintable c && (c == ' ' || c == '\'' || ((c == '#' || c == '~') && first) ||
    !(specials ++ ['#', '~', '\x7b', '\x7d']).contains c)

def allPlain (cs : Chars) : Bool := (cs.take 1).all (isPlain true) && cs.tail.all (isPlain false)

/-- The inside of single quotes; `escaping` says that an escape in quotes of its own is being
written. -/
def inside (escaping : Bool) : Chars → Chars
  | [] => ['\'']
  | c :: cs =>
    if c = '\'' then ['\'', '\\', '\'', '\''] ++ inside false cs
    else if isPrintable c then (if escaping then ['\'', '\''] else []) ++ c :: inside false cs
    else (if escaping then [] else ['\'', '$', '\'']) ++ escapeOf c ++ inside true cs

def always (s : String) : String :=
  let cs := s.toList
  if cs.contains '\'' && allPlain cs then "\"" ++ s ++ "\""
  else String.ofList ('\'' :: inside false cs)

def shell (s : String) : String := if needsQuotes false s.toList then always s else s

def file (s : String) : String := if needsQuotes true s.toList then always s else s

/-! ### The plain style -/

def plain (s : String) : String :=
  let char (c : Char) : Chars :=
    if c = '\'' || c = '\\' then ['\\', c] else if isPrintable c then [c] else escapeOf c
  String.ofList ('\'' :: s.toList.flatMap char ++ ['\''])

end JobShell.Quote
