import JobShell.Text.Numeral

/-!
JSON text read without judging its contents.

A raw document keeps numbers as digits, object members in order with repetitions, and a string as
`none` when one of its escapes names half of a surrogate pair. So whoever gives the document a
meaning decides which numbers are in range, which member of a repeated name counts and how deep
nesting may go; parts that are skipped have to be well formed and no more.
-/

namespace JobShell.Json

open JobShell.Text

/-- A number as written: its digits before and after the point, and a signed exponent. -/
structure Literal where
  negative : Bool
  whole : List Nat
  fraction : List Nat
  exponent : Option (Bool × List Nat)
  deriving DecidableEq, Repr

inductive Raw where
  | null
  | bool (b : Bool)
  | number (n : Literal)
  | string (s : Option String)
  | array (items : List Raw)
  | object (members : List (Option String × Raw))
  deriving BEq, Repr

namespace Raw

def isSpace (c : Char) : Bool := c == ' ' || c == '\t' || c == '\n' || c == '\r'

def skip (cs : Chars) : Chars := cs.dropWhile isSpace

/-! ### Numbers -/

def spanDigits : Chars → List Nat × Chars
  | [] => ([], [])
  | c :: cs =>
    match digitOf? c with
    | some d => let (ds, rest) := spanDigits cs; (d :: ds, rest)
    | none => ([], c :: cs)

def someDigits (cs : Chars) : Option (List Nat × Chars) :=
  match spanDigits cs with
  | ([], _) => none
  | found => some found

/-- A zero, or digits that do not start with one. -/
def readWhole (cs : Chars) : Option (List Nat × Chars) :=
  match spanDigits cs with
  | ([], _) => none
  | (0 :: _ :: _, _) => none
  | found => some found

def readFraction : Chars → Option (List Nat × Chars)
  | '.' :: cs => someDigits cs
  | cs => some ([], cs)

def readExponent : Chars → Option (Option (Bool × List Nat) × Chars)
  | c :: cs =>
    if c == 'e' || c == 'E' then
      let (negative, cs) := Text.takeSign cs
      (someDigits cs).map fun (ds, rest) => (some (negative, ds), rest)
    else some (none, c :: cs)
  | [] => some (none, [])

def readNumber (cs : Chars) : Option (Literal × Chars) := do
  let (negative, cs) :=
    match cs with
    | '-' :: cs => (true, cs)
    | cs => (false, cs)
  let (whole, cs) ← readWhole cs
  let (fraction, cs) ← readFraction cs
  let (exponent, cs) ← readExponent cs
  return (⟨negative, whole, fraction, exponent⟩, cs)

/-! ### Strings -/

export Text (hexDigit?)

def hex4? (a b c d : Char) : Option Nat := do
  return (((← hexDigit? a) * 16 + (← hexDigit? b)) * 16 + (← hexDigit? c)) * 16 + (← hexDigit? d)

def simpleEscape? : Char → Option Char
  | '"' => some '"'
  | '\\' => some '\\'
  | '/' => some '/'
  | 'b' => some '\x08'
  | 'f' => some '\x0c'
  | 'n' => some '\n'
  | 'r' => some '\r'
  | 't' => some '\t'
  | _ => none

/-- A character or one unit of UTF-16 as an escape gives it. -/
inductive Unit16 where
  | char (c : Char)
  | unit (n : Nat)
  deriving DecidableEq

/-- The body of a string up to its closing quote, escapes taken apart. -/
def readUnits : Chars → Option (List Unit16 × Chars)
  | '"' :: rest => some ([], rest)
  | '\\' :: 'u' :: a :: b :: c :: d :: rest => do
    let n ← hex4? a b c d
    let (us, rest) ← readUnits rest
    return (.unit n :: us, rest)
  | '\\' :: e :: rest => do
    let c ← simpleEscape? e
    let (us, rest) ← readUnits rest
    return (.char c :: us, rest)
  | c :: rest =>
    if c.toNat < 0x20 || c == '\\' then none
    else do
      let (us, rest) ← readUnits rest
      return (.char c :: us, rest)
  | [] => none

/-- Joins surrogate pairs; `none` if one of a pair stands alone. -/
def joinUnits : List Unit16 → Option Chars
  | [] => some []
  | .char c :: us => (joinUnits us).map (c :: ·)
  | .unit n :: us =>
    if 0xD800 ≤ n && n < 0xDC00 then
      match us with
      | .unit m :: us =>
        if 0xDC00 ≤ m && m < 0xE000 then
          (joinUnits us).map (Char.ofNat (0x10000 + (n - 0xD800) * 0x400 + (m - 0xDC00)) :: ·)
        else none
      | _ => none
    else if 0xDC00 ≤ n && n < 0xE000 then none
    else (joinUnits us).map (Char.ofNat n :: ·)

def readString (cs : Chars) : Option (Option String × Chars) := do
  let (us, rest) ← readUnits cs
  return ((joinUnits us).map String.ofList, rest)

/-! ### Documents -/

mutual

/-- Reads one value; the fuel bounds the number of steps. -/
def readValue : Nat → Chars → Option (Raw × Chars)
  | 0, _ => none
  | fuel + 1, cs =>
    match skip cs with
    | 'n' :: 'u' :: 'l' :: 'l' :: rest => some (.null, rest)
    | 't' :: 'r' :: 'u' :: 'e' :: rest => some (.bool true, rest)
    | 'f' :: 'a' :: 'l' :: 's' :: 'e' :: rest => some (.bool false, rest)
    | '"' :: rest => (readString rest).map fun (s, rest) => (.string s, rest)
    | '[' :: rest =>
      match skip rest with
      | ']' :: rest => some (.array [], rest)
      | rest => (readItems fuel rest).map fun (vs, rest) => (.array vs, rest)
    | '\x7b' :: rest =>
      match skip rest with
      | '\x7d' :: rest => some (.object [], rest)
      | rest => (readMembers fuel rest).map fun (ms, rest) => (.object ms, rest)
    | rest => (readNumber rest).map fun (n, rest) => (.number n, rest)

def readItems : Nat → Chars → Option (List Raw × Chars)
  | 0, _ => none
  | fuel + 1, cs => do
    let (v, rest) ← readValue fuel cs
    match skip rest with
    | ']' :: rest => return ([v], rest)
    | ',' :: rest =>
      let (vs, rest) ← readItems fuel rest
      return (v :: vs, rest)
    | _ => none

def readMembers : Nat → Chars → Option (List (Option String × Raw) × Chars)
  | 0, _ => none
  | fuel + 1, cs =>
    match skip cs with
    | '"' :: rest => do
      let (name, rest) ← readString rest
      match skip rest with
      | ':' :: rest =>
        let (v, rest) ← readValue fuel rest
        match skip rest with
        | '\x7d' :: rest => return ([(name, v)], rest)
        | ',' :: rest =>
          let (ms, rest) ← readMembers fuel rest
          return ((name, v) :: ms, rest)
        | _ => none
      | _ => none
    | _ => none

end

/-- Reads a whole document: one value and white space. Every step of the reader but the ones that
open a list or object consumes a character, and those are one per character. -/
def parseChars? (cs : Chars) : Option Raw := do
  let (v, rest) ← readValue (2 * cs.length + 2) cs
  if (skip rest).isEmpty then some v else none

def parse? (s : String) : Option Raw := parseChars? s.toList

end Raw

end JobShell.Json
