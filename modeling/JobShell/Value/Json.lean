import JobShell.Json.Raw
import JobShell.Value.Basic

/-!
Values as JSON text.

Reading takes integers exactly as long as they fit; every other number becomes a floating point
number in two roundings: the digits, as far as they fit in 64 bits, are rounded once, and
multiplied or divided by a rounded power of ten. Writing is compact.
-/

namespace JobShell

attribute [local instance(high)] instPowNat

open Json

namespace Number

def maxSignificand : Nat := 2 ^ (64 : Nat) - 1

/-- Appends digits to a significand as long as it fits; the digits that are left come back. -/
def gather : Nat → List Nat → Nat × List Nat
  | s, [] => (s, [])
  | s, d :: ds => if s * 10 + d ≤ maxSignificand then gather (s * 10 + d) ds else (s, d :: ds)

/-- `x * 10 ^ e` in one rounding for `|e| ≤ 308`. Below that the number is first divided by
`10 ^ 308`; two such divisions leave nothing of a significand. -/
def scaleTen : Nat → Binary64 → Int → Option Binary64
  | 0, x, _ => some (Binary64.zero x.negative)
  | fuel + 1, x, e =>
    if x.isZero then some x
    else if 308 < e then none
    else if 0 ≤ e then x.mul? (Binary64.ofNat (10 ^ e.toNat))
    else if -308 ≤ e then x.div? (Binary64.ofNat (10 ^ (-e).toNat))
    else (x.div? (Binary64.ofNat (10 ^ (308 : Nat)))).bind fun y => scaleTen fuel y (e + 308)

/-- The floating point number `significand * 10 ^ e`; `none` if it is too large. -/
def floatOf? (negative : Bool) (significand : Nat) (e : Int) : Option Number := do
  let x ← scaleTen 4 (Binary64.ofNat significand) e
  return .float { x with negative := negative }

def ofLiteral? (l : Literal) : Option Number :=
  let (s, dropped) := gather 0 l.whole
  let (s', unused) := gather s l.fraction
  let point : Int := (dropped.length : Int) - ((l.fraction.length - unused.length : Nat) : Int)
  match l.exponent with
  | some (down, ds) =>
    let e := Text.ofDigits 0 ds
    -- an exponent past 31 bits is decided by its sign alone
    if 2 ^ (31 : Nat) ≤ e then
      if s' ≠ 0 && !down then none else some (.float (Binary64.zero l.negative))
    else floatOf? l.negative s' (if down then point - e else point + e)
  | none =>
    if l.fraction.isEmpty && dropped.isEmpty then
      if !l.negative then some (.int s)
      else if s = 0 || 2 ^ (63 : Nat) < s then floatOf? true s 0
      else some (.int (-(s : Int)))
    else floatOf? l.negative s' point

def chars : Number → Chars
  | .int n => if n < 0 then '-' :: Nat.toDigits 10 n.natAbs else Nat.toDigits 10 n.natAbs
  | .float x => x.text

end Number

namespace Value

/-! ### Reading -/

def maxDepth : Nat := 127

mutual

/-- The value of a raw document that nests at most `depth` deep. Of a repeated member the last
one counts. -/
def ofRaw? (depth : Nat) : Raw → Option Value
  | .null => some .null
  | .bool b => some (.bool b)
  | .number l => (Number.ofLiteral? l).map .number
  | .string s => s.map .text
  | .array items =>
    match depth with
    | 0 => none
    | depth + 1 => (ofItems? depth items).map .list
  | .object members =>
    match depth with
    | 0 => none
    | depth + 1 => (ofMembers? depth members).map fun ms => .record (Bindings.ofList ms)

def ofItems? (depth : Nat) : List Raw → Option (List Value)
  | [] => some []
  | r :: rs => do return (← ofRaw? depth r) :: (← ofItems? depth rs)

def ofMembers? (depth : Nat) : List (Option String × Raw) → Option Members
  | [] => some []
  | (name, r) :: rs => do return (← name, ← ofRaw? depth r) :: (← ofMembers? depth rs)

end

def parse? (s : String) : Option Value := (Raw.parse? s).bind (ofRaw? maxDepth)

/-! ### Writing -/

def escapeChar (c : Char) : Chars :=
  match c with
  | '"' => ['\\', '"']
  | '\\' => ['\\', '\\']
  | '\x08' => ['\\', 'b']
  | '\t' => ['\\', 't']
  | '\n' => ['\\', 'n']
  | '\x0c' => ['\\', 'f']
  | '\r' => ['\\', 'r']
  | c =>
    if c.toNat < 0x20 then
      ['\\', 'u', '0', '0'] ++ [Nat.digitChar (c.toNat / 16), Nat.digitChar (c.toNat % 16)]
    else [c]

def quoted (s : String) : Chars := '"' :: s.toList.flatMap escapeChar ++ ['"']

mutual

def chars : Value → Chars
  | .null => "null".toList
  | .bool true => "true".toList
  | .bool false => "false".toList
  | .number n => n.chars
  | .text s => quoted s
  | .list [] => ['[', ']']
  | .list (v :: vs) => '[' :: v.chars ++ itemChars vs ++ [']']
  | .record [] => ['\x7b', '\x7d']
  | .record ((n, v) :: ms) => '\x7b' :: quoted n ++ ':' :: v.chars ++ memberChars ms ++ ['\x7d']

def itemChars : List Value → Chars
  | [] => []
  | v :: vs => ',' :: v.chars ++ itemChars vs

def memberChars : Members → Chars
  | [] => []
  | (n, v) :: ms => ',' :: quoted n ++ ':' :: v.chars ++ memberChars ms

end

def json (v : Value) : String := String.ofList v.chars

end Value

end JobShell
