import JobShell.Script.Grammar
import JobShell.Utility.Integer

/-!
Arithmetic in scripts, on numbers of 64 bits.

An expression is read from left to right and computed on the way. What does not count, as after a
test that failed, is read and not computed.
-/

namespace JobShell.Script.Arithmetic

attribute [local instance(high)] instPowNat

/-! ### Reading -/

inductive Lexeme where
  | number (n : Int)
  | name (s : String)
  /-- A sign; the empty one stands for the end. -/
  | sign (text : String)
  | unknown
  deriving DecidableEq

/-- All signs, a longer one before those that it starts with. -/
def signs : List String :=
  ("<<= >>= << >> <= >= == != && || *= /= %= += -= &= ^= |= " ++
    "* / % + - < > & ^ | = ! ~ ? : ( )").splitOn " "

def lexemes : Nat → Chars → List Lexeme
  | 0, _ => []
  | _, [] => []
  | fuel + 1, c :: cs =>
    let text := c :: cs
    if c = ' ' || c = '\t' || c = '\n' then lexemes fuel cs
    else if c.isDigit then
      match Utility.Integer.take? text with
      | some (n, rest) => .number n.signed.1 :: lexemes fuel rest
      | none => [.unknown]
    else if isNameStart c then
      .name (String.ofList (text.takeWhile isNameChar)) ::
        lexemes fuel (text.dropWhile isNameChar)
    else
      match signs.find? (·.toList.isPrefixOf text) with
      | some s => .sign s :: lexemes fuel (text.drop s.length)
      | none => [.unknown]

/-! ### Computing -/

inductive Failure where
  | mistake (message : String)
  | illegalNumber (text : String)

structure State where
  rest : List Lexeme
  /-- Values given to variables, the last one first. -/
  assigned : List (String × Int) := []
  lookup : String → Option String

abbrev Compute := StateT State (Except Failure)

def fail {α : Type} (message : String) : Compute α := throw (.mistake message)

def peek : Compute Lexeme := do return ((← get).rest.head?).getD (.sign "")

def skip : Compute Unit := modify fun s => { s with rest := s.rest.tail }

/-- Reads a sign if it is the next one. -/
def accept (text : String) : Compute Bool := do
  let found := (← peek) = .sign text
  if found then skip
  return found

def wrap (n : Int) : Int := n.bmod (2 ^ (64 : Nat))

def ofBool (b : Bool) : Int := if b then 1 else 0

def bits (n : Int) : Nat := (n % 2 ^ (64 : Nat)).toNat

/-- Signs between two numbers: how weakly they bind and what they compute. -/
def operations : List (String × Nat × (Int → Int → Int)) := [
  ("*", 0, (· * ·)), ("/", 0, Int.tdiv), ("%", 0, Int.tmod), ("+", 1, (· + ·)), ("-", 1, (· - ·)),
  ("<<", 2, fun a b => a * 2 ^ (bits b % 64)), (">>", 2, fun a b => a / 2 ^ (bits b % 64)),
  ("<", 3, fun a b => ofBool (a < b)), ("<=", 3, fun a b => ofBool (a ≤ b)),
  (">", 3, fun a b => ofBool (b < a)), (">=", 3, fun a b => ofBool (b ≤ a)),
  ("==", 4, fun a b => ofBool (a = b)), ("!=", 4, fun a b => ofBool (a ≠ b)),
  ("&", 5, fun a b => (bits a &&& bits b : Nat)), ("^", 6, fun a b => (bits a ^^^ bits b : Nat)),
  ("|", 7, fun a b => (bits a ||| bits b : Nat))]

def apply (sign : String) (a b : Int) : Compute Int := do
  if b = 0 && (sign = "/" || sign = "%") then fail "division by zero"
  return wrap ((operations.lookup sign).elim a (·.2 a b))

def numberOf (text : String) : Except Failure Int :=
  let blank (cs : Chars) : Bool := cs.all Text.isSpace
  match Utility.Integer.take? text.toList with
  | some (n, rest) =>
    if n.signed.2 || !blank rest then .error (.illegalNumber text) else .ok n.signed.1
  | none => if blank text.toList then .ok 0 else .error (.illegalNumber text)

def valueOf (name : String) : Compute Int := do
  let s ← get
  match s.assigned.lookup name with
  | some n => return n
  | none => MonadExcept.ofExcept (numberOf ((s.lookup name).getD ""))

/-- Kinds of expressions, each made of those after it. -/
inductive Level where
  | assignment | conditional | disjunction | conjunction
  /-- Only signs that bind more strongly. -/
  | binary (bound : Nat)
  | primary

def assigns (sign : String) : Bool :=
  sign.endsWith "=" && !(["==", "!=", "<=", ">="].contains sign)

def expression : Nat → Level → Bool → Compute Int
  | 0, _, _ => fail "expecting primary"
  | fuel + 1, level, idle => do
    let part := expression fuel
    match level with
    | .primary =>
      let l ← peek
      skip
      match l with
      | .number n => return n
      | .name s => if idle then return 0 else valueOf s
      | .sign "(" =>
        let n ← part .assignment idle
        if ← accept ")" then return n else fail "expecting ')'"
      | .sign "+" => part .primary idle
      | .sign "-" => return wrap (-(← part .primary idle))
      | .sign "!" => return ofBool ((← part .primary idle) = 0)
      | .sign "~" => return -(← part .primary idle) - 1
      | _ => fail "expecting primary"
    | .binary bound =>
      let mut a ← part .primary idle
      for _ in [:fuel] do
        let .sign s ← peek | return a
        let some (level, _) := operations.lookup s | return a
        if bound ≤ level then return a
        skip
        let b ← part (.binary level) idle
        a ← if idle then pure b else apply s a b
      return a
    | .conjunction =>
      let a ← part (.binary 8) idle
      if ← accept "&&" then
        let b ← part .conjunction (idle || a == 0)
        return ofBool (a ≠ 0 && b ≠ 0)
      return a
    | .disjunction =>
      let a ← part .conjunction idle
      if ← accept "||" then
        let b ← part .disjunction (idle || a != 0)
        return ofBool (a ≠ 0 || b ≠ 0)
      return a
    | .conditional =>
      let a ← part .disjunction idle
      unless ← accept "?" do return a
      let b ← part .assignment (idle || a == 0)
      unless ← accept ":" do fail "expecting ':'"
      let c ← part .conditional (idle || a != 0)
      return if a ≠ 0 then b else c
    | .assignment =>
      let .name s :: .sign t :: _ := (← get).rest | part .conditional idle
      unless assigns t do return ← part .conditional idle
      skip
      skip
      let n ← part .assignment idle
      if idle then return n
      let n ← if t = "=" then pure n else do apply (t.dropEnd 1).toString (← valueOf s) n
      modify fun state => { state with assigned := (s, n) :: state.assigned }
      return n

def compute (lookup : String → Option String) (text : Chars) :
    Except Failure (Int × List (String × Int)) := do
  let rest := lexemes text.length text
  let whole : Compute Int := do
    let n ← expression (8 * (rest.length + 2)) .assignment false
    if (← peek) = .sign "" then return n else fail "expecting EOF"
  let (n, s) ← StateT.run whole { rest, lookup }
  return (n, s.assigned.reverse)

def Failure.message (text : Chars) : Failure → String
  | .mistake m => s!"arithmetic expression: {m}: \"" ++ String.ofList text ++ "\""
  | .illegalNumber s => s!"Illegal number: {s}"

end JobShell.Script.Arithmetic
