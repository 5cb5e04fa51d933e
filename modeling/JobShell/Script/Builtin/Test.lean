import JobShell.Script.Builtin.Options

/-!
Conditions on texts, numbers and files.
-/

namespace JobShell.Script.Condition

inductive Unary where
  | empty | nonempty | terminal | exists | file | directory | never | device | readable | writable
  | executable | filled
  deriving DecidableEq

inductive Binary where
  | equal | differs | before | after | eq | ne | ge | gt | le | lt | newer | older | same
  deriving DecidableEq

inductive Kind where
  | unary (u : Unary)
  | binary (b : Binary)
  | both
  | either
  | not
  | opening
  | closing
  deriving DecidableEq

def operators : List (String × Kind) := [
  ("-r", .unary .readable), ("-w", .unary .writable), ("-x", .unary .executable),
  ("-e", .unary .exists), ("-f", .unary .file), ("-d", .unary .directory), ("-c", .unary .device),
  ("-b", .unary .never), ("-p", .unary .never), ("-u", .unary .never), ("-g", .unary .never),
  ("-k", .unary .never), ("-s", .unary .filled), ("-t", .unary .terminal), ("-z", .unary .empty),
  ("-n", .unary .nonempty), ("-h", .unary .never), ("-L", .unary .never), ("-O", .unary .exists),
  ("-G", .unary .exists), ("-S", .unary .never), ("=", .binary .equal), ("!=", .binary .differs),
  ("<", .binary .before), (">", .binary .after), ("-eq", .binary .eq), ("-ne", .binary .ne),
  ("-ge", .binary .ge), ("-gt", .binary .gt), ("-le", .binary .le), ("-lt", .binary .lt),
  ("-nt", .binary .newer), ("-ot", .binary .older), ("-ef", .binary .same), ("!", .not),
  ("-a", .both), ("-o", .either), ("(", .opening), (")", .closing)]

/-- What the argument in front is: an operator, or something else, or nothing. -/
inductive Lexeme where
  | operator (k : Kind)
  | operand
  | eof
  deriving DecidableEq

def isBinary (text : String) : Bool :=
  match operators.lookup text with
  | some (.binary _) => true
  | _ => false

def look (args : List String) : Lexeme :=
  match args with
  | [] => .eof
  | a :: rest =>
    match operators.lookup a with
    | none => .operand
    | some (.unary u) =>
      match rest with
      | [] => .operand
      | [_] => .operator (.unary u)
      | b :: _ => if isBinary b then .operand else .operator (.unary u)
    | some .opening => if rest.isEmpty then .operand else .operator .opening
    | some k => .operator k

/-- The arguments from the one that is looked at on. -/
abbrev Judge := StateT (List String) Act

def wrong {α : Type} (op message : String) : Judge α :=
  Act.fail (if op.isEmpty then message else s!"{op}: {message}")

def advance : Judge Unit := modify List.tail

/-! ### Operators -/

def entry? (path : String) : Act (Option Entry) := do
  let (fs, cwd) ← Act.look
  return (fs.locate cwd (Text.ofOctets path)).toOption.map fun place =>
    (fs.entry? place).getD .directory

def judgeUnary (u : Unary) (text : String) : Act Bool := do
  let e ← entry? text
  match u with
  | .empty => return text.isEmpty
  | .nonempty => return !text.isEmpty
  | .terminal =>
    let _ ← Act.integer text
    return false
  | .exists | .readable | .writable => return e.isSome
  | .file =>
    match e with
    | some (.file _) | some .program => return true
    | _ => return false
  | .directory => return e == some .directory
  | .device =>
    match e with
    | some (.device _) | some (.stream _) => return true
    | _ => return false
  | .executable => return e == some .directory || e == some .program
  | .filled =>
    match e with
    | some (.file data) => return !data.isEmpty
    | some .program | some .directory => return true
    | _ => return false
  | .never => return false

def judgeBinary (b : Binary) (x y : String) : Act Bool := do
  let numbers (f : Int → Int → Bool) : Act Bool := do
    let m ← Act.integer x
    let n ← Act.integer y
    return f m n
  match b with
  | .equal => return x == y
  | .differs => return x != y
  | .before => return x < y
  | .after => return y < x
  | .eq => numbers (· == ·)
  | .ne => numbers (· != ·)
  | .ge => numbers fun m n => n ≤ m
  | .gt => numbers fun m n => n < m
  | .le => numbers fun m n => m ≤ n
  | .lt => numbers fun m n => m < n
  | .newer | .older => return false
  | .same => do
    let (fs, cwd) ← Act.look
    let a := (fs.locate cwd (Text.ofOctets x)).toOption
    return a.isSome && a == (fs.locate cwd (Text.ofOctets y)).toOption

/-! ### Expressions -/

mutual

def disjunction : Nat → Lexeme → Judge Bool
  | 0, _ => return false
  | fuel + 1, l => do
    let a ← conjunction fuel l
    if look (← get).tail = .operator .either then
      advance
      advance
      let b ← disjunction fuel (look (← get))
      return a || b
    else return a

def conjunction : Nat → Lexeme → Judge Bool
  | 0, _ => return false
  | fuel + 1, l => do
    let a ← negation fuel l
    if look (← get).tail = .operator .both then
      advance
      advance
      let b ← conjunction fuel (look (← get))
      return a && b
    else return a

def negation : Nat → Lexeme → Judge Bool
  | 0, _ => return false
  | fuel + 1, l => do
    if l = .operator .not then
      let l := look (← get).tail
      if l ≠ .eof then advance
      return !(← negation fuel l)
    else primary fuel l

def primary : Nat → Lexeme → Judge Bool
  | 0, _ => return false
  | fuel + 1, l => do
    match l with
    | .eof => return false
    | .operator .opening =>
      advance
      let l := look (← get)
      if l = .operator .closing then return false
      else
        let a ← disjunction fuel l
        advance
        if look (← get) = .operator .closing then return a else wrong "" "closing paren expected"
    | .operator (.unary u) =>
      let op := (← get).headD ""
      advance
      match (← get).head? with
      | none => wrong op "argument expected"
      | some text => judgeUnary u text
    | _ =>
      match ← get with
      | x :: op :: rest =>
        match look (op :: rest) with
        | .operator (.binary b) =>
          match rest with
          | [] => wrong op "argument expected"
          | y :: _ =>
            advance
            advance
            judgeBinary b x y
        | _ => return !x.isEmpty
      | [x] => return !x.isEmpty
      | [] => return false

end

/-- Takes a condition apart by the number of its arguments, and judges it. Negations that are taken
off one after the other count as one. -/
def judge : Nat → Bool → List String → Act Nat
  | 0, _, _ => return 1
  | fuel + 1, negated, args => do
    let code (b : Bool) : Nat := if b != negated then 0 else 1
    let whole (l : Lexeme) (args : List String) : Act Nat := do
      let (b, rest) ← (disjunction (8 * (args.length + 2)) l).run args
      match rest with
      | "" :: _ :: _ => Act.fail "unexpected operator"
      | x :: _ :: _ => Act.fail s!"{x}: unexpected operator"
      | _ => return code b
    let general (args : List String) : Act Nat := do
      if args.length = 3 || args.length = 4 then
        if args.head? = some "(" && args.getLast? = some ")" then
          let inner := args.tail.dropLast
          whole (look inner) inner
        else if args.head? = some "!" then judge fuel true args.tail
        else whole (look args) args
      else whole (look args) args
    match args with
    | [] => return code false
    | [_, op, _] => if isBinary op then whole .operand args else general args
    | args => general args

def test (args : List String) : Act Nat := judge (args.length + 2) false args

def bracket (args : List String) : Act Nat :=
  if (args.getLast?.getD "").toList.head? = some ']' then test args.dropLast
  else Act.fail "missing ]"

end JobShell.Script.Condition
