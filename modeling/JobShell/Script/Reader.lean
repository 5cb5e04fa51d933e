import JobShell.Script.Token

/-!
Reading commands from the text of a script.

A command is read up to the end of its line. Words hold the commands whose output replaces a part of
them, so that words and commands are read by turns.
-/

namespace JobShell.Script

open Read

def Body.andThen (b : Body) (n : Node) : Body := some (b.elim n (.sequence · n))

def Node.inBackground (line : Nat) : Node → Node
  | .pipeline cs _ => .pipeline cs true
  | .redirected l b rs => .background l b rs
  | n => .background line (some n) []

def Redirect.ofCopy (fd : Nat) (w : Word) : Redirect :=
  match w.plain?.map String.toList with
  | some ['-'] => .copy fd none
  | some [c] => if c.isDigit then .copy fd (some (c.toNat - 48)) else .copyNamed fd w
  | _ => .copyNamed fd w

/-- The texts that were read, with those that are missing. -/
def Reader.allDocuments (r : Reader) : List (Nat × Word) :=
  r.documents ++ r.pending.map ((·.id, []))

namespace Read

def unexpected {α : Type} (t : Token) (expected : Option Token := none) : Read α :=
  fail (t.shown ++ " unexpected" ++ expected.elim "" fun e => s!" (expecting {e.shown})")

def doubleEscape (special : Char → Bool) (acc : List Part) : Read (List Part) := do
  let c ← char
  let acc := if c.any special then acc else .char '\\' true :: acc
  return c.toList.map (.char · true) ++ acc

/-- The operator after the name of a parameter in braces, and whether a word follows it. -/
def operator (c : Option Char) : Read (Operator × Bool) := do
  let byLetter (orEmpty : Bool) (c : Option Char) : Operator :=
    match c with
    | some '-' => .otherwise orEmpty
    | some '+' => .instead orEmpty
    | some '?' => .demand orEmpty
    | some '=' => .assign orEmpty
    | _ => .senseless
  match c with
  | some '\x7d' => return (.value, false)
  | some ':' =>
    let c ← next
    return (if c = some '\x7d' then .value else byLetter true c, true)
  | some '#' => return (.trim false (← accept '#'), true)
  | some '%' => return (.trim true (← accept '%'), true)
  | c => return (byLetter false c, true)

def nameFrom (c : Char) : Read (Option String) := do
  if !isNameStart c && !c.isDigit then return none
  let rest ← run (if c.isDigit then Char.isDigit else isNameChar)
  return String.ofList (c :: rest)

/-- The name of a parameter in braces, its operator, and whether a word follows. -/
def braced : Read (String × Operator × Bool) := do
  let senseless : String × Operator × Bool := ("", .senseless, true)
  let some c ← next | return senseless
  if let some name ← nameFrom c then return (name, ← operator (← next))
  if c = '#' then
    let some d ← next | return ("#", ← operator (← next))
    if let some name ← nameFrom d then return (name, .length, true)
    let e ← next
    unread e
    if d = '\x7d' || e ≠ some '\x7d' then return ("#", ← operator (some d))
    return if isSpecialParameter d then (d.toString, .length, true) else senseless
  if isSpecialParameter c then return (c.toString, ← operator (← next))
  if c = '\x7d' then unread (some c)
  return senseless

/-- The place a word is read in: whether it is quoted, and whether it is a text of the script. -/
structure Setting where
  double : Bool := false
  document : Bool := false

/-- How that is read which may stand inside of itself. -/
structure Nested where
  dollar : Setting → Read (List Part)
  command : Read Node
  /-- Whether a list is at the top of a script, and whether it may be empty. -/
  list : Bool → Bool → Read Body
  choice : Read Node

variable (inner : Nested)

/-! ### Words -/

def backquote (quoted : Bool) : Read Part := do
  let text ← backquoted quoted
  let outer ← get
  set { outer with text, complete := true, line := 1, pushed := [], back := none, check := {},
                   pending := [] }
  let n ← inner.list false true
  let r ← get
  set { outer with documents := r.allDocuments, nextDocument := r.nextDocument }
  return .output n quoted

/-- Reads a character, and what it stands for, in double quotes. -/
def doublePart (s : Setting) (special : Char → Bool) (acc : List Part) : Char → Read (List Part)
  | '\\' => doubleEscape special acc
  | '$' => return (← inner.dollar s) ++ acc
  | '\x60' => return (← backquote inner true) :: acc
  | c => do
    if c = '\n' then nextLine
    return .char c true :: acc

def isQuotedSpecial (c : Char) : Bool := isDoubleSpecial c || c == '"'

def double (delimiter : Bool) (start : List Part) : Read (List Part) := do
  let mut acc := start
  for _ in [:ample] do
    match ← next with
    | none => fail "Unterminated quoted string"
    | some '"' => return acc
    | some c =>
      if delimiter && (c = '$' || c = '\x60') then acc := .char c true :: acc
      else acc ← doublePart inner { double := true } isQuotedSpecial acc c
  throw .more

def bare (nested delimiter : Bool) : Read (List Part × Bool) := do
  let mut acc := []
  let mut quoted := false
  for _ in [:ample] do
    match ← next with
    | none => if nested then fail "Missing '\x7d'" else return (acc, quoted)
    | some '\\' =>
      let c ← char
      acc := .char (c.getD '\\') true :: acc
      quoted := quoted || c.isSome
    | some '\'' =>
      acc := .mark :: (← single (.mark :: acc))
      quoted := true
    | some '"' =>
      acc := .mark :: (← double inner delimiter (.mark :: acc))
      quoted := true
    | some c =>
      if c = '$' && !delimiter then acc := (← inner.dollar {}) ++ acc
      else if c = '\x60' && !delimiter then acc := (← backquote inner false) :: acc
      else if nested && c = '\x7d' then return (acc, quoted)
      else if !nested && "\n \t&;|()<>".toList.contains c then
        unread (some c)
        return (acc, quoted)
      else
        if c = '\n' then nextLine
        acc := .char c false :: acc
        quoted := quoted || c = '\x60'
  throw .more

/-- The rest of a line in which parameters and commands are replaced, with its end. -/
def documentLine (start : List Part) : Read (List Part × Bool) := do
  let mut acc := start
  for _ in [:ample] do
    let some c ← next | return (acc, true)
    acc ← doublePart inner ⟨true, true⟩ isDoubleSpecial acc c
    if c = '\n' then return (acc, false)
  throw .more

def documentText (d : PendingDocument) : Read Word := do
  let mut acc := []
  for _ in [:ample] do
    if ← takeDelimiter d then return acc.reverse
    let mut ended := false
    if d.literal then
      let cs ← line
      acc := cs.reverse.map (.char · true) ++ acc
      ended := cs.isEmpty
    else (acc, ended) ← documentLine inner acc
    if ended then return acc.reverse
  throw .more

def documents : Read Unit := do
  for d in (← get).pending do
    let w ← documentText inner d
    modify fun r => { r with pending := r.pending.tail, documents := r.documents ++ [(d.id, w)] }

/-! ### Tokens -/

/-- The next token, before it is known whether a word is a keyword or an alias. -/
def rawToken : Read Token := do
  let r ← get
  if let some t := r.back then
    set { r with back := none }
    return t
  for _ in [:ample] do
    match ← next with
    | none => return .eof
    | some ' ' | some '\t' => pure ()
    | some '#' => comment
    | some '\n' =>
      nextLine
      return .newline
    | some '&' => return if ← accept '&' then .both else .ampersand
    | some '|' => return if ← accept '|' then .either else .pipe
    | some ';' => return if ← accept ';' then .clauseEnd else .semicolon
    | some '(' => return .opening
    | some ')' => return .closing
    | some c =>
      unread (some c)
      let (parts, quoted) ← bare inner false r.check.delimiter
      let fd? : Option (Option Nat) :=
        match parts with
        | [] => some none
        | [.char d false] => if d.isDigit then some (some (d.toNat - 48)) else none
        | _ => none
      if let (some fd, false) := (fd?, quoted) then
        let a ← next
        if a = some '<' || a = some '>' then
          let (own, kind) ← arrow (a = some '>')
          return .redirect (fd.getD own) kind
        unread a
      return .word parts.reverse quoted
  throw .more

def pastNewlines : Read Token := do
  for _ in [:ample] do
    let t ← rawToken inner
    unless t.is .newline do return t
    documents inner
    expect {}
  throw .more

def token : Read Token := do
  for _ in [:ample] do
    let wanted := (← get).check
    let t ← if wanted.newlines then pastNewlines inner else rawToken inner
    let r ← get
    let recent : Word :=
      match t with
      | .word w _ => w
      | _ => r.recent
    set { r with check := {}, recent }
    let .word w false := t | return t
    let some text := w.plain? | return t
    if wanted.keywords && keywords.contains text then return .keyword text
    unless (wanted.aliases || r.check.aliases) && !r.pushed.any (·.name == text) do return t
    let some value := r.aliases.lookup text | return t
    let cs := value.toList
    let blank := cs.getLast?.any fun c => c == ' ' || c == '\t'
    modify fun r => { r with
      pushed := ⟨cs, text, blank⟩ :: r.pushed
      check := { wanted with delimiter := false } }
  throw .more

def demand (expected : Token) : Read Unit := do
  let t ← token inner
  unless t.is expected do unexpected t (some expected)

def keyword (k : String) : Read Unit := demand inner (.keyword k)

/-- Takes a token if it is the next one. -/
def takes (expected : Token) : Read Bool := do
  let t ← token inner
  unless t.is expected do pushBack t
  return t.is expected

/-! ### What a dollar sign stands for -/

/-- A word in braces inside of double quotes, or in a text of the script, up to the closing brace.
More double quotes in it only protect braces. -/
def doubleOperand (document : Bool) : Read (List Part) := do
  let mut acc := []
  let mut guarded := false
  for _ in [:ample] do
    match ← next with
    | none => fail (if document then "Missing '\x7d'" else "Unterminated quoted string")
    | some '"' =>
      guarded := !guarded
      unless document do acc := .mark :: acc
    | some c =>
      if c = '\x7d' && !guarded then return acc
      let special (c : Char) : Bool := isQuotedSpecial c || (c == '\x7d' && !guarded)
      acc ← doublePart inner ⟨true, document⟩ special acc c
  throw .more

def arithmeticText : Read (List Part) := do
  let mut acc := []
  let mut depth := 0
  for _ in [:ample] do
    let some c ← next | fail "Missing '))'"
    if c = ')' && depth = 0 then
      if ← accept ')' then return acc
    if c = '(' then depth := depth + 1
    else if c = ')' then depth := depth - 1
    acc ← doublePart inner { double := true } isQuotedSpecial acc c
  throw .more

def parenthesized : Read Body := do
  let outer ← get
  set { outer with back := none, check := {}, pending := [] }
  let n ← inner.list false true
  demand inner .closing
  modify fun r =>
    { r with back := none, pending := outer.pending, documents := r.allDocuments }
  return n

def dollar (s : Setting) : Read (List Part) := do
  match ← next with
  | some '(' =>
    if ← accept '(' then return [.arithmetic (← arithmeticText inner).reverse s.double]
    else return [.output (← parenthesized inner) s.double]
  | some '\x7b' =>
    let (name, op, more) ← braced
    let trims : Bool :=
      match op with
      | .trim _ _ => true
      | _ => false
    let operand ←
      if !more then pure []
      else if s.double && !trims then doubleOperand inner s.document
      else Prod.fst <$> bare inner true false
    return [.parameter name op s.double operand.reverse]
  | c =>
    let some c := c.filter fun c => isNameStart c || isSpecialParameter c
      | do
        unread c
        return [.char '$' s.double]
    let rest ← if isNameStart c then run isNameChar else pure []
    return [.parameter (String.ofList (c :: rest)) .value s.double []]

/-! ### Commands -/

def redirect (fd : Nat) (kind : Arrow) : Read Redirect := do
  if let .document _ := kind then expect { delimiter := true }
  match ← token inner with
  | .word w quoted =>
    match kind with
    | .file how => return .file fd how w
    | .copy => return .ofCopy fd w
    | .document stripTabs =>
      let r ← get
      let d : PendingDocument := ⟨r.nextDocument, w.characters, stripTabs, quoted⟩
      set { r with pending := r.pending ++ [d], nextDocument := r.nextDocument + 1 }
      return .document fd d.id
  | t => unexpected t

def redirects : Read (List Redirect) := do
  let mut acc := []
  for _ in [:ample] do
    match ← token inner with
    | .redirect fd kind => acc := (← redirect inner fd kind) :: acc
    | t =>
      pushBack t
      return acc.reverse
  throw .more

/-- A list that has at least one command. -/
def block : Read Body := inner.list false false

def choice : Read Node := do
  let test ← block inner
  keyword inner "then"
  let yes ← block inner
  if ← takes inner (.keyword "elif") then return .choice test yes (some (← inner.choice))
  else if ← takes inner (.keyword "else") then return .choice test yes (← block inner)
  else return .choice test yes none

def loopBody : Read Body := do
  keyword inner "do"
  let body ← block inner
  keyword inner "done"
  return body

def words : Read (List Word) := do
  let mut acc := []
  for _ in [:ample] do
    match ← token inner with
    | .word w _ => acc := w :: acc
    | .newline | .semicolon => return acc.reverse
    | t => unexpected t
  throw .more

def iteration (line : Nat) : Read Node := do
  let t ← token inner
  let name? : Option String :=
    match t with
    | .word w false => w.plain?.filter isName
    | _ => none
  let some name := name? | fail "Bad for loop variable"
  expect .body
  let values ←
    if ← takes inner (.keyword "in") then words inner
    else do
      let _ ← takes inner .semicolon
      pure [[.mark, .parameter "@" .value true [], .mark]]
  expect .body
  return .iteration line name values (← loopBody inner)

/-- Patterns between vertical bars, up to the token after them. A token that is no word stands for
the word before it. -/
def patterns : Read (List Word) := do
  let mut acc := []
  for _ in [:ample] do
    acc := (← get).recent :: acc
    if ← takes inner .pipe then
      let _ ← token inner
    else return acc.reverse
  throw .more

def clauses : Read (List Clause) := do
  let mut acc := []
  for _ in [:ample] do
    expect { newlines := true, keywords := true }
    let t ← token inner
    if t.is (.keyword "esac") then return acc.reverse
    if t.is .opening then
      let _ ← token inner
    let ps ← patterns inner
    demand inner .closing
    acc := Clause.mk ps (← inner.list false true) :: acc
    expect { newlines := true, keywords := true }
    let t ← token inner
    if t.is (.keyword "esac") then return acc.reverse
    unless t.is .clauseEnd do unexpected t (some .clauseEnd)
  throw .more

def selection (line : Nat) : Read Node := do
  match ← token inner with
  | .word w _ =>
    expect .body
    keyword inner "in"
    return .selection line w (← clauses inner)
  | t => unexpected t (some (.word [] false))

def simple (line : Nat) : Read Node := do
  let mut front := true
  let mut assignments := []
  let mut args := []
  let mut rs := []
  for _ in [:ample] do
    if front then expect { aliases := true }
    match ← token inner with
    | .word w _ =>
      front := front && w.assignment?.isSome
      if front then assignments := w :: assignments else args := w :: args
    | .redirect fd kind => rs := (← redirect inner fd kind) :: rs
    | t =>
      if let (.opening, [], [w], []) := (t, assignments, args, rs) then
        demand inner .closing
        let some name := w.plain?.filter fun n => isName n && !specialCommands.contains n
          | fail "Bad function name"
        expect .body
        let start := (← get).line
        return .definition start name (← inner.command)
      pushBack t
      return .simple line assignments.reverse args.reverse rs.reverse
  throw .more

def command : Read Node := do
  let line := (← get).line
  let finish (n : Node) : Read Node := do
    expect .command
    match ← redirects inner, n with
    | [], n => return n
    | rs, .subshell l b _ => return .subshell l b rs
    | rs, n => return .redirected line (some n) rs
  match ← token inner with
  | .keyword "if" =>
    let n ← inner.choice
    keyword inner "fi"
    finish n
  | .keyword "while" => finish (.loop true (← block inner) (← loopBody inner))
  | .keyword "until" => finish (.loop false (← block inner) (← loopBody inner))
  | .keyword "for" => finish (← iteration inner line)
  | .keyword "case" => finish (← selection inner line)
  | .keyword "\x7b" =>
    let n ← block inner
    keyword inner "\x7d"
    finish (n.getD (.redirected line none []))
  | .opening =>
    let n ← block inner
    demand inner .closing
    finish (.subshell line n [])
  | t =>
    match t with
    | .word .. | .redirect .. =>
      pushBack t
      simple inner line
    | t => unexpected t

def pipelineNode : Read Node := do
  let negated ← takes inner (.keyword "!")
  if negated then expect .command
  let mut commands := [← command inner]
  for _ in [:ample] do
    unless ← takes inner .pipe do
      let n : Node :=
        match commands with
        | [n] => n
        | ns => .pipeline ns.reverse false
      return if negated then .negation n else n
    expect .body
    commands := (← command inner) :: commands
  throw .more

def andOr : Read Node := do
  let mut n ← pipelineNode inner
  for _ in [:ample] do
    let t ← token inner
    unless t.is .both || t.is .either do
      pushBack t
      return n
    expect .body
    let m ← pipelineNode inner
    n := if t.is .both then .both n m else .either n m
  throw .more

/-- A list of commands. One at the top of a script ends with its line. Others end before a token
that cannot start a command; `started` says whether they may do so at once. -/
def list (top started : Bool) : Read Body := do
  let mut acc : Body := none
  let mut started := started
  for _ in [:ample] do
    expect { Check.command with newlines := !top }
    let t ← token inner
    if t.is .newline || t.is .eof then documents inner
    unless t.is .newline do pushBack t
    if t.is .newline || t.is .eof || (!top && started && t.endsList) then return acc
    let n ← andOr inner
    let line := (← get).line
    let t ← token inner
    acc := acc.andThen (if t.is .ampersand then n.inBackground line else n)
    started := true
    unless t.is .ampersand || t.is .semicolon do
      if t.is .eof then documents inner
      else if top && !t.is .newline then unexpected t
      pushBack t
      unless t.is .newline do return acc
  throw .more

/-- The depth to which reading may be nested is ample. -/
def nested : Nat → Nested
  | 0 => ⟨fun _ => throw .more, throw .more, fun _ _ => throw .more, throw .more⟩
  | fuel + 1 => {
      dollar := fun s r => dollar (nested fuel) s r
      command := fun r => command (nested fuel) r
      list := fun top started r => list (nested fuel) top started r
      choice := fun r => choice (nested fuel) r }

end Read

/-- What is read at a time: the commands of a line, if there are any, or the end. -/
inductive Portion where
  | commands (b : Body)
  | finished

namespace Reader

def atEnd (r : Reader) : Bool := r.back.any (·.is .eof)

def portion (r : Reader) : Except ReadError (Portion × Reader) := do
  let r := { r with back := none, check := {}, pending := [] }
  let (n, r) ← StateT.run ((Read.nested Read.ample).list true false) r
  return (if n.isNone && r.atEnd then .finished else .commands n, r)

end Reader

end JobShell.Script
