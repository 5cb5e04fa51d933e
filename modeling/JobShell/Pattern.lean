/-!
File name patterns.

A pattern is a sequence of tokens. `?` stands for one character, `*` for any run of characters,
`**` for any run of whole path components, and a class in brackets for one character in it or, after
`!`, not in it. There are no escapes; a class of one character stands for that character.
-/

namespace JobShell

/-- A member of a class: a character or a range of them. -/
inductive Pattern.Span where
  | single (c : Char)
  | range (low high : Char)
  deriving DecidableEq

inductive Pattern.Token where
  | char (c : Char)
  | any
  | within (spans : List Span)
  | except (spans : List Span)
  | run
  | components
  deriving DecidableEq

structure Pattern where
  tokens : List Pattern.Token
  deriving DecidableEq

namespace Pattern

/-! ### Reading -/

/-- The members of a class. A `-` between two characters makes a range. -/
def spans : List Char → List Span
  | a :: '-' :: b :: cs => .range a b :: spans cs
  | c :: cs => .single c :: spans cs
  | [] => []

/-- Whether the last token stands for whole components and is not the only one. -/
def endsInComponents (tokens : List Token) : Bool :=
  1 < tokens.length && tokens.getLast? == some .components

mutual

/-- Reads a pattern on from the tokens before it; `start` says whether a component starts here.
Adjacent `**` count once, but for one at the very start. -/
def tokenize (before : List Token) (start : Bool) : List Char → Option (List Token)
  | [] => some before
  | '?' :: cs => tokenize (before ++ [.any]) false cs
  | '*' :: '*' :: '/' :: cs =>
    if start then
      tokenize (if endsInComponents before then before else before ++ [.components]) true cs
    else none
  | ['*', '*'] =>
    if start then some (if endsInComponents before then before else before ++ [.components])
    else none
  | '*' :: '*' :: _ => none
  | '*' :: cs => tokenize (before ++ [.run]) false cs
  | ['['] | ['[', '!'] => none
  | '[' :: '!' :: c :: cs => tokenizeClass before true [c] cs
  | '[' :: c :: cs => tokenizeClass before false [c] cs
  | c :: cs => tokenize (before ++ [.char c]) (c == '/') cs

/-- Reads a class up to its closing bracket. Its first character has been read and belongs to it
whatever it is. -/
def tokenizeClass (before : List Token) (negated : Bool) (body : List Char) :
    List Char → Option (List Token)
  | [] => none
  | ']' :: cs =>
    tokenize (before ++ [if negated then .except (spans body) else .within (spans body)]) false cs
  | c :: cs => tokenizeClass before negated (body ++ [c]) cs

end

def parse? (s : String) : Option Pattern := (tokenize [] true s.toList).map Pattern.mk

/-! ### Matching -/

def Span.contains (c : Char) : Span → Bool
  | .single d => c == d
  | .range low high => low ≤ c && c ≤ high

/-- How an attempt to match ends. When the text is used up while the pattern needs a character,
no longer run of an earlier `*` can help either. -/
inductive Outcome where
  | matched
  | mismatch
  | exhausted
  deriving DecidableEq

/-- Tries `rest` after longer and longer runs. With the dot rule a run does not take a dot that
starts a component; a run of components ends after a `/`. -/
def runOn (dotRule components : Bool) (rest : Bool → List Char → Outcome) :
    Bool → List Char → Outcome
  | start, [] => rest start []
  | start, c :: cs =>
    if start && dotRule && c == '.' then .mismatch
    else
      let start := c == '/'
      if components && !start then runOn dotRule components rest start cs
      else
        match rest start cs with
        | .mismatch => runOn dotRule components rest start cs
        | outcome => outcome

/-- Matches one character; a wildcard does not take a dot that starts a component if the dot rule
holds. -/
def Token.takes (dotRule start : Bool) (c : Char) : Token → Bool
  | .char d => c == d
  | .any => !(start && dotRule && c == '.')
  | .within ss => !(start && dotRule && c == '.') && ss.any (Span.contains c)
  | .except ss => !(start && dotRule && c == '.') && !ss.any (Span.contains c)
  | .run | .components => false

def matchTokens (dotRule : Bool) : List Token → Bool → List Char → Outcome
  | [], _, cs => if cs.isEmpty then .matched else .mismatch
  | .run :: ts, start, cs =>
    match matchTokens dotRule ts start cs with
    | .mismatch => runOn dotRule false (matchTokens dotRule ts) start cs
    | outcome => outcome
  | .components :: ts, start, cs =>
    match matchTokens dotRule ts start cs with
    | .mismatch => runOn dotRule true (matchTokens dotRule ts) start cs
    | outcome => outcome
  | _ :: _, _, [] => .exhausted
  | t :: ts, start, c :: cs =>
    if t.takes dotRule start c then matchTokens dotRule ts (c == '/') cs else .mismatch

/-- Whether a text matches. With the dot rule no wildcard takes a dot that starts a component. -/
def accepts (p : Pattern) (dotRule : Bool) (s : String) : Bool :=
  matchTokens dotRule p.tokens true s.toList == .matched

/-- Whether a text matches what may be a pattern; what is none matches itself. -/
def matchesText (pattern s : String) : Bool :=
  match parse? pattern with
  | some p => p.accepts false s
  | none => pattern == s

/-! ### Quoting -/

def isSpecial (c : Char) : Bool := c == '?' || c == '*' || c == '[' || c == ']'

def escapeList (cs : List Char) : List Char :=
  cs.flatMap fun c => if isSpecial c then ['[', c, ']'] else [c]

/-- The pattern that matches a text and nothing else. -/
def escape (s : String) : String := String.ofList (escapeList s.toList)

end Pattern

end JobShell
