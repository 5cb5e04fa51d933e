import JobShell.FileSystem
import JobShell.Text.Octet

/-!
Patterns of scripts, and the files whose names match them.

A pattern is a row of characters some of which are quoted. A backslash that is not quoted itself
quotes the character after it. Names are compared octet by octet.
-/

namespace JobShell.Script

/-- A character of a pattern; one that is quoted stands for itself. -/
structure Glyph where
  char : Char
  quoted : Bool := false
  deriving DecidableEq

def Glyph.is (g : Glyph) (c : Char) : Bool := !g.quoted && g.char == c

/-- What a set of characters is made of. -/
inductive Member where
  | range (first last : Char)
  | named (name : String)
  deriving DecidableEq

inductive Element where
  | char (c : Char)
  | many
  /-- Any character that is in a set, or any that is not. -/
  | oneOf (negated : Bool) (members : List Member)
  deriving DecidableEq

namespace Member

def classes : List (String × (Char → Bool)) :=
  let graphic (c : Char) : Bool := '!' ≤ c && c ≤ '~'
  [("alnum", Char.isAlphanum), ("alpha", Char.isAlpha), ("blank", fun c => c == ' ' || c == '\t'),
    ("cntrl", fun c => c < ' ' || c == '\x7f'), ("digit", Char.isDigit), ("graph", graphic),
    ("lower", Char.isLower), ("print", fun c => ' ' ≤ c && c ≤ '~'),
    ("punct", fun c => graphic c && !c.isAlphanum),
    ("space", fun c => c == ' ' || ('\t' ≤ c && c ≤ '\r')), ("upper", Char.isUpper),
    ("xdigit", fun c => c.isDigit || ('a' ≤ c.toLower && c.toLower ≤ 'f'))]

def rank (c : Char) : Int := if c.toNat < 128 then c.toNat else (c.toNat : Int) - 256

def holds (c : Char) : Member → Bool
  | .range a b => rank a ≤ rank c && rank c ≤ rank b
  | .named n => ((classes.lookup n).map (· c)).getD false

end Member

/-! ### Reading patterns -/

def Glyph.settle : List Glyph → List Glyph
  | g :: h :: rest =>
    if g.is '\\' then ⟨h.char, true⟩ :: settle rest else g :: settle (h :: rest)
  | gs => gs.map fun g => if g.is '\\' then ⟨'\\', true⟩ else g

def takeClass? (gs : List Glyph) : Option (Member × List Glyph) :=
  Member.classes.findSome? fun (name, _) =>
    let text := ("[:" ++ name ++ ":]").toList
    if gs.take text.length = text.map (⟨·, false⟩) then some (.named name, gs.drop text.length)
    else none

def takeSet? (gs : List Glyph) : Option (Element × List Glyph) := do
  let negated := gs.head?.any fun g => g.is '!' || g.is '^'
  let mut (members, rest) := ([], if negated then gs.tail else gs)
  for first in true :: gs.map fun _ => false do
    let g :: gs := rest | none
    if g.is ']' && !first then return (.oneOf negated members.reverse, gs)
    let (m, more) := (takeClass? rest).getD <|
      match gs with
      | d :: e :: more =>
        if d.is '-' && !e.is ']' then (.range g.char e.char, more) else (.range g.char g.char, gs)
      | _ => (.range g.char g.char, gs)
    (members, rest) := (m :: members, more)
  none

def elementsOf : Nat → List Glyph → List Element
  | 0, _ => []
  | _, [] => []
  | fuel + 1, g :: gs =>
    let (e, rest) :=
      if g.is '*' then (.many, gs)
      else if g.is '?' then (.oneOf true [], gs)
      else ((if g.is '[' then takeSet? gs else none).getD (.char g.char, gs))
    e :: elementsOf fuel rest

def elements (gs : List Glyph) : List Element := elementsOf gs.length (Glyph.settle gs)

/-! ### Matching -/

def suffixes : Chars → List Chars
  | [] => [[]]
  | c :: cs => (c :: cs) :: suffixes cs

def matchElements : List Element → Chars → Bool
  | [], s => s.isEmpty
  | .many :: es, s =>
    if es.isEmpty then true
    else if es.head? = some .many then matchElements es s
    else (suffixes s).any (matchElements es)
  | _ :: _, [] => false
  | .char c :: es, d :: ds => c == d && matchElements es ds
  | .oneOf negated ms :: es, d :: ds => ms.any (·.holds d) != negated && matchElements es ds

def matchGlyphs (pattern : List Glyph) (text : Chars) : Bool :=
  matchElements (elements pattern) text

/-- Cuts off the shortest or the longest start of a text that matches a pattern, or such an end. -/
def trim (atEnd : Bool) (pattern : List Glyph) (longest : Bool) (text : Chars) : Chars :=
  let es := elements pattern
  let (cut, left) := if atEnd then (text.drop, text.take) else (text.take, text.drop)
  let sizes := List.range (text.length + 1)
  let sizes := if longest != atEnd then sizes.reverse else sizes
  ((sizes.find? fun n => matchElements es (cut n)).map left).getD text

/-- Cuts off a start of several texts in a row. A pattern sees no further than the first text; what
is longer than it counts as the whole of it. -/
def trimStarts (pattern : List Glyph) (longest : Bool) : List Chars → List Chars
  | [] => []
  | text :: texts =>
    if longest && !texts.isEmpty && matchGlyphs pattern text then [[]]
    else trim false pattern longest text :: texts

/-- Cuts off an end of several texts in a row, with all texts after it. A pattern sees one text at a
time: the first one, or the last one that has such an end. -/
def trimEnds (pattern : List Glyph) (longest : Bool) (texts : List Chars) : List Chars :=
  let fits (text : Chars) : Bool := (suffixes text).any (matchGlyphs pattern)
  if longest then
    match texts with
    | [] => []
    | text :: more => if fits text then [trim true pattern true text] else text :: more
  else
    match texts.reverse.dropWhile (!fits ·) with
    | [] => texts
    | text :: before => (trim true pattern false text :: before).reverse

/-! ### File names -/

def isActive (gs : List Glyph) : Bool :=
  (elements gs).any fun e =>
    match e with
    | .char _ => false
    | _ => true

def components (gs : List Glyph) : List (List Glyph) :=
  (Glyph.settle gs).splitOnP (·.char == '/')

def listing (fs : FileSystem) (cwd : Place) (directory : Chars) : List Chars :=
  let path := if directory.isEmpty then "." else Text.ofOctets (String.ofList directory)
  match fs.locate cwd path with
  | .ok place =>
    if fs.isDirectory place then
      [['.'], ['.', '.']] ++ (fs.children place).map fun n => (Text.octets n).toList
    else []
  | .error _ => []

/-- The paths that match the names that are left, after what was found for those before. -/
def search (fs : FileSystem) (cwd : Place) : List (List Glyph) → Chars → List Chars
  | [], _ => []
  | gs :: rest, found =>
    let further (path : Chars) : List Chars :=
      if rest.isEmpty then [path] else search fs cwd rest (path ++ ['/'])
    if isActive gs then
      let names := (listing fs cwd found).filter fun n =>
        (n.head? != some '.' || gs.head?.any (·.char == '.')) && matchGlyphs gs n
      names.flatMap fun n => further (found ++ n)
    else
      let path := found ++ gs.map (·.char)
      if rest.isEmpty && !fs.exists? cwd (Text.ofOctets (String.ofList path)) then []
      else further path

/-- Files whose paths match a pattern, in order; none if there is nothing to look for. -/
def filesMatching (fs : FileSystem) (cwd : Place) (pattern : List Glyph) : List Chars :=
  let names := components pattern
  if names.any isActive then
    (search fs cwd names []).mergeSort fun a b => !(b < a)
  else []

end JobShell.Script
