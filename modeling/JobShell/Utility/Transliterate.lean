import JobShell.Utility.Tool

/-!
Transliteration: bytes of one set become bytes of another, are deleted, or are run together.

A set is written as a row of bytes, ranges, classes and repeated bytes.
-/

namespace JobShell.Utility.Transliterate

/-! ### Sets -/

/-- A byte of a set as it was written, whether it was escaped, and what is to be said of that. -/
structure Mark where
  byte : UInt8
  escaped : Bool := false
  note : Option String := none
  deriving DecidableEq

inductive Element where
  | byte (b : UInt8)
  | range (first last : UInt8)
  | named (name : String)
  | equivalent (b : UInt8)
  /-- Without a count a byte is repeated as often as needed. -/
  | repeated (b : UInt8) (count : Option Nat)
  deriving DecidableEq

def between (a b : UInt8) : Bytes :=
  (List.range (b.toNat + 1 - a.toNat)).map fun i => UInt8.ofNat (a.toNat + i)

def classes : List (String × Bytes) :=
  let upper := between 65 90
  let lower := between 97 122
  let digit := between 48 57
  let punct := between 33 47 ++ between 58 64 ++ between 91 96 ++ between 123 126
  [("alnum", digit ++ upper ++ lower), ("alpha", upper ++ lower), ("blank", [9, 32]),
    ("cntrl", between 0 31 ++ [127]), ("digit", digit), ("graph", between 33 126), ("lower", lower),
    ("print", between 32 126), ("punct", punct), ("space", between 9 13 ++ [32]), ("upper", upper),
    ("xdigit", digit ++ between 65 70 ++ between 97 102)]

namespace Element

def bytes : Element → Bytes
  | .byte b | .equivalent b => [b]
  | .range a b => between a b
  | .named n => (classes.lookup n).getD []
  | .repeated b count => List.replicate (count.getD 0) b

def isEndless : Element → Bool
  | .repeated _ none => true
  | _ => false

def case? : Element → Option Bool
  | .named "upper" => some true
  | .named "lower" => some false
  | _ => none

def isNamed : Element → Bool
  | .named _ => true
  | _ => false

end Element

/-! ### Reading sets -/

def isOctal (c : Char) : Bool := '0' ≤ c && c ≤ '7'

def ofOctal (cs : Chars) : Nat := cs.foldl (fun n c => n * 8 + (c.toNat - 48)) 0

/-- Takes escapes apart. A number of three digits that is too large ends before the last one. A
backslash at the end stands for itself. -/
def marks (text : Chars) : List Mark := Id.run do
  let mut (found, rest) : Array Mark × Chars := (#[], text)
  for _ in text do
    let c :: more := rest | break
    let (m, more) : Mark × Chars :=
      match c, more with
      | '\\', [] =>
        (⟨92, false, "warning: an unescaped backslash at end of string is not portable"⟩, [])
      | '\\', a :: more =>
        let digits := ((a :: more).take 3).takeWhile isOctal
        let n := ofOctal digits
        if digits.isEmpty then (⟨((Quote.control? a).getD a).toNat.toUInt8, true, none⟩, more)
        else if n < 256 then (⟨n.toUInt8, true, none⟩, (a :: more).drop digits.length)
        else
          let (first, last) := (String.ofList (digits.take 2), String.ofList (digits.drop 2))
          let note := "warning: the ambiguous octal escape \\" ++ first ++ last ++ " is being\n" ++
            "\tinterpreted as the 2-byte sequence \\0" ++ first ++ ", " ++ last
          (⟨(n / 8).toUInt8, true, note⟩, more.drop 1)
      | c, more => ({ byte := c.toNat.toUInt8 }, more)
    (found, rest) := (found.push m, more)
  return found.toList

def Mark.is (m : Mark) (c : Char) : Bool := !m.escaped && m.byte == c.toNat.toUInt8

/-- What stands before a delimiter with a bracket after it, and what follows them. -/
def upTo (delimiter : Char) : List Mark → Option (List Mark × List Mark)
  | a :: b :: rest =>
    if a.is delimiter && b.is ']' then some ([], rest)
    else (upTo delimiter (b :: rest)).map fun (inner, rest) => (a :: inner, rest)
  | _ => none

def shownByte (b : UInt8) : String :=
  let c := Text.octet b
  if c = '\\' then "\\\\"
  else if Quote.isPrintable c then c.toString
  else String.ofList (Quote.escapeOf c)

def shownText (ms : List Mark) : String := String.join (ms.map (shownByte ·.byte))

/-- A way to read an element: it may not apply, or find a mistake. -/
abbrev Reading := OptionT (Except String) (Element × List Mark)

def repeatCount? (ms : List Mark) : Option (Option Nat) :=
  let cs := (ms.map (Text.octet ·.byte))
  if cs.isEmpty then some none
  else if cs.head? ≠ some '0' then (Text.digits? cs).map some
  else if cs.all isOctal then
    some (if ofOctal cs = 0 then none else some (ofOctal cs))
  else none

def repeated (ms : List Mark) : Reading := do
  let b :: star :: rest := ms | failure
  let digits := rest.takeWhile fun m => !m.escaped && !m.is ']'
  let close :: after := rest.drop digits.length | failure
  unless star.is '*' && close.is ']' do failure
  let some count := repeatCount? digits
    | throwThe String s!"invalid repeat count {Quote.plain (shownText digits)} in [c*n] construct"
  return (.repeated b.byte count, after)

def looksRepeated (ms : List Mark) : Bool :=
  let rest := ms.tail.dropWhile fun m => !m.escaped && (Text.octet m.byte).isDigit
  ms.head?.any (·.is '*') && rest.head?.any (·.is ']')

/-- A class in brackets, if there is one: it has to be known, unless it can be read as a
repetition. -/
def inClass (ms : List Mark) : Reading := do
  let kind :: rest := ms | failure
  let named := kind.is ':'
  unless named || kind.is '=' do failure
  let some (inner, after) := upTo (Text.octet kind.byte) rest | failure
  if inner.isEmpty then
    throwThe String (if named then "missing character class name '[::]'"
      else "missing equivalence class character '[==]'")
  let name := Text.ofBytes (inner.map (·.byte))
  if named && (classes.lookup name).isSome then return (.named name, after)
  if let (false, [m]) := (named, inner) then return (.equivalent m.byte, after)
  if looksRepeated rest then failure
  throwThe String (if named then s!"invalid character class {Quote.plain (shownText inner)}"
    else shownText inner ++ ": equivalence class operand must be a single character")

def inRange (ms : List Mark) : Reading := do
  let a :: dash :: b :: rest := ms | failure
  unless dash.is '-' do failure
  unless a.byte ≤ b.byte do
    let ends := shownByte a.byte ++ "-" ++ shownByte b.byte
    throwThe String s!"range-endpoints of '{ends}' are in reverse collating sequence order"
  return (.range a.byte b.byte, rest)

def next (ms : List Mark) : Reading := do
  let a :: rest := ms | failure
  let bracketed : Reading :=
    if a.is '[' && 2 ≤ rest.length then inClass rest <|> repeated rest else failure
  bracketed <|> inRange ms <|> return (.byte a.byte, rest)

def parse (ms : List Mark) : Except String (List Element) := do
  let mut (found, rest) : Array Element × List Mark := (#[], ms)
  for _ in ms do
    let some (e, more) ← (next rest).run | break
    (found, rest) := (found.push e, more)
  return found.toList

/-! ### Two sets -/

def size (es : List Element) : Nat := (es.flatMap Element.bytes).length

/-- A byte of a set, with the case it stands for and whether it is the first of its element. -/
structure Slot where
  byte : UInt8
  case? : Option Bool := none
  fresh : Bool := true

def slots (es : List Element) : List Slot :=
  es.flatMap fun e => e.bytes.mapIdx fun i b => ⟨b, e.case?, i == 0⟩

def pastElement : List Slot → List Slot
  | [] => []
  | _ :: rest => rest.dropWhile (!·.fresh)

/-- Whether each class of letters in the second set faces one in the first, and how many bytes
stand for letters past the first of their class. -/
def aligned : Nat → List Slot → List Slot → Except String (Nat × Nat)
  | 0, _, _ => .ok (0, 0)
  | fuel + 1, a :: as, b :: bs =>
    if b.fresh && b.case?.isSome && !(a.fresh && a.case?.isSome) then
      .error "misaligned [:upper:] and/or [:lower:] construct"
    else if b.case?.isSome then
      (aligned fuel (pastElement (a :: as)) (pastElement (b :: bs))).map fun (m, n) =>
        (m + 25, n + 25)
    else aligned fuel as bs
  | _, _, _ => .ok (0, 0)

def extend (es : List Element) (count : Nat) : Except String (List Element) :=
  match es.getLast? with
  | none => .error "when not truncating set1, string2 must be non-empty"
  | some (.byte b) | some (.range _ b) | some (.repeated b _) | some (.equivalent b) =>
    .ok (es ++ [.repeated b (some count)])
  | some (.named _) =>
    .error ("when translating with string1 longer than string2,\n" ++
      "the latter string must not end with a character class")

def fill (es : List Element) (length : Nat) : List Element :=
  es.map fun e =>
    match e with
    | .repeated b none => .repeated b (some (length - size es))
    | e => e

structure Settings where
  complement : Bool := false
  delete : Bool := false
  squeeze : Bool := false
  truncate : Bool := false

def complementOf (bytes : Bytes) : Bytes := (between 0 255).filter (!bytes.contains ·)

def fit (s : Settings) (first second : List Element) : Except String (List Element) := do
  let length := if s.complement then (complementOf (first.flatMap Element.bytes)).length
    else size first
  if 1 < second.countP Element.isEndless then
    throw "only one [c*] repeat construct may appear in string2"
  let second := fill second length
  if second.any (· matches .equivalent _) then
    throw "[=c=] expressions may not appear in string2 when translating"
  if second.any fun e => e.isNamed && e.case?.isNone then
    throw ("when translating, the only character classes that may appear in\n" ++
      "string2 are 'upper' and 'lower'")
  let (a, b) ←
    if s.complement || !second.any Element.isNamed then pure (0, 0)
    else aligned (length + size second + 1) (slots first) (slots second)
  let (m, n) := (length - a, size second - b)
  let second ← if n < m && !s.truncate then extend second (m - n) else pure second
  let bytes := second.flatMap Element.bytes
  if s.complement && first.any Element.isNamed &&
      !(bytes.length == length && bytes.all (some · == bytes.head?)) then
    throw ("when translating with complemented character classes,\n" ++
      "string2 must map all characters in the domain to one")
  return second

/-- The pairs of a change; classes of letters that face each other change the case. -/
def pairs : Nat → List Slot → List Slot → List (UInt8 × UInt8)
  | 0, _, _ => []
  | fuel + 1, a :: as, b :: bs =>
    let rest := pairs fuel (pastElement (a :: as)) (pastElement (b :: bs))
    match a.case?, b.case? with
    | some false, some true => (between 97 122).map (fun l => (l, l - 32)) ++ rest
    | some true, some false => (between 65 90).map (fun l => (l, l + 32)) ++ rest
    | _, _ => (a.byte, b.byte) :: pairs fuel as bs
  | _, _, _ => []

def changes (s : Settings) (first second : List Element) : List (UInt8 × UInt8) :=
  if s.complement then
    (complementOf (first.flatMap Element.bytes)).zip (second.flatMap Element.bytes)
  else (pairs (size first + size second + 1) (slots first) (slots second)).reverse

/-! ### Filtering -/

/-- What is done to bytes: each becomes another or is dropped, and runs of some are cut. -/
structure Filter where
  change : UInt8 → Option UInt8 := some
  cut : UInt8 → Bool := fun _ => false

def Filter.apply (f : Filter) (last : Option UInt8) (data : Bytes) : Bytes × Option UInt8 :=
  let (out, last) := data.foldl (fun ((out : Bytes), last) b =>
    match f.change b with
    | none => (out, last)
    | some c => if f.cut c && last == some c then (out, last) else (c :: out, some c)) ([], last)
  (out.reverse, last)

def relay (name : String) (f : Filter) : Action Nat := do
  let mut last := none
  for _ in [:Program.patience] do
    let data ← Tool.require name "read error" 1 (← Action.read 0 8192)
    if data.isEmpty then return 0
    let (out, new) := f.apply last data
    Tool.output name out
    last := new
  return 0

def table {α : Type} (f : UInt8 → α) : UInt8 → α :=
  let images := ((List.range 256).map fun i => f i.toUInt8).toArray
  fun b => images[b.toNat]?.getD (f b)

def filter (s : Settings) (first : List Element) (second : Option (List Element)) :
    Except String Filter := do
  let listed := first.flatMap Element.bytes
  let domain := table ((if s.complement then complementOf listed else listed).contains ·)
  let outside (b : UInt8) : Option UInt8 := if domain b then none else some b
  if first.any Element.isEndless then throw "the [c*] repeat construct may not appear in string1"
  let some second := second
    | return if s.delete then { change := outside } else { cut := domain }
  if s.delete then
    if second.any Element.isEndless then
      throw "the [c*] construct may appear in string2 only when translating"
    return { change := outside, cut := table ((second.flatMap Element.bytes).contains ·) }
  let second ← fit s first second
  let found := changes s first second
  let image := table fun b => (found.lookup b).getD b
  let cut := table ((second.flatMap Element.bytes).contains ·)
  return { change := fun b => some (image b), cut := fun b => s.squeeze && cut b }

def spec : Options.Spec where
  letters := "AcCdst".toList.map (·, .none)
  words := [("complement", 'c', .none), ("delete", 'd', .none), ("squeeze-repeats", 's', .none),
    ("truncate-set1", 't', .none)]
  strict := true

def operandsMistake (s : Settings) (operands : List String) : List String :=
  let least := if s.delete == s.squeeze then 2 else 1
  let most := if s.delete && !s.squeeze then 1 else 2
  match operands.getLast?, operands[most]? with
  | none, _ => ["missing operand"]
  | some _, some extra =>
    s!"extra operand {Quote.plain extra}" ::
      if operands.length = 2 then
        ["Only one string may be given when deleting without squeezing repeats."] else []
  | some last, none =>
    if least ≤ operands.length then []
    else
      [s!"missing operand after {Quote.plain last}",
        if s.squeeze then "Two strings must be given when both deleting and squeezing repeats."
        else "Two strings must be given when translating."]

def accept {α : Type} (name : String) : Except String α → Action α
  | .ok a => return a
  | .error e => Tool.fail name e 1

def readSet (name text : String) : Action (List Element) := do
  let ms := marks text.toList
  for note in ms.filterMap (·.note) do Tool.warn name note
  accept name (parse ms)

def program (start : Start) : Program := Action.run do
  let name := start.name
  let g ← Tool.options spec start 1
  let s : Settings := {
    complement := g.has 'c' || g.has 'C', delete := g.has 'd', squeeze := g.has 's',
    truncate := g.has 't' }
  if let first :: more := operandsMistake s g.operands then
    Tool.warn name first
    let _ ← Action.write 2 (Text.bytes (String.join (more.map (· ++ "\n"))))
    Tool.hint name 1
  let first ← readSet name (g.operands.headD "")
  let second ← g.operands[1]?.mapM (readSet name)
  relay name (← accept name (filter s first second))

end JobShell.Utility.Transliterate
