import JobShell.Utility.Quantity

/-!
Ways to compare texts that hold numbers: decimals, numbers of any form, sizes with units, and names
with versions in them.
-/

namespace JobShell.Utility.Compare

attribute [local instance(high)] instPowNat

/-- A minus sign, if there is one, and the digits of the decimal after it. -/
def takeDecimal (cs : Chars) : Bool × List Nat × List Nat × Chars :=
  let negative := cs.head? == some '-'
  (negative, Quantity.takePointed 10 (if negative then cs.tail else cs))

/-- The decimal at the start of a text, without an exponent; nothing counts as zero. -/
def leading (cs : Chars) : Quantity :=
  let (negative, whole, fraction, _) := takeDecimal cs
  .finite negative (Quantity.ofDigits 10 (whole ++ fraction)) (10 ^ fraction.length)

def decimals (a b : Chars) : Ordering := Quantity.compare (leading a) (leading b)

def numbers (a b : Chars) : Ordering :=
  match Quantity.take? a, Quantity.take? b with
  | none, none => .eq
  | none, some _ => .lt
  | some _, none => .gt
  | some (x, _), some (y, _) => Quantity.compare x y

/-! ### Sizes -/

def unitRank (c : Char) : Int :=
  ("KMGTPEZYRQ".toList.idxOf? (if c = 'k' then 'K' else c)).elim 0 (· + 1)

/-- The rank of the unit after the number at the start of a text; zero has no unit. -/
def sizeRank (cs : Chars) : Int :=
  let (negative, whole, fraction, rest) := takeDecimal cs
  let rank := rest.head?.elim 0 unitRank
  if (whole ++ fraction).all (· == 0) then 0 else if negative then -rank else rank

def sizes (a b : Chars) : Ordering :=
  (compare (sizeRank a) (sizeRank b)).then (decimals a b)

/-! ### Versions -/

/-- The rank of a character in a name, where the end of the name counts as well. -/
def nameRank : Chars → Int
  | [] => -1
  | c :: _ =>
    if c.isDigit then 0
    else if c.isAlpha then c.toNat
    else if c = '~' then -2
    else c.toNat + 256

/-- Compares names piece by piece: characters that are no digits by rank, and numbers by value. -/
def pieces : Nat → Chars → Chars → Ordering
  | 0, _, _ => .eq
  | _, [], [] => .eq
  | fuel + 1, a, b =>
    let isText (cs : Chars) : Bool := (cs.head?).any (!·.isDigit)
    if isText a || isText b then
      (compare (nameRank a) (nameRank b)).then (pieces fuel (a.drop 1) (b.drop 1))
    else
      let (x, a) := Quantity.takeDigits 10 a
      let (y, b) := Quantity.takeDigits 10 b
      (compare (Quantity.ofDigits 10 x) (Quantity.ofDigits 10 y)).then (pieces fuel a b)

def areSuffixes : Chars → Bool
  | [] => true
  | '.' :: c :: rest => (c.isAlpha || c = '~') && areSuffixes rest
  | c :: rest => (c.isAlphanum || c = '~') && areSuffixes rest

/-- Whether a text is a row of suffixes, each a dot, a letter, and letters and digits. -/
def isSuffixes (cs : Chars) : Bool := cs.head?.all (· == '.') && areSuffixes cs

def stem : Chars → Chars
  | [] => []
  | c :: rest => if isSuffixes rest then [c] else c :: stem rest

def dotRank (cs : Chars) : Nat :=
  if cs = [] then 0 else if cs = ['.'] then 1 else if cs = ['.', '.'] then 2
  else if cs.head? = some '.' then 3 else 4

def versions (a b : Chars) : Ordering :=
  if dotRank a ≠ dotRank b || dotRank a < 3 then compare (dotRank a) (dotRank b)
  else
    let fuel := a.length + b.length + 1
    (pieces fuel (stem a) (stem b)).then (pieces fuel a b)

end JobShell.Utility.Compare
