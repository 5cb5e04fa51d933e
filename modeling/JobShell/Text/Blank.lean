import JobShell.Text.Utf8

/-!
White space, trimming and splitting of text.

Texts are handled as lists of characters; the `String` versions wrap them. Fields are the
maximal runs of characters that are no separators.
-/

namespace JobShell.Text

def isBlank (c : Char) : Bool :=
  let n := c.toNat
  (0x09 ≤ n && n ≤ 0x0D) || n == 0x20 || n == 0x85 || n == 0xA0 || n == 0x1680 ||
    (0x2000 ≤ n && n ≤ 0x200A) || n == 0x2028 || n == 0x2029 || n == 0x202F || n == 0x205F ||
    n == 0x3000

def trimList (cs : Chars) : Chars :=
  ((cs.dropWhile isBlank).reverse.dropWhile isBlank).reverse

def trim (s : String) : String := String.ofList (trimList s.toList)

/-- Cuts the text at every separator; there is one piece more than there are separators. -/
def pieces (isSep : Char → Bool) : Chars → List Chars
  | [] => [[]]
  | c :: cs =>
    if isSep c then [] :: pieces isSep cs
    else
      match pieces isSep cs with
      | [] => [[c]]
      | p :: ps => (c :: p) :: ps

def fields (isSep : Char → Bool) (cs : Chars) : List Chars :=
  (pieces isSep cs).filter (!·.isEmpty)

def words (s : String) : List String := (fields isBlank s.toList).map String.ofList

/-- Splits at the first occurrence of a character, which is dropped. -/
def splitFirst (c : Char) : Chars → Option (Chars × Chars)
  | [] => none
  | d :: ds =>
    if d = c then some ([], ds) else (splitFirst c ds).map fun p => (d :: p.1, p.2)

/-- Lines with their ends: each but perhaps the last one ends in a line feed. -/
def linesWithEnds : Chars → List Chars
  | [] => []
  | c :: cs =>
    if c = '\n' then [c] :: linesWithEnds cs
    else
      match linesWithEnds cs with
      | [] => [[c]]
      | l :: ls => (c :: l) :: ls

def dropTrailing (c : Char) (cs : Chars) : Chars :=
  (cs.reverse.dropWhile (· == c)).reverse

def dropFinalNewlines (s : String) : String := String.ofList (dropTrailing '\n' s.toList)

def lowerAscii (s : String) : String := String.ofList (s.toList.map Char.toLower)

def upperAscii (s : String) : String := String.ofList (s.toList.map Char.toUpper)

end JobShell.Text
