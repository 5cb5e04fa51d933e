/-!
UTF-8: encoding, strict decoding, and decoding that replaces what is malformed.

The decoder is a machine over single bytes. Between characters it stands at `start`; inside a
character it owes some continuation bytes, the first of them from a narrowed range. A byte that
does not continue the character ends it as malformed and is then read as a first byte, so every
maximal malformed piece counts once.
-/

namespace JobShell

abbrev Bytes := List UInt8
abbrev Chars := List Char

namespace Text

def encode (s : String) : Bytes := s.toList.flatMap String.utf8EncodeChar

/-- Where the decoder stands: between characters, or owing bytes of which the next one lies
between two bounds, with the bits collected so far. -/
inductive Decoding where
  | start
  | owing (more : Nat) (low high : UInt8) (bits : Nat)

/-- Reads a first byte. A finished character, or `none` for a byte that starts none, comes with
the state after it. -/
def Decoding.first (b : UInt8) : List (Option Char) × Decoding :=
  let n := b.toNat
  if n < 0x80 then ([some (Char.ofNat n)], .start)
  else if 0xC2 ≤ n && n ≤ 0xDF then ([], .owing 0 0x80 0xBF (n - 0xC0))
  else if n == 0xE0 then ([], .owing 1 0xA0 0xBF 0)
  else if n == 0xED then ([], .owing 1 0x80 0x9F 0xD)
  else if 0xE1 ≤ n && n ≤ 0xEF then ([], .owing 1 0x80 0xBF (n - 0xE0))
  else if n == 0xF0 then ([], .owing 2 0x90 0xBF 0)
  else if n == 0xF4 then ([], .owing 2 0x80 0x8F 4)
  else if 0xF1 ≤ n && n ≤ 0xF3 then ([], .owing 2 0x80 0xBF (n - 0xF0))
  else ([none], .start)

def Decoding.step (b : UInt8) : Decoding → List (Option Char) × Decoding
  | .start => first b
  | .owing more low high bits =>
    if low ≤ b && b ≤ high then
      let bits := bits * 64 + (b.toNat - 0x80)
      match more with
      | 0 => ([some (Char.ofNat bits)], .start)
      | more + 1 => ([], .owing more 0x80 0xBF bits)
    else
      let (out, next) := first b
      (none :: out, next)

/-- The characters from a state on; a malformed piece is `none`. -/
def Decoding.run : Decoding → Bytes → List (Option Char)
  | .start, [] => []
  | .owing .., [] => [none]
  | d, b :: bs =>
    let (out, next) := d.step b
    out ++ next.run bs

def decode? (bs : Bytes) : Option String :=
  ((Decoding.start.run bs).mapM id).map String.ofList

/-- The text, with U+FFFD for each malformed piece. -/
def decodeLossy (bs : Bytes) : String :=
  String.ofList ((Decoding.start.run bs).map (·.getD '�'))

end Text

end JobShell
