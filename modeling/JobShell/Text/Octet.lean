import JobShell.Text.Utf8

/-!
Text as programs see it: a sequence of bytes, each written as the character with its number.

What the shell hands to a program is text in UTF-8; inside of the program every byte stands alone,
so lengths, patterns and comparisons are those of bytes.
-/

namespace JobShell.Text

/-- The bytes of an octet text; characters past 255 are none of its characters. -/
def bytes (s : String) : Bytes := s.toList.map fun c => c.toNat.toUInt8

def octet (b : UInt8) : Char := Char.ofNat b.toNat

def ofBytes (bs : Bytes) : String := String.ofList (bs.map octet)

def octets (s : String) : String := ofBytes (encode s)

def ofOctets (s : String) : String := decodeLossy (bytes s)

end JobShell.Text
