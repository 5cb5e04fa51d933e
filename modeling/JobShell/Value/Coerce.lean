import JobShell.Text.Blank
import JobShell.Value.Json

/-!
From the text of an assignment to a value, and back to text.

Text that is a number becomes one, a whole number an integer where it fits in 64 bits; text that
is a JSON list or record becomes that; all other text stays text.
-/

namespace JobShell.Value

open JobShell.Text

/-- A floating point number that is whole and fits in a signed 64-bit word is an integer. -/
def integral (n : Number) : Number :=
  match n with
  | .int _ => n
  | .float x =>
    match x.whole? with
    | some i => if IsInt64 i then .int i else n
    | none => n

/-- Whether a text may be a number, a list or a record, going by its first character. -/
def looksStructured : Chars → Bool
  | c :: _ => c == '\x7b' || c == '[' || c == '-' || ('0' ≤ c && c ≤ '9')
  | [] => false

def coerce (s : String) : Value :=
  let cs := s.toList
  if looksStructured cs && trimList cs == cs then
    match parse? s with
    | some (.number n) => .number (integral n)
    | some (.list vs) => .list vs
    | some (.record ms) => .record ms
    | _ => .text s
  else .text s

/-- The text of a value as a command sees it: text as it is, nothing for null, else JSON. -/
def render : Value → String
  | .text s => s
  | .null => ""
  | v => v.json

def kind : Value → String
  | .null => "null"
  | .bool _ => "boolean"
  | .number (.int _) => "integer"
  | .number (.float _) => "float"
  | .text _ => "string"
  | .list _ => "array"
  | .record _ => "object"

end JobShell.Value
