import JobShell.FileSystem
import JobShell.Text.Numeral

/-!
Settings, from lines of the form `KEY=value` and from overrides such as the environment.
-/

namespace JobShell

structure Config where
  /-- The status of a job that could not be started. -/
  failedStatus : Int := 127
  /-- The characters that divide the words of a loop. -/
  separators : String := " \t\n"
  /-- Whether processes in the foreground write to the shell's own streams. -/
  inheritTerminal : Bool := true
  jobControl : Bool := false
  logLevel : Option String := none
  deriving DecidableEq

namespace Config

open Text

/-! ### Values of settings -/

def flag? (s : String) : Option Bool :=
  match lowerAscii (trim s) with
  | "1" | "true" | "yes" | "on" => some true
  | "0" | "false" | "no" | "off" => some false
  | _ => none

/-- A backslash gives a tab before `t`, a line feed before `n`, else the character after it. -/
def unescape : Chars → Chars
  | [] => []
  | ['\\'] => ['\\']
  | '\\' :: c :: cs =>
    (if c = 't' then '\t' else if c = 'n' then '\n' else c) :: unescape cs
  | c :: cs => c :: unescape cs

/-- Takes off white space, then one pair of equal quotes. -/
def unquote (s : String) : String :=
  let cs := trimList s.toList
  match cs, cs.getLast? with
  | q :: rest, some last =>
    if 2 ≤ cs.length ∧ q = last ∧ (q = '"' ∨ q = '\'') then String.ofList rest.dropLast
    else String.ofList cs
  | _, _ => String.ofList cs

/-- Gives one setting a value; a value it cannot have is ignored, as is any other key. -/
def apply (c : Config) (key value : String) : Config :=
  match key with
  | "JSH_FAILED_STATUS" =>
    match int32? (trim value) with
    | some n => { c with failedStatus := n }
    | none => c
  | "JSH_IFS" => { c with separators := String.ofList (unescape value.toList) }
  | "JSH_INHERIT_TERMINAL" =>
    match flag? value with
    | some b => { c with inheritTerminal := b }
    | none => c
  | "JSH_LOG" => if trim value = "" then c else { c with logLevel := some (trim value) }
  | _ => c

/-! ### Files -/

def exportWord : Chars := "export ".toList

/-- The key and value of a line; comments, empty lines and lines without `=` have none. -/
def assignment? (line : Chars) : Option (String × String) :=
  let cs := trimList line
  if cs.isEmpty ∨ cs.head? = some '#' then none
  else
    let cs := if exportWord.isPrefixOf cs then cs.drop exportWord.length else cs
    (splitFirst '=' cs).map fun (key, value) =>
      (String.ofList (trimList key), unquote (String.ofList value))

def applyLine (c : Config) (line : Chars) : Config :=
  match assignment? line with
  | some (key, value) => c.apply key value
  | none => c

def parse (content : String) : Config :=
  (pieces (· == '\n') content.toList).foldl applyLine {}

/-! ### Overrides -/

def keys : List String := ["JSH_FAILED_STATUS", "JSH_IFS", "JSH_INHERIT_TERMINAL", "JSH_LOG"]

def withOverrides (c : Config) (lookup : String → Option String) : Config :=
  keys.foldl (fun c key => (lookup key).elim c (c.apply key)) c

/-! ### The settings file -/

def path (w : World) : String := Path.join w.home ".jshrc"

def ofFile? (w : World) (file : String) : Option Config :=
  (w.read file).toOption.bind fun data => (Text.decode? data).map parse

/-- The settings of a file, or the defaults, with those of the environment over them. -/
def load (w : World) (file : String) : Config :=
  ((ofFile? w file).getD {}).withOverrides w.env.get?

end Config

end JobShell
