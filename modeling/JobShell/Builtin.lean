import JobShell.Routine
import JobShell.Value.Coerce

/-!
The routines that every shell has.
-/

namespace JobShell.Builtin

def status (n : Int) : Body := fun _ w => (.status n, {}, w)

/-- Writes its arguments, with a line feed unless the first one is `-n`. -/
def echo : Body := fun inv w =>
  match inv.args with
  | "-n" :: words => (.text (" ".intercalate words), {}, w)
  | words => (.text (" ".intercalate words ++ "\n"), {}, w)

def pwd : Body := fun _ w =>
  match w.cwdText? with
  | some path => (.text (path ++ "\n"), {}, w)
  | none => (.failure SystemError.noEntry.message none, {}, w)

/-- Where `cd` goes: home, a path below home, or a path. -/
def destination (w : World) : List String → String
  | [] | "~" :: _ => w.home
  | path :: _ =>
    match path.toList with
    | '~' :: '/' :: rest => Path.join w.home (String.ofList rest)
    | _ => path

def cd : Body := fun inv w =>
  let target := destination w inv.args
  match w.files.locate w.cwd target with
  | .error _ => (.failure s!"cd: no such file or directory: {target}" (some 1), {}, w)
  | .ok place =>
    if w.files.isDirectoryAt w.cwd target then (.status 0, {}, { w with cwd := place })
    else (.failure s!"cd: not a directory: {target}" (some 1), {}, w)

/-! ### Concatenation -/

structure CatOptions where
  number : Bool := false
  files : List String := []

/-- Options and files in any order; the first letter that is no option is an error. -/
def CatOptions.parse : CatOptions → List String → Except Char CatOptions
  | o, [] => .ok o
  | o, arg :: args =>
    match arg.toList with
    | '-' :: c :: cs =>
      match (c :: cs).find? (· != 'n') with
      | some bad => .error bad
      | none => parse { o with number := true } args
    | _ => parse { o with files := o.files ++ [arg] } args

/-- Adds the contents of files, `-` standing for the input, and complains of those it cannot
read. -/
def gather (inv : Invocation) (w : World) : List String → Bytes × String × Int × World
  | [] => ([], "", 0, w)
  | file :: files =>
    if file = "-" then
      let (content, complaints, status, w) := gather inv w files
      (inv.stdin ++ content, complaints, status, w)
    else
      match w.take file with
      | (.ok data, w) =>
        let (content, complaints, status, w) := gather inv w files
        (data ++ content, complaints, status, w)
      | (.error e, w) =>
        let (content, complaints, _, w) := gather inv w files
        (content, s!"cat: {file}: {e.message}\n" ++ complaints, 1, w)

def padLeft (width : Nat) (s : String) : String :=
  String.ofList (List.replicate (width - s.length) ' ') ++ s

def numberLines (s : String) : String :=
  String.join ((Text.linesWithEnds s.toList).mapIdx fun i line =>
    padLeft 6 (toString (i + 1)) ++ "\t" ++ String.ofList line)

def cat : Body := fun inv w =>
  match CatOptions.parse {} inv.args with
  | .error c =>
    (.status 1, ({} : Output).printErr ("cat: invalid option -- '" ++ c.toString ++ "'\n"), w)
  | .ok o =>
    let (content, complaints, status, w) :=
      gather inv w (if o.files.isEmpty then ["-"] else o.files)
    let out := ({} : Output).printErr complaints
    (.status status,
      if o.number then out.print (numberLines (Text.decodeLossy content)) else out.write content, w)

/-! ### Escaping -/

/-- The bindings of words of the form `NAME=VALUE`, or the first word that is none. -/
def bindings : List String → Except String (List (String × Value))
  | [] => .ok []
  | word :: words =>
    match Text.splitFirst '=' word.toList with
    | some (c :: name, value) => do
      return (String.ofList (c :: name), Value.coerce (String.ofList value)) :: (← bindings words)
    | _ => .error word

def escape : Body := fun inv w =>
  if inv.args.isEmpty then (.failure "escape: usage: escape NAME=VALUE..." (some 2), {}, w)
  else
    match bindings inv.args with
    | .ok bs => (.status 0, { escapes := bs }, w)
    | .error word => (.failure s!"escape: not an assignment: {word}" (some 2), {}, w)

def all : Bindings Routine :=
  Bindings.ofList [("echo", ⟨echo, []⟩), ("true", ⟨status 0, []⟩), ("false", ⟨status 1, []⟩),
    ("pwd", ⟨pwd, []⟩), ("cd", ⟨cd, []⟩), ("cat", ⟨cat, []⟩), ("escape", ⟨escape, []⟩)]

end JobShell.Builtin
