import JobShell.Bindings
import JobShell.Path
import JobShell.SystemError
import JobShell.Text.Utf8

/-!
A tree of files, and how paths are looked up in it.

Every entry stands under its place, the names on the way to it from the root. There are no links,
so each place has one path without dots.
-/

namespace JobShell

/-- The names on the way from the root. -/
abbrev Place := List String

/-- What can be opened like a file and holds nothing: it is empty or all zeros when read, and takes
anything or nothing. -/
inductive Device where
  | null
  | zero
  | full
  /-- The terminal of a session that has none, which cannot be opened. -/
  | terminal
  deriving DecidableEq, Repr

inductive Entry where
  | directory
  | file (data : Bytes)
  | device (d : Device)
  /-- A stream of whoever opens it. -/
  | stream (fd : Nat)
  | program
  deriving DecidableEq

inductive Access where
  | read
  | write
  | both
  deriving DecidableEq, Repr

def Access.reads (a : Access) : Bool := a != .write

def Access.writes (a : Access) : Bool := a != .read

structure OpenMode where
  access : Access := .read
  create : Bool := false
  /-- Refuses a file that exists. -/
  fresh : Bool := false
  truncate : Bool := false
  append : Bool := false

namespace OpenMode

def reading : OpenMode := {}

def writing : OpenMode := { access := .write, create := true, truncate := true }

def appending : OpenMode := { access := .write, create := true, append := true }

def updating : OpenMode := { access := .both, create := true }

end OpenMode

/-- The entries but for the root directory, in the order they were made. -/
structure FileSystem where
  entries : List (Place × Entry) := []

namespace FileSystem

def entry? (fs : FileSystem) (place : Place) : Option Entry :=
  if place.isEmpty then some .directory else fs.entries.lookup place

def isDirectory (fs : FileSystem) (place : Place) : Bool := fs.entry? place == some .directory

def children (fs : FileSystem) (place : Place) : List String :=
  fs.entries.filterMap fun (p, _) =>
    if p.dropLast = place then p.getLast? else none

def put (fs : FileSystem) (place : Place) (e : Entry) : FileSystem :=
  if fs.entries.any (·.1 == place) then
    ⟨fs.entries.map fun (p, d) => if p = place then (p, e) else (p, d)⟩
  else ⟨fs.entries ++ [(place, e)]⟩

def erase (fs : FileSystem) (place : Place) : FileSystem :=
  ⟨fs.entries.filter (·.1 != place)⟩

def makeDirectories (fs : FileSystem) (place : Place) : FileSystem :=
  (List.range place.length).foldl
    (fun fs n => if (fs.entry? (place.take (n + 1))).isSome then fs
      else fs.put (place.take (n + 1)) .directory) fs

/-! ### Looking up -/

/-- Follows names from a place. Whatever a name, a dot or a slash comes after is a directory. -/
def walk (fs : FileSystem) (place : Place) : List String → Except SystemError Place
  | [] => .ok place
  | s :: ss =>
    if !fs.isDirectory place then .error .notDirectory
    else if s = "" || s = "." then fs.walk place ss
    else if s = ".." then fs.walk place.dropLast ss
    else if 255 < s.utf8ByteSize then .error .nameTooLong
    else if (fs.entry? (place ++ [s])).isSome then fs.walk (place ++ [s]) ss
    else .error .noEntry

def refuse? (path : String) : Option SystemError :=
  if path.toList.contains '\x00' then some .nulInName
  else if path.isEmpty then some .noEntry
  else if 4096 ≤ path.utf8ByteSize then some .nameTooLong
  else none

/-- Where a walk along a path starts. A directory that was removed still is where it was, and
has nothing in it but the way up. -/
def start (cwd : Place) (path : String) : Place := if Path.isAbsolute path then [] else cwd

def follow (fs : FileSystem) (cwd : Place) (path : String) (segments : List String) :
    Except SystemError Place :=
  let start := start cwd path
  if start.isEmpty || fs.isDirectory start then fs.walk start segments
  else
    match segments.dropWhile (fun s => s = "" || s = ".") with
    | [] => .ok start
    | s :: ss => if s = ".." then fs.walk start.dropLast ss else .error .noEntry

def locate (fs : FileSystem) (cwd : Place) (path : String) : Except SystemError Place :=
  match refuse? path with
  | some e => .error e
  | none => fs.follow cwd path (Path.segments path)

def exists? (fs : FileSystem) (cwd : Place) (path : String) : Bool :=
  (fs.locate cwd path).toOption.isSome

/-- Whether a path leads to a directory; one that was removed while in use still is one. -/
def isDirectoryAt (fs : FileSystem) (cwd : Place) (path : String) : Bool :=
  match fs.locate cwd path with
  | .ok place => fs.isDirectory place || place == cwd
  | .error _ => false

/-- The names in a directory, in their order. -/
def namesAt (fs : FileSystem) (cwd : Place) (path : String) : List String :=
  match fs.locate cwd path with
  | .ok place => (fs.children place).mergeSort fun a b => decide (a ≤ b)
  | .error _ => []

/-! ### Opening -/

def barrier? (mode : OpenMode) : Option Entry → Option SystemError
  | some .directory | none => if mode.access.writes then some .isDirectory else none
  | some (.device .terminal) => some .noDevice
  | some .program => if mode.access.writes then some .denied else none
  | _ => none

def openPlace (fs : FileSystem) (place : Place) (mode : OpenMode) :
    Except SystemError (Place × FileSystem) :=
  match barrier? mode (fs.entry? place) with
  | some e => .error e
  | none =>
    match fs.entry? place with
    | some (.file _) => .ok (place, if mode.truncate then fs.put place (.file []) else fs)
    | _ => .ok (place, fs)

/-- Opens a file that is made if it does not exist. The directory it stands in has to exist, and no
slash may follow its name. -/
def openOrMake (fs : FileSystem) (cwd : Place) (path : String) (mode : OpenMode) :
    Except SystemError (Place × FileSystem) := do
  let segments := (Path.segments path).reverse
  let names := segments.dropWhile (· == "")
  match names with
  | [] => .error .isDirectory
  | name :: above =>
    if name = "." || name = ".." then
      let _ ← fs.follow cwd path segments.reverse
      .error .isDirectory
    else
      let place ← fs.follow cwd path above.reverse
      if (fs.entry? place).isNone then .error .noEntry
      else if !fs.isDirectory place then .error .notDirectory
      else if names.length < segments.length then .error .isDirectory
      else if 255 < name.utf8ByteSize then .error .nameTooLong
      else
        let place := place ++ [name]
        if (fs.entry? place).isNone then .ok (place, fs.put place (.file []))
        else if mode.fresh then .error .fileExists
        else fs.openPlace place mode

def openAt (fs : FileSystem) (cwd : Place) (path : String) (mode : OpenMode) :
    Except SystemError (Place × FileSystem) :=
  match refuse? path with
  | some e => .error e
  | none =>
    if mode.create then fs.openOrMake cwd path mode
    else do
      let place ← fs.follow cwd path (Path.segments path)
      fs.openPlace place mode

/-- The bytes of an entry; nothing can be read from a directory. -/
def contents (fs : FileSystem) (place : Place) : Except SystemError Bytes :=
  match fs.entry? place with
  | some (.file data) => .ok data
  | some .directory | none => .error .isDirectory
  | some _ => .ok []

def read (fs : FileSystem) (cwd : Place) (path : String) : Except SystemError Bytes := do
  let (place, _) ← fs.openAt cwd path .reading
  fs.contents place

def removeDirectory (fs : FileSystem) (cwd : Place) (path : String) :
    Except SystemError FileSystem := do
  match refuse? path with
  | some e => .error e
  | none =>
    let place ← fs.follow cwd path (Path.segments path)
    match (Path.segments path).reverse.dropWhile (· == "") with
    | [] => .error .busy
    | name :: _ =>
      if name = "." then .error .badArgument
      else if name = ".." then .error .notEmpty
      else if !fs.isDirectory place then .error .notDirectory
      else if !(fs.children place).isEmpty then .error .notEmpty
      else .ok (fs.erase place)

end FileSystem

/-- The streams of the shell itself: what is left of its input, unless that is the null device, and
what has gone to its two outputs. -/
structure Terminal where
  input : Option Bytes := none
  out : Bytes := []
  err : Bytes := []

namespace Terminal

/-- Writes to a stream of the shell. Its input can be written to only if it is the null device. -/
def write (t : Terminal) (fd : Nat) (data : Bytes) : Except SystemError Terminal :=
  match fd with
  | 0 => if t.input.isSome then .error .badDescriptor else .ok t
  | 1 => .ok { t with out := t.out ++ data }
  | _ => .ok { t with err := t.err ++ data }

def read (t : Terminal) (fd count : Nat) : Except SystemError (Bytes × Terminal) :=
  if fd = 0 then
    let data := t.input.getD []
    .ok (data.take count, { t with input := t.input.map (·.drop count) })
  else .error .badDescriptor

end Terminal

/-- The surroundings of the shell: files, the current directory, the environment and its own
streams. -/
structure World where
  files : FileSystem := {}
  cwd : Place := []
  env : Bindings String := []
  terminal : Terminal := {}

namespace World

def placeText (p : Place) : String := "/" ++ "/".intercalate p

/-- The current directory, unless it was removed. -/
def cwdText? (w : World) : Option String :=
  if w.files.isDirectory w.cwd then some (placeText w.cwd) else none

/-- The home directory: what the environment says, else that of the super user. -/
def home (w : World) : String :=
  match w.env.get? "HOME" with
  | some "" | none => "/root"
  | some h => h

def take (w : World) (path : String) : Except SystemError Bytes × World :=
  match w.files.openAt w.cwd path .reading with
  | .error e => (.error e, w)
  | .ok (place, _) =>
    match w.files.entry? place with
    | some (.stream 0) =>
      (.ok (w.terminal.input.getD []),
        { w with terminal := { w.terminal with input := w.terminal.input.map fun _ => [] } })
    | _ => (w.files.contents place, w)

def read (w : World) (path : String) : Except SystemError Bytes := (w.take path).1

def append (w : World) (place : Place) (data : Bytes) : Except SystemError World :=
  match w.files.entry? place with
  | some (.file old) => .ok { w with files := w.files.put place (.file (old ++ data)) }
  | some (.device .full) => if data.isEmpty then .ok w else .error .noSpace
  | some (.stream fd) => (w.terminal.write fd data).map fun terminal => { w with terminal }
  | _ => .ok w

end World

end JobShell
