import JobShell.FileSystem
import JobShell.Pattern

/-!
The paths that match a pattern.

Each component of the pattern is matched against the names in a directory. A component without
wildcards is looked up instead, so a dot at its start needs no care; elsewhere names that start with
a dot are skipped unless the whole pattern starts with one.
-/

namespace JobShell.Pattern

def literal? (p : Pattern) : Option String :=
  (p.tokens.mapM fun
    | Token.char c => some c
    | _ => none).map String.ofList

def isComponents (p : Pattern) : Bool := p.tokens.contains .components

def startsWithDot (p : Pattern) : Bool := p.tokens.head? == some (.char '.')

structure Search where
  files : FileSystem
  cwd : Place
  dotRule : Bool
  directories : Bool

namespace Search

def isDirectory (s : Search) (path : String) : Bool := s.files.isDirectoryAt s.cwd path

def extend (path name : String) : String := if path = "." then name else Path.join path name

/-- The names in a directory that may be matched, in their order. -/
def names (s : Search) (path : String) : List String :=
  (s.files.namesAt s.cwd path).filter fun n => !(s.dotRule && n.toList.head? == some '.')

/-- The paths among `..` and `.` that a component matches. -/
def specials (s : Search) (p : Pattern) (path : String) : List String :=
  if p.startsWithDot then (["..", "."].filter (p.accepts s.dotRule)).map (Path.join path) else []

def wanted (s : Search) (path : String) : List String :=
  if s.directories && !s.isDirectory path then [] else [path]

/-- The names below a directory with their paths, as many levels down as `depth` says. -/
def below (s : Search) : Nat → String → List (String × String)
  | 0, _ => []
  | depth + 1, path =>
    if s.isDirectory path then
      (s.names path).flatMap fun n => (n, extend path n) :: s.below depth (extend path n)
    else []

/-- No name is further down than the longest place says. -/
def depth (s : Search) : Nat := (s.files.entries.map (·.1.length)).foldl max 0 + 1

/-- The matches at and below a path whose components so far are known to match. -/
def inside (s : Search) : List Pattern → String → List String
  | [], path => s.wanted path
  | p :: ps, path =>
    match p.literal? with
    | some name =>
      let next := extend path name
      let there :=
        if name = "." || name = ".." then s.isDirectory path
        else s.files.exists? s.cwd next
      if there then s.inside ps next else []
    | none =>
      if !s.isDirectory path then []
      else if p.isComponents then
        match ps with
        | [] => (s.below s.depth path).flatMap fun (_, path) =>
          if s.isDirectory path then [path] else []
        | q :: qs =>
          (s.below s.depth path).flatMap fun (n, path) =>
            if q.accepts s.dotRule n then s.inside qs path else []
      else
        (s.specials p path).flatMap (s.inside ps) ++
          (s.names path).flatMap fun n =>
            if p.accepts s.dotRule n then s.inside ps (extend path n) else []

end Search

/-- The components of a pattern, a slash at the end not counted. -/
def splitComponents (path : String) : List String :=
  let segments := Path.segments path
  if segments.getLast? = some "" then segments.dropLast else segments

/-- Runs of components that follow each other count once. -/
def collapse : List Pattern → List Pattern
  | p :: q :: ps =>
    if p.isComponents && q.isComponents then collapse (q :: ps) else p :: collapse (q :: ps)
  | ps => ps

/-- The components of a path with wildcards as patterns. -/
def components? (path : String) : Option (List Pattern) :=
  let body := if Path.isAbsolute path then String.ofList (path.toList.drop 1) else path
  ((splitComponents body).mapM parse?).map collapse

/-- The paths that match a path with wildcards, in the order of their components. -/
def searchAll (files : FileSystem) (cwd : Place) (dotRule : Bool) (path : String) :
    List String :=
  if path.isEmpty || (parse? path).isNone then []
  else
    match components? path with
    | none => []
    | some ps =>
      let s : Search := ⟨files, cwd, dotRule, path.toList.getLast? == some '/'⟩
      Path.sort (s.inside ps (if Path.isAbsolute path then "/" else "."))

/-- The paths in the directory `base` that match a pattern; they are relative if the pattern is. -/
def expandIn (files : FileSystem) (cwd : Place) (base pattern : String) : List String :=
  let dotRule := pattern.toList.head? != some '.'
  let paths := searchAll files cwd dotRule (Path.join base pattern)
  if Path.isAbsolute pattern then paths
  else paths.map fun p => (Path.below? base p).getD p

end JobShell.Pattern

namespace JobShell.World

def expand (w : World) (pattern : String) : List String :=
  Pattern.expandIn w.files w.cwd (w.cwdText?.getD "") pattern

end JobShell.World
