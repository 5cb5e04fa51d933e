import JobShell.Text.Blank

/-!
Paths as text, and the components they are made of.
-/

namespace JobShell.Path

/-- A component. A dot stands for nothing but at the start of a relative path, and slashes in a row
count once. -/
inductive Component where
  | root
  | here
  | up
  | name (s : String)
  deriving DecidableEq

def segments (path : String) : List String :=
  (Text.pieces (· == '/') path.toList).map String.ofList

def isAbsolute (path : String) : Bool := path.toList.head? == some '/'

/-- The component of a segment, if it counts as one past the start. -/
def ofSegment? : String → Option Component
  | "" | "." => none
  | ".." => some .up
  | s => some (.name s)

def components (path : String) : List Component :=
  match segments path with
  | [] => []
  | first :: rest =>
    let rest := rest.filterMap ofSegment?
    if isAbsolute path then .root :: rest
    else if first = "." then .here :: rest
    else (ofSegment? first).toList ++ rest

/-- A path below a directory; an absolute one stands for itself. -/
def join (base path : String) : String :=
  if isAbsolute path then path
  else if base.isEmpty || base.toList.getLast? == some '/' then base ++ path
  else base ++ "/" ++ path

/-! ### Order -/

def Component.rank : Component → Nat
  | .root => 0
  | .here => 1
  | .up => 2
  | .name _ => 3

def Component.lt : Component → Component → Bool
  | .name a, .name b => a < b
  | a, b => a.rank < b.rank

/-- Component by component, a path before the paths below it. -/
def before : List Component → List Component → Bool
  | [], _ => true
  | _ :: _, [] => false
  | a :: as, b :: bs => if a.lt b then true else if b.lt a then false else before as bs

def sort (paths : List String) : List String :=
  paths.mergeSort fun a b => before (components a) (components b)

/-! ### Relative paths -/

/-- Drops segments up to the one after the first `n` components. -/
def dropComponents : Nat → List String → List String
  | 0, ss => ss
  | _, [] => []
  | n + 1, s :: ss =>
    match ofSegment? s with
    | some _ => dropComponents n ss
    | none => dropComponents (n + 1) ss

def isIdle (segment : String) : Bool := (ofSegment? segment).isNone

/-- A path without the segments at its end that stand for nothing; one that is a dot stays one. -/
def trimEnd (path : String) : String :=
  match segments path with
  | [] => path
  | first :: rest => "/".intercalate (first :: (rest.reverse.dropWhile isIdle).reverse)

/-- What a path is below a directory, as it is written. Below no directory at all every path stands
for itself. -/
def below? (base path : String) : Option String :=
  if base.isEmpty then some (trimEnd path)
  else if (components base).isPrefixOf (components path) then
    let rest := dropComponents ((components base).length - 1) (segments path)
    let rest := rest.dropWhile isIdle
    some ("/".intercalate (rest.reverse.dropWhile isIdle).reverse)
  else none

end JobShell.Path
