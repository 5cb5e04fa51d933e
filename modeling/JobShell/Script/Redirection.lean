import JobShell.Script.Expand

/-!
Redirections: descriptors are connected anew, and put back as they were.

Copies of descriptors that were replaced are kept from number ten on.
-/

namespace JobShell.Script

/-- A redirection whose words were expanded. -/
inductive Connection where
  | file (fd : Nat) (how : Opening) (path : String)
  | copy (fd source : Nat)
  | close (fd : Nat)
  | text (fd : Nat) (content : String)

namespace Opening

def mode : Opening → OpenMode
  | .input => .reading
  | .output | .clobber => .writing
  | .append => .appending
  | .update => .updating

def complaint (how : Opening) (path : String) (e : SystemError) : String :=
  let lacks := e = .noEntry || e = .notDirectory
  if how = .input then s!"cannot open {path}: " ++ if lacks then "No such file" else e.reason
  else s!"cannot create {path}: " ++ if lacks then "Directory nonexistent" else e.reason

end Opening

namespace Act

def refuseNumber {α : Type} : Act α := do
  modify fun s => { s with line := s.reached }
  fail "Syntax error: Bad fd number"

def connection (capture : Capture) : Redirect → Act Connection
  | .file fd how name => do return .file fd how (← expandText capture name)
  | .copy fd (some source) => return .copy fd source
  | .copy fd none => return .close fd
  | .copyNamed fd name => do
    let text ← expandText capture name
    match text.toList with
    | ['-'] => return .close fd
    | [c] => if c.isDigit then return .copy fd (c.toNat - 48) else refuseNumber
    | _ => refuseNumber
  | .document fd id => do
    let w := ((← get).documents.lookup id).getD []
    return .text fd (← expandDocument capture w)

def openRedirected (how : Opening) (path : String) : Act Nat := do
  let refused (e : SystemError) : Act Nat := fail (how.complaint path e)
  let (fs, cwd) ← look
  let existing := (fs.locate cwd (Text.ofOctets path)).toOption.bind fs.entry?
  let isFile : Bool :=
    match existing with
    | some (.file _) | some .program => true
    | _ => false
  let protects := how = .output && (← isOn 'C')
  if protects && isFile then refused .fileExists
  else
    match ← ask (Action.openFile path how.mode) with
    | .ok fd => return fd
    | .error e =>
      if protects && existing.isSome then fail (Opening.input.complaint path e) else refused e

def openText (content : String) : Act Nat := do
  let (reading, writing) ← pipe
  let data := Text.bytes content
  if data.length ≤ 4096 then
    let _ ← ask (Action.write writing data)
  else
    let _ ← fork fun _ => .close reading fun _ => .write writing data fun _ => .exit 0
  closeFd writing
  return reading

def keepFd (fd : Nat) (opened : Option Nat) : Act Unit := do
  let s ← get
  match s.redirections with
  | [] => return
  | frame :: frames =>
    if frame.any (·.1 == fd) then return
    else if opened = some fd then
      set { s with redirections := ((fd, .closed) :: frame) :: frames }
    else
      let kept : Saved ←
        match ← saveFd fd 10 with
        | .ok n => do
          closeFd fd
          pure (.copy n)
        | .error _ => pure .closed
      modify fun s => { s with redirections := ((fd, kept) :: frame) :: frames }

def connect (keep : Bool) (c : Connection) : Act Unit := do
  let replace (fd opened : Nat) : Act Unit := do
    if keep then keepFd fd (some opened)
    if opened ≠ fd then
      let _ ← copyFd opened fd
      closeFd opened
  match c with
  | .file fd how path => replace fd (← openRedirected how path)
  | .text fd content => replace fd (← openText content)
  | .close fd =>
    if keep then keepFd fd none
    closeFd fd
  | .copy fd source =>
    if fd ≠ source then
      if keep then keepFd fd none
      match ← copyFd source fd with
      | none => return
      | some e => fail s!"{source}: {e.reason}"

def pushRedirections : Act Unit := modify fun s => { s with redirections := [] :: s.redirections }

def restore (drop : Bool) : List (Nat × Saved) → Act Unit
  | [] => return
  | (fd, kept) :: rest => do
    match kept with
    | .closed => unless drop do closeFd fd
    | .copy n =>
      unless drop do
        let _ ← copyFd n fd
      closeFd n
    restore drop rest

def popRedirections (drop : Bool) : Act Unit := do
  let s ← get
  match s.redirections with
  | [] => return
  | frame :: frames =>
    set { s with redirections := frames }
    restore drop frame

/-- Puts back the descriptors of the innermost frames, down to a number of them. -/
def unwindRedirections (depth : Nat) : Act Unit := do
  let n := (← get).redirections.length - depth
  (List.range n).forM fun _ => popRedirections false

/-- Closes what was remembered, as in a copy of the shell that never goes back. -/
def forgetRedirections : Act Unit := do
  let s ← get
  set { s with redirections := [] }
  s.redirections.flatten.forM fun (_, kept) =>
    match kept with
    | .copy n => closeFd n
    | .closed => pure ()

end Act

end JobShell.Script
