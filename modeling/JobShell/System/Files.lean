import JobShell.System.Basic

/-!
Opening, reading and writing through descriptors.
-/

namespace JobShell

/-- What comes of a request: an answer, or that it has to wait. -/
inductive Attempt (α : Type) where
  | done (a : α) (s : System)
  | blocked

namespace System

/-! ### Opening -/

def addFile (s : System) (f : OpenFile) : Endpoint × System :=
  (.file s.files.length, { s with files := s.files ++ [f] })

def reopen (s : System) (mode : OpenMode) : Endpoint → Except SystemError (Endpoint × System)
  | .device d _ => .ok (.device d mode.access, s)
  | .own fd => .ok (.own fd, s)
  | .reader id | .writer id => .ok (if mode.access.writes then .writer id else .reader id, s)
  | .file id =>
    match s.files[id]? with
    | some f => do
      let (place, files) ← s.world.files.openPlace f.place mode
      let s := { s with world := { s.world with files } }
      return s.addFile { place, access := mode.access, append := mode.append }
    | none => .error .noEntry

def streamNumber? (path : String) : Option Nat :=
  match Path.components path with
  | [.root, .name "dev", .name "fd", .name n] => Text.digits? n.toList
  | [.root, .name "proc", .name "self", .name "fd", .name n] => Text.digits? n.toList
  | _ => none

def openFile (s : System) (own : Descriptors) (cwd : Place) (path : String) (mode : OpenMode) :
    Except SystemError (Endpoint × System) :=
  let stream (fd : Nat) : Except SystemError (Endpoint × System) :=
    match own.get? fd with
    | some e => s.reopen mode e
    | none => .error .noEntry
  match streamNumber? path with
  | some fd => stream fd
  | none => do
    let (place, files) ← s.world.files.openAt cwd path mode
    match files.entry? place with
    | some (.stream fd) => stream fd
    | some (.device d) => return (.device d mode.access, s)
    | _ =>
      return { s with world := { s.world with files } }.addFile
        { place, access := mode.access, append := mode.append }

/-! ### Reading -/

def zeros (count : Nat) : Bytes := List.replicate count 0

def readFile (s : System) (id count : Nat) : Except SystemError (Bytes × System) :=
  match s.files[id]? with
  | none => .error .badDescriptor
  | some f =>
    if !f.access.reads then .error .badDescriptor
    else
      match s.world.files.contents f.place with
      | .error e => .error e
      | .ok data =>
        let data := (data.drop f.offset).take count
        .ok (data, { s with files := s.files.set id { f with offset := f.offset + data.length } })

/-- Reads at most as many bytes. A pipe that is empty makes its reader wait while it has a
writer. -/
def read (s : System) (e : Endpoint) (count : Nat) : Attempt (Except SystemError Bytes) :=
  match e with
  | .device d access =>
    if !access.reads then .done (.error .badDescriptor) s
    else
      match d with
      | .zero | .full => .done (.ok (zeros count)) s
      | .null | .terminal => .done (.ok []) s
  | .own fd =>
    match s.world.terminal.read fd count with
    | .ok (data, terminal) => .done (.ok data) { s with world := { s.world with terminal } }
    | .error e => .done (.error e) s
  | .reader id =>
    let data := s.pipe id
    if !data.isEmpty then .done (.ok (data.take count)) (s.setPipe id (data.drop count))
    else if s.hasWriter id then .blocked
    else .done (.ok []) s
  | .writer _ => .done (.error .badDescriptor) s
  | .file id =>
    match s.readFile id count with
    | .ok (data, s) => .done (.ok data) s
    | .error e => .done (.error e) s

/-! ### Writing -/

/-- What became of a write: some of the data may be left, or nobody can read it any more. -/
inductive Written where
  | all
  | left (rest : Bytes)
  | refused (e : SystemError)
  | unread

def patch (old : Bytes) (offset : Nat) (data : Bytes) : Bytes :=
  old.take offset ++ List.replicate (offset - old.length) 0 ++ data ++
    old.drop (offset + data.length)

def writeFile (s : System) (id : Nat) (data : Bytes) : Except SystemError System :=
  match s.files[id]? with
  | none => .error .badDescriptor
  | some f =>
    if !f.access.writes then .error .badDescriptor
    else
      match s.world.files.entry? f.place with
      | some (.file old) =>
        let offset := if f.append then old.length else f.offset
        let files := s.world.files.put f.place (.file (patch old offset data))
        .ok { s with
          world := { s.world with files }
          files := s.files.set id { f with offset := offset + data.length } }
      | _ => .ok s

/-- Writes to a pipe as much as it has room for. Small data is written as a whole. -/
def writePipe (s : System) (id : Nat) (data : Bytes) : Attempt Written :=
  if !s.hasReader id then .done .unread s
  else
    let held := s.pipe id
    let room := pipeSize - held.length
    if data.length ≤ room then .done .all (s.setPipe id (held ++ data))
    else if room = 0 || data.length ≤ 4096 then .blocked
    else .done (.left (data.drop room)) (s.setPipe id (held ++ data.take room))

def write (s : System) (e : Endpoint) (data : Bytes) : Attempt Written :=
  match e with
  | .device d access =>
    if !access.writes then .done (.refused .badDescriptor) s
    else if d = .full then .done (.refused .noSpace) s
    else .done .all s
  | .own fd =>
    match s.world.terminal.write fd data with
    | .ok terminal => .done .all { s with world := { s.world with terminal } }
    | .error e => .done (.refused e) s
  | .reader _ => .done (.refused .badDescriptor) s
  | .writer id => s.writePipe id data
  | .file id =>
    match s.writeFile id data with
    | .ok s => .done .all s
    | .error e => .done (.refused e) s

/-! ### Places in files -/

def seek (s : System) (e : Endpoint) (distance : Int) : Bool × System :=
  match e with
  | .file id =>
    match s.files[id]? with
    | some f =>
      let offset := (f.offset : Int) + distance
      if offset < 0 then (false, s)
      else (true, { s with files := s.files.set id { f with offset := offset.toNat } })
    | none => (false, s)
  | .device .. => (true, s)
  | _ => (false, s)

def inspect (s : System) : Endpoint → Inspection
  | .file id =>
    match s.files[id]? with
    | some f => { place := some f.place, offset := f.offset, append := f.append }
    | none => {}
  | _ => {}

end System

end JobShell
