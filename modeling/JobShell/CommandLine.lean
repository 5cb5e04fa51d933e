import JobShell.Engine.Request
import JobShell.LogLevel
import JobShell.Tree.Codec

/-!
The command line: which tree to run, and what running it comes to.

Arguments are taken from left to right. Whoever asks for help or for the version gets it, unless an
argument before that was mistaken.
-/

namespace JobShell

namespace CommandLine

structure Options where
  config : Option String := none
  logLevel : Option LogLevel := none
  /-- A command tree given in place. -/
  command : Option String := none
  /-- A file that holds a command tree. -/
  file : Option String := none

inductive Key where
  | config
  | logLevel
  | command

inductive Argument where
  | plain (s : String)
  | separator
  | option (k : Key) (value : Option String)
  | help
  | version
  | unknown

def longArgument (name : String) (value : Option String) : Argument :=
  match name, value with
  | "config", v => .option .config v
  | "log-level", v => .option .logLevel v
  | "help", none => .help
  | "version", none => .version
  | _, _ => .unknown

/-- The value written together with a one-letter option; an equals sign may stand between. -/
def attached : Chars → Option String
  | [] => none
  | '=' :: cs => some (String.ofList cs)
  | cs => some (String.ofList cs)

def classify (arg : String) : Argument :=
  match arg.toList with
  | ['-'] => .plain arg
  | ['-', '-'] => .separator
  | '-' :: '-' :: cs =>
    match Text.splitFirst '=' cs with
    | some (name, value) => longArgument (String.ofList name) (some (String.ofList value))
    | none => longArgument (String.ofList cs) none
  | '-' :: 'c' :: cs => .option .command (attached cs)
  | '-' :: 'h' :: _ => .help
  | '-' :: 'V' :: _ => .version
  | '-' :: _ => .unknown
  | _ => .plain arg

/-- Gives an option its value; it has one at most, and a path is not empty. -/
def setOption? (o : Options) (k : Key) (value : String) : Option Options :=
  match k with
  | .config =>
    if o.config.isSome ∨ value.isEmpty then none else some { o with config := some value }
  | .logLevel =>
    if o.logLevel.isSome then none
    else (LogLevel.ofName? value).map fun level => { o with logLevel := some level }
  | .command => if o.command.isSome then none else some { o with command := some value }

def setFile? (o : Options) (path : String) : Option Options :=
  if o.file.isSome ∨ path.isEmpty then none else some { o with file := some path }

inductive Demand where
  | run (o : Options)
  | help
  | version
  | mistaken

def conclude (o : Options) : Demand :=
  if o.command.isSome ∧ o.file.isSome then .mistaken else .run o

def operands (o : Options) : List String → Demand
  | [] => conclude o
  | arg :: args =>
    match setFile? o arg with
    | some o => operands o args
    | none => .mistaken

def parse (o : Options) : List String → Demand
  | [] => conclude o
  | [arg] =>
    match classify arg with
    | .plain s => ((setFile? o s).map conclude).getD .mistaken
    | .separator => conclude o
    | .option k (some v) => ((setOption? o k v).map conclude).getD .mistaken
    | .help => .help
    | .version => .version
    | _ => .mistaken
  | arg :: next :: args =>
    match classify arg with
    | .plain s =>
      match setFile? o s with
      | some o => parse o (next :: args)
      | none => .mistaken
    | .separator => operands o (next :: args)
    | .option k (some v) =>
      match setOption? o k v with
      | some o => parse o (next :: args)
      | none => .mistaken
    | .option k none =>
      match classify next with
      | .plain v =>
        match setOption? o k v with
        | some o => parse o args
        | none => .mistaken
      | _ => .mistaken
    | .help => .help
    | .version => .version
    | .unknown => .mistaken

/-! ### Running -/

structure Outcome where
  status : Nat := 0
  out : Bytes := []
  err : Bytes := []

def versionText : String := "jsh 0.1.0\n"

def helpText : String :=
  "Command execution and job control engine for a scriptable shell\n\n" ++
  "Usage: jsh [OPTIONS] [FILE]\n\n" ++
  "Arguments:\n" ++
  "  [FILE]  File holding the command tree; stdin when neither this nor -c is given\n\n" ++
  "Options:\n" ++
  "      --config <PATH>      Configuration file (defaults to ~/.jshrc)\n" ++
  "      --log-level <LEVEL>  Log level; overrides JSH_LOG " ++
  "[possible values: error, warn, info, debug, trace]\n" ++
  "  -c <JSON>                Command tree given inline\n" ++
  "  -h, --help               Print help\n" ++
  "  -V, --version            Print version\n"

def refuse (message : String) : Outcome :=
  { status := 2, err := Text.encode s!"jsh: {message}\n" }

def textOf (data : Bytes) : Except SystemError String :=
  match Text.decode? data with
  | some s => .ok s
  | none => .error .notText

/-- The text of the tree, and what is left of the input. -/
def source (w : World) (input : Bytes) (o : Options) : Except String (String × Bytes) :=
  match o.command, o.file with
  | some text, _ => .ok (text, input)
  | none, some path =>
    match w.read path >>= textOf with
    | .ok text => .ok (text, input)
    | .error e => .error s!"cannot read {path}: {e.message}"
  | none, none =>
    match textOf input with
    | .ok text => .ok (text, [])
    | .error e => .error s!"cannot read command tree from stdin: {e.message}"

/-- What an engine leaves: a status of eight bits, and what went to its two streams. -/
def outcomeOf (result : Except Fault Reply) (e : Engine) : Outcome :=
  let t := e.system.world.terminal
  match result with
  | .ok (.status n) => { status := (n % 256).toNat, out := t.out, err := t.err }
  | .ok _ => { out := t.out, err := t.err }
  | .error f => { status := 2, out := t.out, err := t.err ++ Text.encode f.report }

/-- Runs a tree, and then whatever it left in the background. -/
def runTree (config : Config) (w : World) (input : Bytes) (script : Tree.Script) : Outcome :=
  let world := { w with terminal := { w.terminal with input := some input } }
  let e : Engine := { config, system := .standard world, console := .direct }
  match e.run Engine.ample script with
  | (.error f, e) => outcomeOf (.error f) e
  | (.ok r, e) =>
    match e.drain Engine.ample with
    | (.error f, e) => outcomeOf (.error f) e
    | (.ok _, e) => outcomeOf (.ok r) e

def perform (w : World) (input : Bytes) : Demand → Outcome
  | .help => { out := Text.encode helpText }
  | .version => { out := Text.encode versionText }
  | .mistaken =>
    { status := 2, err := Text.encode "error: invalid arguments; try '--help'\n" }
  | .run o =>
    let config := Config.load w (o.config.getD (Config.path w))
    match source w input o with
    | .error message => refuse message
    | .ok (text, input) =>
      match Tree.Script.parse? text with
      | some script => runTree config w input script
      | none => refuse "invalid command tree: the text is not a command tree"

/-- What the program does with its arguments and its input. -/
def run (w : World) (args : List String) (input : Bytes) : Outcome :=
  perform w input (parse {} args)

end CommandLine

end JobShell
