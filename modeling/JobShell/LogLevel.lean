import JobShell.Text.Blank

/-!
How much is logged: what the command line says, else what is configured, else warnings.
-/

namespace JobShell

inductive LogLevel where
  | error
  | warn
  | info
  | debug
  | trace
  deriving DecidableEq, Repr

namespace LogLevel

def label : LogLevel → String
  | .error => "ERROR"
  | .warn => "WARN"
  | .info => "INFO"
  | .debug => "DEBUG"
  | .trace => "TRACE"

def ofName? : String → Option LogLevel
  | "error" => some .error
  | "warn" => some .warn
  | "info" => some .info
  | "debug" => some .debug
  | "trace" => some .trace
  | _ => none

/-- A configured level may be written in any case, and warnings by their full name. -/
def ofSetting? (s : String) : Option LogLevel :=
  match Text.lowerAscii (Text.trim s) with
  | "warning" => some .warn
  | name => ofName? name

def resolve (chosen : Option LogLevel) (configured : Option String) : LogLevel :=
  (chosen <|> configured.bind ofSetting?).getD .warn

end LogLevel

end JobShell
