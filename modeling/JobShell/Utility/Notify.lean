import JobShell.Utility.Integer
import JobShell.Utility.Tool

/-!
Sending signals to processes by their numbers.
-/

namespace JobShell.Utility.Notify

def usage : String :=
  "\nUsage:\n kill [options] <pid> [...]\n\nOptions:\n" ++
  " <pid> [...]            send signal to every <pid> listed\n" ++
  " -<signal>, -s, --signal <signal>\n                        specify the <signal> to be sent\n" ++
  " -q, --queue <value>    integer value to be sent with the signal\n" ++
  " -l, --list=[<signal>]  list all signal names, or convert one to a name\n" ++
  " -L, --table            list all signal names in a nice table\n\n" ++
  " -h, --help     display this help and exit\n" ++
  " -V, --version  output version information and exit\n\n" ++
  "For more details see kill(1).\n"

def refuse {α : Type} : Action α := do
  let _ ← Action.write 2 (Text.bytes usage)
  Action.exit 1

def signal? (text : String) : Option Signal :=
  let upper := (Text.upperAscii text).toList
  (Signal.decode? 1 text).or <|
    if upper.take 3 = ['S', 'I', 'G'] then Signal.decode? 1 (String.ofList (upper.drop 3)) else none

def takeSignal? : List String → Option (Signal × List String)
  | [] => none
  | a :: args =>
    let found : Option Signal :=
      match a.toList with
      | '-' :: c :: cs => signal? (String.ofList (c :: cs))
      | _ => none
    match found with
    | some s => some (s, args)
    | none => (takeSignal? args).map fun (s, rest) => (s, a :: rest)

def spec : Options.Spec where
  letters := [('l', .optional), ('L', .none), ('s', .required), ('h', .none), ('V', .none),
    ('q', .required)]
  words := [("list", 'l', .optional), ("table", 'L', .none), ("signal", 's', .required),
    ("help", 'h', .none), ("version", 'V', .none), ("queue", 'q', .required)]

def names : String := " ".intercalate ((List.range 31).map fun n => Signal.name (n + 1)) ++ "\n"

def convert? (text : String) : Option String :=
  (signal? text).map fun s => if (Signal.ofDigits? text).isSome then Signal.name s else toString s

def program (start : Start) : Program := Action.run do
  let name := start.name
  let (first, args) := (takeSignal? start.args).getD (.terminate, start.args)
  let g := Options.parse spec args
  if g.mistake.isSome then refuse
  if let some what := g.options.lookup 'l' then
    match if what = "" then some names else (convert? what).map (· ++ "\n") with
    | some text => Tool.print name text
    | none => Tool.warn name s!"unknown signal name {what}"
    return 0
  if g.operands.isEmpty then refuse
  let s := (g.options.lookup 's').elim (some first) signal?
  let mut status := 0
  for a in g.operands do
    let some (n, []) := Integer.take? a.toList
      | Tool.fail name s!"failed to parse argument: '{a}'" 1
    if let some e ← s.elim (pure (some .badArgument)) (Action.kill n.value) then
      Tool.warn name s!"({n.value}): {e.reason}"
      status := 1
  return status

end JobShell.Utility.Notify
