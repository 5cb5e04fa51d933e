import JobShell.Script.Shell

/-!
Options of the shell's own commands: letters after a dash, before the other arguments.
-/

namespace JobShell.Script.Act

/-- Takes letters of one argument. A letter with a colon after it in the list takes a value. -/
def takeLetters (letters : Chars) (args : List String) :
    Chars → List (Char × String) → Act (List (Char × String) × List String)
  | [], acc => return (acc, args)
  | c :: cs, acc => do
    match letters.dropWhile (· ≠ c), args with
    | [], _ => fail ("Illegal option -" ++ c.toString)
    | _ :: ':' :: _, args =>
      if !cs.isEmpty then return (acc ++ [(c, String.ofList cs)], args)
      let a :: args := args | fail ("No arg for -" ++ c.toString ++ " option")
      return (acc ++ [(c, a)], args)
    | _, _ => takeLetters letters args cs (acc ++ [(c, "")])

def options (letters : String) (args : List String) : Act (List (Char × String) × List String) := do
  let mut found := []
  let mut rest := args
  for _ in args do
    match rest.map String.toList with
    | ['-', '-'] :: _ => return (found, rest.tail)
    | ('-' :: c :: cs) :: _ =>
      (found, rest) ← takeLetters letters.toList rest.tail (c :: cs) found
    | _ => return (found, rest)
  return (found, rest)

def operands (args : List String) : Act (List String) := do return (← options "" args).2

def quotedFrom : Nat → Chars → Chars
  | 0, _ => []
  | fuel + 1, cs =>
    let plain := cs.takeWhile (· ≠ '\'')
    let rest := cs.drop plain.length
    let quotes := rest.takeWhile (· == '\'')
    let more := rest.drop quotes.length
    '\'' :: plain ++ ['\''] ++
      (if quotes.isEmpty then [] else '"' :: quotes ++ ['"']) ++
      (if more.isEmpty then [] else quotedFrom fuel more)

def quoted (text : String) : String := String.ofList (quotedFrom (text.length + 1) text.toList)

end JobShell.Script.Act
