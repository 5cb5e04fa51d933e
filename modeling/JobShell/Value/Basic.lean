import JobShell.Bindings
import JobShell.Value.Binary64

/-!
Values of variables: what a JSON document can hold.

Whole numbers between `-2 ^ 63` and `2 ^ 64 - 1` are integers, other numbers are floating point.
The members of a record are in the order of their names.
-/

namespace JobShell

inductive Number where
  | int (n : Int)
  | float (x : Binary64)
  deriving DecidableEq, Repr

inductive Value where
  | null
  | bool (b : Bool)
  | number (n : Number)
  | text (s : String)
  | list (items : List Value)
  | record (members : List (String × Value))
  deriving Repr

abbrev Members := List (String × Value)

namespace Number

/-- Numbers are equal if they are of one kind and have one value. -/
def same : Number → Number → Bool
  | .int m, .int n => m == n
  | .float x, .float y => x.same y
  | _, _ => false

def int64? : Number → Option Int
  | .int n => if Text.IsInt64 n then some n else none
  | .float _ => none

end Number

namespace Value

instance : Inhabited Value := ⟨.null⟩

def int (n : Int) : Value := .number (.int n)

mutual

def same : Value → Value → Bool
  | .null, .null => true
  | .bool a, .bool b => a == b
  | .number a, .number b => a.same b
  | .text a, .text b => a == b
  | .list a, .list b => sameItems a b
  | .record a, .record b => sameMembers a b
  | _, _ => false

def sameItems : List Value → List Value → Bool
  | [], [] => true
  | a :: as, b :: bs => a.same b && sameItems as bs
  | _, _ => false

def sameMembers : Members → Members → Bool
  | [], [] => true
  | (m, a) :: as, (n, b) :: bs => m == n && a.same b && sameMembers as bs
  | _, _ => false

end

def member? (v : Value) (name : String) : Option Value :=
  match v with
  | .record ms => Bindings.get? ms name
  | _ => none

end Value

end JobShell
