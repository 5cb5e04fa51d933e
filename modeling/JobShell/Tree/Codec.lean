import JobShell.Tree.Basic
import JobShell.Value.Json

/-!
Command trees as JSON.

A structure is an object with its fields by name, or a list of its fields in order; fields that
have a default may be left out, in a list from the end. An alternative is an object with one
member, named for the alternative. A field that is known stands at most once, and others are not
looked at. Every list and object on the way to a part of the tree counts towards the depth.
What is written has all fields, in their order.
-/

namespace JobShell.Tree

attribute [local instance(high)] instPowNat

open Json

/-! ### Reading -/

namespace Fields

/-- The value of a field among the members of an object; `none` if it is repeated. -/
def find (members : List (Option String × Raw)) (name : String) : Option (Option Raw) :=
  match members.filter (·.1 == some name) with
  | [] => some none
  | [(_, r)] => some (some r)
  | _ => none

/-- The fields of a structure by position, each present or not. -/
def ofRaw? (names : List String) : Raw → Option (List (Option Raw))
  | .object members =>
    if members.all (·.1.isSome) then names.mapM (find members) else none
  | .array items =>
    if items.length ≤ names.length then
      some (items.map some ++ List.replicate (names.length - items.length) none)
    else none
  | _ => none

end Fields

def list? {α : Type} (f : Raw → Option α) : Raw → Option (List α)
  | .array items => items.mapM f
  | _ => none

def listOr? {α : Type} (f : Raw → Option α) : Option Raw → Option (List α)
  | none => some []
  | some r => list? f r

def nullable? {α : Type} (f : Raw → Option α) : Option Raw → Option (Option α)
  | none | some .null => some none
  | some r => (f r).map some

def text? : Raw → Option String
  | .string s => s
  | _ => none

def flag? : Raw → Option Bool
  | .bool b => some b
  | _ => none

def flagOr? : Option Raw → Option Bool
  | none => some false
  | some r => flag? r

/-- A number between `-2 ^ 31` and `2 ^ 31 - 1`, written as an integer. -/
def int32? : Raw → Option Int
  | .number l =>
    match Number.ofLiteral? l with
    | some (.int n) => if -2 ^ (31 : Nat) ≤ n ∧ n < 2 ^ (31 : Nat) then some n else none
    | _ => none
  | _ => none

/-- The name of an alternative without contents: a text, or an object whose one member is null. -/
def tag? : Nat → Raw → Option String
  | _, .string s => s
  | _ + 1, .object [(name, .null)] => name
  | _, _ => none

def connective? (depth : Nat) (r : Raw) : Option Connective :=
  match tag? depth r with
  | some "And" => some .and
  | some "Or" => some .or
  | _ => none

def redirectOp? (depth : Nat) (r : Raw) : Option RedirectOp :=
  (tag? depth r).bind RedirectOp.ofSymbol?

mutual

def Word.ofRaw? : Nat → Raw → Option Word
  | d + 2, r => do
    match ← Fields.ofRaw? ["parts"] r with
    | [some parts] => return ⟨← list? (Part.ofRaw? d) parts⟩
    | _ => none
  | _, _ => none

def Part.ofRaw? : Nat → Raw → Option Part
  | d + 1, .object [(some tag, r)] =>
    match tag with
    | "Literal" => (text? r).map .literal
    | "Param" => (text? r).map .param
    | "Glob" => (text? r).map .glob
    | "CommandSubst" =>
      match d with
      | 0 => none
      | d + 1 => do return .output (← list? (Item.ofRaw? d) r)
    | _ => none
  | _, _ => none

def Item.ofRaw? : Nat → Raw → Option Item
  | d + 1, r => do
    match ← Fields.ofRaw? ["node", "background"] r with
    | [some node, background] => return ⟨← Node.ofRaw? d node, ← flagOr? background⟩
    | _ => none
  | _, _ => none

def Node.ofRaw? : Nat → Raw → Option Node
  | d + 1, .object [(some tag, r)] =>
    match tag with
    | "Command" => (Simple.ofRaw? d r).map .command
    | "Subshell" =>
      match d with
      | 0 => none
      | d + 1 => do return .subshell (← list? (Item.ofRaw? d) r)
    | "Logical" =>
      match d with
      | 0 => none
      | d + 1 => do
        match ← Fields.ofRaw? ["op", "left", "right"] r with
        | [some op, some left, some right] =>
          return .logical (← connective? d op) (← Node.ofRaw? d left) (← Node.ofRaw? d right)
        | _ => none
    | "Pipeline" =>
      match d with
      | d + 2 => do
        match ← Fields.ofRaw? ["commands", "negated"] r with
        | [some commands, negated] =>
          return .pipeline (← list? (Simple.ofRaw? d) commands) (← flagOr? negated)
        | _ => none
      | _ => none
    | "If" =>
      match d with
      | d + 2 => do
        match ← Fields.ofRaw? ["condition", "then_branch", "else_branch"] r with
        | [some condition, onSuccess, onFailure] =>
          return .conditional (← list? (Item.ofRaw? d) condition)
            (← nullable? (list? (Item.ofRaw? d)) onSuccess)
            (← nullable? (list? (Item.ofRaw? d)) onFailure)
        | _ => none
      | _ => none
    | "For" =>
      match d with
      | d + 2 => do
        match ← Fields.ofRaw? ["variable", "words", "body"] r with
        | [some name, some words, some body] =>
          return .loop (← text? name) (← list? (Word.ofRaw? d) words)
            (← list? (Item.ofRaw? d) body)
        | _ => none
      | _ => none
    | "Case" =>
      match d with
      | d + 2 => do
        match ← Fields.ofRaw? ["subject", "arms"] r with
        | [some subject, some arms] =>
          return .choice (← Word.ofRaw? (d + 1) subject) (← list? (Arm.ofRaw? d) arms)
        | _ => none
      | _ => none
    | _ => none
  | _, _ => none

def Simple.ofRaw? : Nat → Raw → Option Simple
  | 0, _ => none
  | 1, r => do
    -- no room for a list or a word
    match ← Fields.ofRaw? ["assignments", "name", "args", "redirects"] r with
    | [none, none, none, none] | [none, some .null, none, none] => return ⟨[], none, [], []⟩
    | _ => none
  | d + 2, r => do
    match ← Fields.ofRaw? ["assignments", "name", "args", "redirects"] r with
    | [assignments, name, args, redirects] =>
      return ⟨← listOr? (Word.ofRaw? d) assignments, ← nullable? (Word.ofRaw? (d + 1)) name,
        ← listOr? (Word.ofRaw? d) args, ← listOr? (Redirect.ofRaw? d) redirects⟩
    | _ => none

def Redirect.ofRaw? : Nat → Raw → Option Redirect
  | d + 1, r => do
    match ← Fields.ofRaw? ["op", "fd", "target"] r with
    | [some op, fd, some target] =>
      return ⟨← redirectOp? d op, ← nullable? int32? fd, ← Word.ofRaw? d target⟩
    | _ => none
  | _, _ => none

def Arm.ofRaw? : Nat → Raw → Option Arm
  | d + 2, r => do
    match ← Fields.ofRaw? ["patterns", "body"] r with
    | [some patterns, body] =>
      return ⟨← list? (Word.ofRaw? d) patterns,
        ← listOr? (Item.ofRaw? d) body⟩
    | _ => none
  | _, _ => none

end

def Script.ofRaw? : Nat → Raw → Option Script
  | d + 2, r => do
    match ← Fields.ofRaw? ["items"] r with
    | [some items] => return ⟨← list? (Item.ofRaw? d) items⟩
    | _ => none
  | _, _ => none

def Script.parse? (s : String) : Option Script := (Raw.parse? s).bind (ofRaw? Value.maxDepth)

/-! ### Writing -/

def Connective.value : Connective → Value
  | .and => .text "And"
  | .or => .text "Or"

def fdValue : Option Int → Value
  | some n => .int n
  | none => .null

mutual

def Word.value : Word → Value
  | ⟨parts⟩ => .record [("parts", .list (partValues parts))]

def partValues : List Part → List Value
  | [] => []
  | p :: ps => p.value :: partValues ps

def Part.value : Part → Value
  | .literal s => .record [("Literal", .text s)]
  | .param name => .record [("Param", .text name)]
  | .output body => .record [("CommandSubst", .list (itemValues body))]
  | .glob raw => .record [("Glob", .text raw)]

def Item.value : Item → Value
  | ⟨node, background⟩ => .record [("node", node.value), ("background", .bool background)]

def itemValues : List Item → List Value
  | [] => []
  | i :: is => i.value :: itemValues is

def branchValue : Option (List Item) → Value
  | none => .null
  | some is => .list (itemValues is)

def Node.value : Node → Value
  | .command c => .record [("Command", c.value)]
  | .pipeline cs negated =>
    .record [("Pipeline",
      .record [("commands", .list (simpleValues cs)), ("negated", .bool negated)])]
  | .logical op left right =>
    .record [("Logical",
      .record [("op", op.value), ("left", left.value), ("right", right.value)])]
  | .conditional condition onSuccess onFailure =>
    .record [("If",
      .record [("condition", .list (itemValues condition)),
        ("then_branch", branchValue onSuccess), ("else_branch", branchValue onFailure)])]
  | .loop name words body =>
    .record [("For",
      .record [("variable", .text name), ("words", .list (wordValues words)),
        ("body", .list (itemValues body))])]
  | .choice subject arms =>
    .record [("Case", .record [("subject", subject.value), ("arms", .list (armValues arms))])]
  | .subshell body => .record [("Subshell", .list (itemValues body))]

def Simple.value : Simple → Value
  | ⟨assignments, name, args, redirects⟩ =>
    .record [("assignments", .list (wordValues assignments)), ("name", nameValue name),
      ("args", .list (wordValues args)), ("redirects", .list (redirectValues redirects))]

def simpleValues : List Simple → List Value
  | [] => []
  | c :: cs => c.value :: simpleValues cs

def nameValue : Option Word → Value
  | none => .null
  | some w => w.value

def wordValues : List Word → List Value
  | [] => []
  | w :: ws => w.value :: wordValues ws

def Redirect.value : Redirect → Value
  | ⟨op, fd, target⟩ =>
    .record [("op", .text op.symbol), ("fd", fdValue fd), ("target", target.value)]

def redirectValues : List Redirect → List Value
  | [] => []
  | r :: rs => r.value :: redirectValues rs

def Arm.value : Arm → Value
  | ⟨patterns, body⟩ =>
    .record [("patterns", .list (wordValues patterns)), ("body", .list (itemValues body))]

def armValues : List Arm → List Value
  | [] => []
  | a :: as => a.value :: armValues as

end

def Script.value (s : Script) : Value := .record [("items", .list (itemValues s.items))]

def Script.json (s : Script) : String := s.value.json

end JobShell.Tree
