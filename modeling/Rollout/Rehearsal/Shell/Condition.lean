import Rollout.FileSystem
import Rollout.Rehearsal.Shell.Effect

/-! Conditions on texts, numbers and files, as a command tests them. -/

namespace Rollout.Rehearsal.Shell.Condition

inductive Operator
  | unary
  | binary
  | not
  | and
  | or
  | opening
  | closing
  deriving DecidableEq

def operator? (text : String) : Option Operator :=
  if ["-r", "-w", "-x", "-e", "-f", "-d", "-c", "-b", "-p", "-u", "-g", "-k", "-s", "-t", "-z", "-n",
      "-h", "-O", "-G", "-L", "-S"].contains text then some .unary
  else if ["=", "!=", "<", ">", "-eq", "-ne", "-ge", "-gt", "-le", "-lt", "-nt", "-ot",
      "-ef"].contains text then some .binary
  else match text with
    | "!" => some .not
    | "-a" => some .and
    | "-o" => some .or
    | "(" => some .opening
    | ")" => some .closing
    | _ => none

def leading : List String → Option Operator
  | [] => none
  | text :: rest =>
    match operator? text, rest with
    | some .unary, [] => none
    | some .unary, next :: _ :: _ => if operator? next = some .binary then none else some .unary
    | some .opening, [] => none
    | op, _ => op

abbrev Decision := Except String

def number (text : String) : Decision Int :=
  let isBlank (c : Char) : Bool := c = ' ' || c = '\t' || c = '\n'
  let cs := ((text.toList.dropWhile isBlank).reverse.dropWhile isBlank).reverse
  let digits := if cs.head? = some '-' || cs.head? = some '+' then cs.drop 1 else cs
  if !digits.isEmpty && digits.all Char.isDigit then
    let value : Int := digits.foldl (fun n c => 10 * n + (c.toNat - 48)) 0
    .ok (if cs.head? = some '-' then -value else value)
  else .error ("Illegal number: " ++ text)

def isLink (files : FileSystem) (text : String) : Bool :=
  let p : Path := ⟨text⟩
  match p.fileName with
  | none => false
  | some name =>
    match files.resolve ((p.parent.filter (!·.text.isEmpty)).getD ⟨"."⟩) with
    | .error _ => false
    | .ok place => files.node? (place ++ [name]) matches some (.link _)

def unary (files : FileSystem) (op text : String) : Bool :=
  let node := files.find? ⟨text⟩
  match op with
  | "-n" => !text.isEmpty
  | "-z" => text.isEmpty
  | "-e" | "-r" | "-w" | "-O" | "-G" => node.isSome
  | "-f" => (node matches some (.file _ _))
  | "-d" => node = some .directory
  | "-c" => node = some .null
  | "-x" => (node matches some .directory | some (.file _ true))
  | "-s" => files.sizeOf ⟨text⟩ != 0
  | "-h" | "-L" => isLink files text
  | _ => false

def binary (files : FileSystem) (op left right : String) : Decision Bool := do
  let compared (f : Int → Int → Bool) : Decision Bool := return f (← number left) (← number right)
  match op with
  | "=" => return left == right
  | "!=" => return left != right
  | "<" => return left < right
  | ">" => return right < left
  | "-eq" => compared fun a b => a = b
  | "-ne" => compared fun a b => a ≠ b
  | "-ge" => compared fun a b => a ≥ b
  | "-gt" => compared fun a b => a > b
  | "-le" => compared fun a b => a ≤ b
  | "-lt" => compared fun a b => a < b
  | "-ef" =>
    match files.resolve ⟨left⟩, files.resolve ⟨right⟩ with
    | .ok a, .ok b => return a == b
    | _, _ => return false
  | _ => return false

mutual

def disjunction (files : FileSystem) : (fuel : Nat) → List String → Decision (Bool × List String)
  | 0, args => .ok (false, args)
  | fuel + 1, args => do
    let (value, args) ← conjunction files fuel args
    if leading (args.drop 1) = some .or then
      let (more, args) ← disjunction files fuel (args.drop 2)
      return (value || more, args)
    return (value, args)

def conjunction (files : FileSystem) : (fuel : Nat) → List String → Decision (Bool × List String)
  | 0, args => .ok (false, args)
  | fuel + 1, args => do
    let (value, args) ← negation files fuel args
    if leading (args.drop 1) = some .and then
      let (more, args) ← conjunction files fuel (args.drop 2)
      return (value && more, args)
    return (value, args)

def negation (files : FileSystem) : (fuel : Nat) → List String → Decision (Bool × List String)
  | 0, args => .ok (false, args)
  | fuel + 1, args => do
    if leading args = some .not then
      if args.length = 1 then return (true, args)
      let (value, args) ← negation files fuel (args.drop 1)
      return (!value, args)
    primary files fuel args

def primary (files : FileSystem) : (fuel : Nat) → List String → Decision (Bool × List String)
  | 0, args => .ok (false, args)
  | _, [] => .ok (false, [])
  | fuel + 1, first :: rest => do
    match leading (first :: rest) with
    | some .opening =>
      if leading rest = some .closing then return (false, rest)
      let (value, rest) ← disjunction files fuel rest
      if leading (rest.drop 1) != some .closing then throw "closing paren expected"
      return (value, rest.drop 1)
    | some .unary =>
      match rest with
      | [] => throw (first ++ ": argument expected")
      | text :: _ => return (unary files first text, rest)
    | _ =>
      match leading rest, rest with
      | some .binary, op :: right :: more => return (← binary files op first right, right :: more)
      | some .binary, op :: [] => throw (op ++ ": argument expected")
      | _, _ => return (!first.isEmpty, first :: rest)

end

def value (files : FileSystem) (args : List String) : Decision Bool := do
  let (value, left) ← disjunction files (4 * args.length + 4) args
  match left with
  | text :: _ :: _ => throw (text ++ ": unexpected operator")
  | _ => return value

/-- Few arguments are told apart by their number first. -/
def verdict (files : FileSystem) : List String → Decision Bool
  | [] => .ok false
  | args =>
    match args with
    | [left, op, right] =>
      if operator? op = some .binary then binary files op left right
      else if left = "(" && right = ")" then value files [op]
      else if left = "!" then (value files [op, right]).map (!·)
      else value files args
    | ["(", first, second, ")"] => value files [first, second]
    | ["!", left, op, right] =>
      if operator? op = some .binary then (binary files op left right).map (!·)
      else if left = "(" && right = ")" then (value files [op]).map (!·)
      else if left = "!" then (value files [op, right]).map (!·)
      else (value files [left, op, right]).map (!·)
    | _ => value files args

def test (files : FileSystem) (who : String) (args : List String) : Effect :=
  match verdict files args with
  | .ok b => .ofBool b
  | .error text => .complaint who [text] 2

end Rollout.Rehearsal.Shell.Condition
