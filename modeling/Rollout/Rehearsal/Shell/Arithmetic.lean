import Rollout.Environment

/-!
Arithmetic of a shell: whole numbers of 64 bits, variables by their names, and assignments. Truth is
one and falsehood zero.
-/

namespace Rollout.Rehearsal.Shell.Arithmetic

inductive Token
  | number (value : Int)
  | name (text : String)
  | operator (text : String)
  deriving DecidableEq

inductive Fault
  | divisionByZero
  | noPrimary
  | noEnd
  | noClosing
  | badVariable (value : String)
  deriving DecidableEq

def Fault.message (text : String) : Fault → String
  | .divisionByZero => "division by zero: \"" ++ text ++ "\""
  | .noPrimary => "expecting primary: \"" ++ text ++ "\""
  | .noEnd => "expecting EOF: \"" ++ text ++ "\""
  | .noClosing => "expecting ')': \"" ++ text ++ "\""
  | .badVariable value => "Illegal number: " ++ value

def operators : List String :=
  ["<<=", ">>=", "<<", ">>", "<=", ">=", "==", "!=", "&&", "||", "+=", "-=", "*=", "/=", "%=", "&=",
   "|=", "^=", "+", "-", "*", "/", "%", "<", ">", "!", "~", "&", "|", "^", "?", ":", "=", "(", ")"]

def modulus : Nat := 0x10000000000000000

def greatest : Nat := 0x7FFFFFFFFFFFFFFF

def wrap (n : Int) : Int := Int.bmod n modulus

def digit? (base : Nat) (c : Char) : Option Nat :=
  let n := if c.isDigit then c.toNat - 48 else if 'a' ≤ c.toLower ∧ c.toLower ≤ 'f' then
    c.toLower.toNat - 87 else 99
  if n < base then some n else none

def digits (base : Nat) (value : Nat) : List Char → Nat × List Char
  | [] => (value, [])
  | c :: rest =>
    match digit? base c with
    | some d => digits base (value * base + d) rest
    | none => (value, c :: rest)

/-- The number at the start of a text, and what follows: hexadecimal after `0x`, octal after another
zero. -/
def exactNumber (cs : List Char) : Nat × List Char :=
  match cs with
  | '0' :: 'x' :: more | '0' :: 'X' :: more =>
    if more.head?.any fun c => (digit? 16 c).isSome then digits 16 0 more else (0, cs.drop 1)
  | '0' :: _ => digits 8 0 cs
  | _ => digits 10 0 cs

def number (cs : List Char) : Int × List Char :=
  (min (exactNumber cs).1 greatest, (exactNumber cs).2)

def operator? (cs : List Char) : Option String := operators.find? (·.toList.isPrefixOf cs)

def tokens : (fuel : Nat) → List Char → Option (List Token)
  | 0, _ => some []
  | _, [] => some []
  | fuel + 1, c :: rest =>
    if c = ' ' || c = '\t' || c = '\n' then tokens fuel rest
    else if c.isDigit then
      let (value, rest) := number (c :: rest)
      (tokens fuel rest).map (.number value :: ·)
    else if c.isAlpha || c = '_' then
      let name := (c :: rest).takeWhile fun d => d.isAlphanum || d = '_'
      (tokens fuel ((c :: rest).drop name.length)).map (.name (.ofList name) :: ·)
    else do
      let op ← operator? (c :: rest)
      return .operator op :: (← tokens fuel ((c :: rest).drop op.length))

def precedence? : String → Option Nat
  | "*" | "/" | "%" => some 10
  | "+" | "-" => some 9
  | "<<" | ">>" => some 8
  | "<" | "<=" | ">" | ">=" => some 7
  | "==" | "!=" => some 6
  | "&" => some 5
  | "^" => some 4
  | "|" => some 3
  | "&&" => some 2
  | "||" => some 1
  | _ => none

def ofBool (b : Bool) : Int := if b then 1 else 0

def bits (f : BitVec 64 → BitVec 64 → BitVec 64) (a b : Int) : Int :=
  (f (BitVec.ofInt 64 a) (BitVec.ofInt 64 b)).toInt

def apply (op : String) (a b : Int) : Except Fault Int :=
  match op with
  | "*" => .ok (wrap (a * b))
  | "/" => if b = 0 then .error .divisionByZero else .ok (wrap (Int.tdiv a b))
  | "%" => if b = 0 then .error .divisionByZero else .ok (wrap (Int.tmod a b))
  | "+" => .ok (wrap (a + b))
  | "-" => .ok (wrap (a - b))
  | "<<" => .ok (wrap (a * (1 <<< (b % 64).toNat : Nat)))
  | ">>" => .ok (a >>> (b % 64).toNat)
  | "<" => .ok (ofBool (a < b))
  | "<=" => .ok (ofBool (a ≤ b))
  | ">" => .ok (ofBool (a > b))
  | ">=" => .ok (ofBool (a ≥ b))
  | "==" => .ok (ofBool (a = b))
  | "!=" => .ok (ofBool (a ≠ b))
  | "&" => .ok (bits (· &&& ·) a b)
  | "^" => .ok (bits (· ^^^ ·) a b)
  | "|" => .ok (bits (· ||| ·) a b)
  | "&&" => .ok (ofBool (a ≠ 0 ∧ b ≠ 0))
  | "||" => .ok (ofBool (a ≠ 0 ∨ b ≠ 0))
  | _ => .error .noEnd

structure State where
  tokens : List Token
  scope : Environment
  skipped : Bool := false

abbrev Evaluation := StateT State (Except Fault)

namespace Evaluation

def peek : Evaluation (Option Token) := return (← get).tokens.head?

def advance : Evaluation Unit := modify fun s => { s with tokens := s.tokens.drop 1 }

def lookup (name : String) : Evaluation Int := do
  let text := (((← get).scope.get? name).map Utf8.decode).getD ""
  let sign := text.toList.head? = some '-'
  match tokens text.length (if sign then text.toList.drop 1 else text.toList) with
  | some [] => return 0
  | some [.number n] => return if sign then -n else n
  | _ => throw (.badVariable text)

def assign (name : String) (value : Int) : Evaluation Int := do
  modify fun s =>
    if s.skipped then s
    else { s with scope := s.scope.set name (Utf8.encode (toString value)) }
  return value

def skippingIf {α : Type} (skip : Bool) (part : Evaluation α) : Evaluation α := do
  let before := (← get).skipped
  modify fun s => { s with skipped := before || skip }
  let value ← part
  modify fun s => { s with skipped := before }
  return value

def apply (op : String) (a b : Int) : Evaluation Int := do
  if (← get).skipped then return 0 else Arithmetic.apply op a b

mutual

def assignment : (fuel : Nat) → Evaluation Int
  | 0 => throw .noPrimary
  | fuel + 1 => do
    match (← get).tokens with
    | .name name :: .operator op :: _ =>
      match op.toList.reverse with
      | '=' :: before =>
        if ["==", "!=", "<=", ">="].contains op then conditional fuel
        else
          advance
          advance
          let value ← assignment fuel
          if before.isEmpty then assign name value
          else assign name (← apply (.ofList before.reverse) (← lookup name) value)
      | _ => conditional fuel
    | _ => conditional fuel

def conditional : (fuel : Nat) → Evaluation Int
  | 0 => throw .noPrimary
  | fuel + 1 => do
    let test ← binary fuel 1 (← unary fuel)
    if (← peek) = some (.operator "?") then
      advance
      let positive ← skippingIf (test = 0) (assignment fuel)
      if (← peek) != some (.operator ":") then throw .noEnd
      advance
      let negative ← skippingIf (test ≠ 0) (conditional fuel)
      return if test = 0 then negative else positive
    else return test

/-- Goes on behind `left` with operators that bind at least as tightly as `least`. -/
def binary : (fuel : Nat) → (least : Nat) → (left : Int) → Evaluation Int
  | 0, _, left => return left
  | fuel + 1, least, left => do
    match ← peek with
    | some (.operator op) =>
      match precedence? op with
      | some p =>
        if p < least then return left
        advance
        let skip := (op = "&&" && left = 0) || (op = "||" && left ≠ 0)
        let right ← skippingIf skip do binary fuel (p + 1) (← unary fuel)
        binary fuel least (← apply op left right)
      | none => return left
    | _ => return left

def unary : (fuel : Nat) → Evaluation Int
  | 0 => throw .noPrimary
  | fuel + 1 => do
    match ← peek with
    | some (.number n) => advance; return n
    | some (.name name) => advance; lookup name
    | some (.operator "-") => advance; return wrap (-(← unary fuel))
    | some (.operator "+") => advance; unary fuel
    | some (.operator "!") => advance; return ofBool ((← unary fuel) = 0)
    | some (.operator "~") => advance; return -(← unary fuel) - 1
    | some (.operator "(") =>
      advance
      let value ← assignment fuel
      if (← peek) != some (.operator ")") then throw .noClosing
      advance
      return value
    | _ => throw .noPrimary

end

def whole : Evaluation Int := do
  let size := (← get).tokens.length
  let value ← assignment (4 * size + 4)
  if (← peek).isSome then throw .noEnd
  return value

end Evaluation

def evaluate (scope : Environment) (text : String) : Except Fault (Int × Environment) :=
  match tokens text.length text.toList with
  | none => .error .noEnd
  | some tokens => (Evaluation.whole.run { tokens, scope }).map fun (value, s) =>
    (value, s.scope)

end Rollout.Rehearsal.Shell.Arithmetic
