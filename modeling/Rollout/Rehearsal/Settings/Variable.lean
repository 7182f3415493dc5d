import Rollout.Config
import Rollout.Environment
import Rollout.Toml.Scan

/-!
Settings in environment variables. The name of a variable leads to a setting, or to a place below
one; its value is a text, unless it reads as something else.
-/

namespace Rollout.Rehearsal.Settings.Variable

open Toml (Scan Value Entries)

/-! ### Values -/

def isSeparator (c : Char) : Bool := [',', '\x7b', '\x7d', '[', ']'].contains c

def isSpace (c : Char) : Bool := [' ', '\t', '\n', '\x0c', '\r'].contains c

def spaces : Scan Unit := discard (Scan.takeWhile isSpace)

def isFraction (cs : List Char) : Bool :=
  let (whole, part, exponent) := Toml.fractionParts (Toml.signed cs).2
  let isDigits (digits : List Char) := digits.all Char.isDigit
  match part with
  | some part =>
    isDigits whole && isDigits part && !(whole.isEmpty && part.isEmpty) &&
      exponent.all fun e => let digits := (Toml.signed e).2; !digits.isEmpty && isDigits digits
  | none => false

def whole? (cs : List Char) : Option Int :=
  let (negative, digits) := Toml.signed cs
  let least : Int := if negative then -0x8000000000000000 else 0
  let n := Toml.integerOf cs
  if !digits.isEmpty && digits.all Char.isDigit && least ≤ n && n < UInt64.size then some n else none

def word (cs : List Char) : Value :=
  if isFraction cs then .float (.ofList cs)
  else match whole? cs with
    | some n => .integer n
    | none => .text (.ofList cs)

def quoted : Scan String := do
  Scan.expect ['"']
  return .ofList (← Scan.ofStep (Toml.basic .first 0))

def character : Scan String := do
  Scan.expect ['\'']
  let c ← Scan.ofStep fun
    | c :: r => some (c, r)
    | [] => none
  Scan.expect ['\'']
  return .singleton c

def key : Scan String := do
  if (← Scan.peek?) = some '"' then quoted
  else
    let name ← Scan.takeWhile Toml.isBareKeyChar
    if name.isEmpty then failure else return .ofList name

mutual

def value : (fuel : Nat) → Scan Value
  | 0 => failure
  | fuel + 1 => do
    spaces
    let v ← bare fuel
    spaces
    return v

def bare : (fuel : Nat) → Scan Value
  | 0 => failure
  | fuel + 1 => do
    if ← Scan.skip? "true".toList then return .boolean true
    else if ← Scan.skip? "false".toList then return .boolean false
    else if ← Scan.skip? ['['] then return .list false (← items fuel)
    else if ← Scan.skip? ['\x7b'] then return .table .inline (← entries fuel [])
    else match ← Scan.peek? with
      | some '"' => return .text (← quoted)
      | some '\'' => return .text (← character)
      | _ => return word (Text.trimChars (← Scan.takeWhile (!isSeparator ·)))

def items : (fuel : Nat) → Scan (List Value)
  | 0 => failure
  | fuel + 1 => do
    if ← Scan.skip? [']'] then return []
    else
      let item ← value fuel
      if ← Scan.skip? [','] then return item :: (← items fuel)
      else
        Scan.expect [']']
        return [item]

def entries : (fuel : Nat) → Entries → Scan Entries
  | 0, _ => failure
  | fuel + 1, before => do
    if ← Scan.skip? ['\x7d'] then return before
    else
      spaces
      let name ← key
      spaces
      Scan.expect ['=']
      let now := before.put name (← value fuel)
      if ← Scan.skip? [','] then entries fuel now
      else
        Scan.expect ['\x7d']
        return now

end

/-- What the text of a variable stands for. A comma makes a list, unless the text begins with a quote
or a bracket; what cannot be read as a whole is a text. -/
def valueOf (text : String) : Value :=
  let cs := Text.trimChars text.toList
  if cs.contains ',' && !cs.head?.any (['[', '\x7b', '"', '\''].contains ·) then
    .list false ((cs.splitOn ',').map fun item => .text (.ofList (Text.trimChars item)))
  else match (value (3 * cs.length + 3)).run cs with
    | some (v, []) => v
    | _ => .text (.ofList cs)

/-! ### Names -/

def withPoints : List Char → List Char
  | '_' :: '_' :: r => '.' :: withPoints r
  | c :: r => c :: withPoints r
  | [] => []

def pathOf? (name : String) : Option (List String) :=
  let upper := Text.trimChars (name.toList.map Char.toUpper)
  if Config.variableStart.toList.isPrefixOf upper then
    let parts := (Text.trimChars (withPoints (upper.drop Config.variableStart.length))).splitOn '.'
    if parts.any List.isEmpty then none
    else some (parts.map fun part => .ofList (part.map Char.toLower))
  else none

def nest (v : Value) : List String → Value
  | [] => v
  | key :: path => .table .implied [(key, nest v path)]

/-- What the variables give, under the names of settings. They are taken in the order of their names,
and later ones count. -/
def given (e : Environment) : Entries :=
  (e.bindings.mergeSort fun a b => decide (a.1 ≤ b.1)).foldl (fun acc (name, bytes) =>
    match pathOf? name with
    | some (key :: path) => acc.put key (nest (valueOf (Utf8.decode bytes)) path)
    | _ => acc) []

end Rollout.Rehearsal.Settings.Variable
