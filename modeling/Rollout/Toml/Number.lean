import Rollout.Toml.Edition
import Rollout.Toml.Value

/-!
Numbers and moments, written without quotes. The form of a word decides which of them it is; a whole
number may turn out to have no value, and a fraction to be too large.
-/

namespace Rollout.Toml

/-! ### Digits -/

def hexValue? (c : Char) : Option Nat :=
  if '0' ≤ c && c ≤ '9' then some (c.toNat - '0'.toNat)
  else if 'a' ≤ c && c ≤ 'f' then some (c.toNat - 'a'.toNat + 10)
  else if 'A' ≤ c && c ≤ 'F' then some (c.toNat - 'A'.toNat + 10)
  else none

def isDigitIn (base : Nat) (c : Char) : Bool := (hexValue? c).any (· < base)

def numberOf (base : Nat) (digits : List Char) : Nat :=
  digits.foldl (fun n d => n * base + (hexValue? d).getD 0) 0

def isGrouped (isDigit : Char → Bool) : (before : Bool) → List Char → Bool
  | _, [] => true
  | before, c :: r =>
    if c = '_' then before && r.head?.any isDigit && isGrouped isDigit false r
    else isGrouped isDigit (isDigit c) r

def ungroup (cs : List Char) : List Char := cs.filter (· != '_')

def areDigits (cs : List Char) : Bool :=
  let digits := ungroup cs
  !digits.isEmpty && digits.all Char.isDigit

def isPadded (cs : List Char) : Bool := cs.head? = some '0' && (ungroup cs).length ≠ 1

def signed : List Char → Bool × List Char
  | '-' :: r => (true, r)
  | '+' :: r => (false, r)
  | cs => (false, cs)

def integerOf (cs : List Char) : Int :=
  let (negative, digits) := signed cs
  if negative then -(numberOf 10 digits : Int) else numberOf 10 digits

/-! ### Fractions -/

def cutAt (p : Char → Bool) (cs : List Char) : List Char × Option (List Char) :=
  match cs.dropWhile fun c => !p c with
  | [] => (cs, none)
  | _ :: r => (cs.takeWhile fun c => !p c, some r)

def fractionParts (cs : List Char) : List Char × Option (List Char) × Option (List Char) :=
  let (mantissa, exponent) := cutAt (fun c => c = 'e' || c = 'E') cs
  let (whole, part) := cutAt (· = '.') mantissa
  (whole, part, exponent)

def isFraction (cs : List Char) : Bool :=
  let (whole, part, exponent) := fractionParts cs
  areDigits whole && !isPadded whole && part.all areDigits &&
    exponent.all fun e => areDigits (signed e).2

def isNamedFloat (cs : List Char) : Bool := cs = "inf".toList || cs = "nan".toList

/-- The least magnitude that is nearer to infinity than to a number of 64 bits. -/
def overflow : Nat := Nat.pow 2 1024 - Nat.pow 2 970

/-- Whether a float lies near a number of 64 bits, or names infinity itself. -/
def isFinite (literal : String) : Bool :=
  let body := (signed literal.toList).2
  if isNamedFloat body then true
  else
    let (whole, part, exponent) := fractionParts body
    let digits := (whole ++ part.getD []).dropWhile (· = '0')
    let scale := (exponent.map integerOf).getD 0 - (part.getD []).length
    -- so many digits stand before the point; 309 of them are the only close case
    let size := digits.length + scale
    if digits.isEmpty || size < 309 then true
    else if 309 < size then false
    else if 0 ≤ scale then numberOf 10 digits * Nat.pow 10 scale.toNat < overflow
    else numberOf 10 digits < overflow * Nat.pow 10 (-scale).toNat

/-! ### Moments -/

def fixed? (count least most : Nat) (cs : List Char) : Option (Nat × List Char) :=
  let digits := cs.take count
  let n := numberOf 10 digits
  if digits.length = count && digits.all Char.isDigit && least ≤ n && n ≤ most then
    some (n, cs.drop count)
  else none

def after? (mark : Char) : List Char → Option (List Char)
  | c :: r => if c = mark then some r else none
  | [] => none

def daysIn (year month : Nat) : Nat :=
  if month = 2 then if year % 4 = 0 && (year % 100 ≠ 0 || year % 400 = 0) then 29 else 28
  else if month ∈ [4, 6, 9, 11] then 30 else 31

def dateEnd? (cs : List Char) : Option (List Char) := do
  let (year, cs) ← fixed? 4 0 9999 cs
  let (month, cs) ← fixed? 2 1 12 (← after? '-' cs)
  let (_, cs) ← fixed? 2 1 (daysIn year month) (← after? '-' cs)
  return cs

def clockEnd? (cs : List Char) : Option (List Char) := do
  let (_, cs) ← fixed? 2 0 23 cs
  let (_, cs) ← fixed? 2 0 59 (← after? ':' cs)
  return cs

def timeEnd? (edition : Edition) (cs : List Char) : Option (List Char) := do
  let cs ← clockEnd? cs
  match after? ':' cs with
  | none => if edition.lenient then return cs else none
  | some cs =>
    let (_, cs) ← fixed? 2 0 60 cs
    match after? '.' cs with
    | none => return cs
    | some cs => if cs.head?.any Char.isDigit then return cs.dropWhile Char.isDigit else none

def isOffset : List Char → Bool
  | [] | ['Z'] | ['z'] => true
  | c :: r => (c = '+' || c = '-') && clockEnd? r = some []

def isMoment (edition : Edition) (cs : List Char) : Bool :=
  match dateEnd? cs with
  | none => timeEnd? edition cs = some []
  | some [] => true
  | some (c :: r) => (c = 'T' || c = 't' || c = ' ') && (timeEnd? edition r).any isOffset

/-! ### Words -/

def based? (base : Nat) (cs : List Char) : Option Value :=
  if (ungroup cs).all (isDigitIn base) && isGrouped (isDigitIn base) false cs then
    some (if cs.isEmpty then .garbled else .integer (numberOf base (ungroup cs)))
  else none

def grouped? (before : Bool) (word : List Char) : Option Value :=
  if (signed word).2.head? ≠ some '0' && isGrouped (isDigitIn 16) before (signed word).2 then
    some (if (ungroup (signed word).2).all Char.isDigit then .integer (integerOf (ungroup word))
      else .garbled)
  else none

def number? (edition : Edition) (word : List Char) : Option Value :=
  match word with
  | '0' :: 'x' :: digits => based? 16 digits
  | '0' :: 'o' :: digits => based? 8 digits
  | '0' :: 'b' :: digits => based? 2 digits
  | _ =>
    let body := (signed word).2
    let rest := body.dropWhile Char.isDigit
    -- an underscore right behind the sign is passed over by lenient readers
    let before := edition.lenient && body.length ≠ word.length
    if isNamedFloat body then some (.float (.ofList word))
    else if rest.isEmpty then
      if body.isEmpty || isPadded body then none else some (.integer (integerOf word))
    else if rest.head? = some '-' || rest.head? = some ':' then
      if isMoment edition word then some (.moment (.ofList word)) else none
    else if rest.any (['.', 'e', 'E'].contains ·) then
      if isFraction body && isGrouped Char.isDigit before body then
        some (.float (.ofList (ungroup word)))
      else none
    else if rest.head? = some '_' then grouped? before word
    else none

/-! ### Values within bounds -/

mutual

/-- Whether every number in a value has one that can be held: 64 bits, and at most `most` for a
whole number. -/
def Value.isReadable (most : Nat) : Value → Bool
  | .integer n => -0x8000000000000000 ≤ n && n ≤ most
  | .garbled => false
  | .float literal => isFinite literal
  | .text _ | .boolean _ | .moment _ => true
  | .list _ items => allReadable most items
  | .table _ entries => entriesReadable most entries

def allReadable (most : Nat) : List Value → Bool
  | [] => true
  | v :: rest => v.isReadable most && allReadable most rest

def entriesReadable (most : Nat) : List (String × Value) → Bool
  | [] => true
  | (_, v) :: rest => v.isReadable most && entriesReadable most rest

end

end Rollout.Toml
