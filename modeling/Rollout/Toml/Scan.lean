import Rollout.Toml.Number

/-!
The smallest pieces of a TOML text: blanks and comments, strings, keys, and values without quotes. A
scanner takes a piece off the front of the text, and fails where no such piece stands.
-/

namespace Rollout.Toml

abbrev Scan := StateT (List Char) Option

namespace Scan

def peek? : Scan (Option Char) := fun cs => some (cs.head?, cs)

def skip? (mark : List Char) : Scan Bool := fun cs =>
  if mark.isPrefixOf cs then some (true, cs.drop mark.length) else some (false, cs)

def expect (mark : List Char) : Scan Unit := do
  if !(← skip? mark) then failure

def takeWhile (p : Char → Bool) : Scan (List Char) := fun cs => some (cs.takeWhile p, cs.dropWhile p)

def ofStep {α : Type} (f : List Char → Option (α × List Char)) : Scan α := f

end Scan

def isSpace (c : Char) : Bool := c = ' ' || c = '\t'

def isLineChar (c : Char) : Bool := c = '\t' || (0x20 ≤ c.toNat && c.toNat ≠ 0x7F)

def isBareKeyChar (c : Char) : Bool := c.isAlphanum || c = '_' || c = '-'

def spaces : Scan Unit := discard (Scan.takeWhile isSpace)

def dropTrivia : (inComment : Bool) → List Char → Option (List Char)
  | _, [] => some []
  | _, '\n' :: r => dropTrivia false r
  | _, '\r' :: '\n' :: r => dropTrivia false r
  | true, c :: r => if isLineChar c then dropTrivia true r else none
  | false, '#' :: r => dropTrivia true r
  | false, c :: r => if isSpace c then dropTrivia false r else some (c :: r)

def trivia : Scan Unit := fun cs => (dropTrivia false cs).map ((), ·)

def lineEnd : Scan Unit := do
  spaces
  if ← Scan.skip? ['#'] then discard (Scan.takeWhile isLineChar)
  if !(← Scan.skip? ['\n']) && !(← Scan.skip? ['\r', '\n']) then
    if (← Scan.peek?).isSome then failure

/-! ### Strings -/

def hex? (cs : List Char) : Option Nat :=
  cs.foldlM (fun n c => (hexValue? c).map (n * 16 + ·)) 0

def numbered? (count : Nat) (cs : List Char) : Option (Char × Nat) := do
  let digits := cs.take count
  let n ← hex? digits
  if digits.length = count && n.isValidChar then some (.ofNat n, count + 1) else none

def escape? (edition : Edition) : List Char → Option (Char × Nat)
  | 'b' :: _ => some ('\x08', 1)
  | 't' :: _ => some ('\t', 1)
  | 'n' :: _ => some ('\n', 1)
  | 'f' :: _ => some ('\x0c', 1)
  | 'r' :: _ => some ('\r', 1)
  | 'e' :: _ => if edition.lenient then some ('\x1b', 1) else none
  | '"' :: _ => some ('"', 1)
  | '\\' :: _ => some ('\\', 1)
  | 'x' :: r => if edition.lenient then numbered? 2 r else none
  | 'u' :: r => numbered? 4 r
  | 'U' :: r => numbered? 8 r
  | _ => none

def prepend (piece : List Char) (scanned : Option (List Char × List Char)) :
    Option (List Char × List Char) :=
  scanned.map fun (text, rest) => (piece ++ text, rest)

def basic (edition : Edition) : (skip : Nat) → List Char → Option (List Char × List Char)
  | _, [] => none
  | skip + 1, _ :: r => basic edition skip r
  | 0, '"' :: r => some ([], r)
  | 0, '\\' :: r =>
    match escape? edition r with
    | some (c, skip) => prepend [c] (basic edition skip r)
    | none => none
  | 0, c :: r => if isLineChar c then prepend [c] (basic edition 0 r) else none

def literal : List Char → Option (List Char × List Char)
  | [] => none
  | '\'' :: r => some ([], r)
  | c :: r => if isLineChar c then prepend [c] (literal r) else none

/-- Up to two quotes may stand right before the three that close a string of several lines. -/
def closing (quote : Char) : List Char → List Char × List Char
  | a :: b :: r => if a = quote then if b = quote then ([a, b], r) else ([a], b :: r) else ([], a :: b :: r)
  | [a] => if a = quote then ([a], []) else ([], [a])
  | [] => ([], [])

def endsLine (cs : List Char) : Bool :=
  match cs.dropWhile isSpace with
  | '\n' :: _ => true
  | '\r' :: '\n' :: _ => true
  | _ => false

/-- The inside of a basic string of several lines. A backslash at the end of a line takes away
everything up to the next character that is not blank. -/
def basicLines (edition : Edition) :
    (skip : Nat) → (folding : Bool) → List Char → Option (List Char × List Char)
  | _, _, [] => none
  | skip + 1, _, _ :: r => basicLines edition skip false r
  | 0, _, '"' :: '"' :: '"' :: r => some (closing '"' r)
  | 0, folding, '\r' :: '\n' :: r => prepend (if folding then [] else ['\r', '\n']) (basicLines edition 0 folding r)
  | 0, folding, '\n' :: r => prepend (if folding then [] else ['\n']) (basicLines edition 0 folding r)
  | 0, _, '\\' :: r =>
    if endsLine r then basicLines edition 0 true r
    else match escape? edition r with
      | some (c, skip) => prepend [c] (basicLines edition skip false r)
      | none => none
  | 0, folding, c :: r =>
    if folding && isSpace c then basicLines edition 0 true r
    else if isLineChar c then prepend [c] (basicLines edition 0 false r) else none

def literalLines : List Char → Option (List Char × List Char)
  | [] => none
  | '\'' :: '\'' :: '\'' :: r => some (closing '\'' r)
  | '\r' :: '\n' :: r => prepend ['\r', '\n'] (literalLines r)
  | c :: r => if c = '\n' || isLineChar c then prepend [c] (literalLines r) else none

def afterOpening : List Char → List Char
  | '\n' :: r => r
  | '\r' :: '\n' :: r => r
  | cs => cs

def string (edition : Edition) : Scan String := do
  if ← Scan.skip? ['"', '"', '"'] then
    return .ofList (← Scan.ofStep fun cs => basicLines edition 0 false (afterOpening cs))
  else if ← Scan.skip? ['\'', '\'', '\''] then
    return .ofList (← Scan.ofStep fun cs => literalLines (afterOpening cs))
  else if ← Scan.skip? ['"'] then return .ofList (← Scan.ofStep (basic edition 0))
  else do
    Scan.expect ['\'']
    return .ofList (← Scan.ofStep literal)

/-! ### Keys -/

def simpleKey (edition : Edition) : Scan String := do
  if ← Scan.skip? ['"'] then return .ofList (← Scan.ofStep (basic edition 0))
  else if ← Scan.skip? ['\''] then return .ofList (← Scan.ofStep literal)
  else
    let name ← Scan.takeWhile isBareKeyChar
    if name.isEmpty then failure else return .ofList name

def moreKeys (edition : Edition) : (fuel : Nat) → Scan (List String)
  | 0 => failure
  | fuel + 1 => do
    spaces
    if ← Scan.skip? ['.'] then
      spaces
      let name ← simpleKey edition
      return name :: (← moreKeys edition fuel)
    else return []

def key (edition : Edition) : Scan (List String × String) := do
  let name ← simpleKey edition
  let names := name :: (← moreKeys edition edition.keyLength)
  return (names.dropLast, names.getLastD name)

/-! ### Values without quotes -/

def isMark (c : Char) : Bool := "=,[]\x7b\x7d#'\" \t\r\n".toList.contains c

def bareValue (edition : Edition) : Scan Value := do
  let word ← Scan.takeWhile (!isMark ·)
  -- a date and a time may have a space between them
  let rest ← get
  let word ←
    if dateEnd? word = some [] && rest.head? = some ' ' && rest.tail.head?.any Char.isDigit then
      Scan.expect [' ']
      pure (word ++ ' ' :: (← Scan.takeWhile (!isMark ·)))
    else pure word
  if word = "true".toList then return .boolean true
  else if word = "false".toList then return .boolean false
  else match number? edition word with
    | some value => return value
    | none => failure

end Rollout.Toml
