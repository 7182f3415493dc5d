import Rollout.Rehearsal.Shell.Arithmetic
import Rollout.Rehearsal.Shell.Effect

/-!
Formatted output: texts with escapes, and formats whose directives are filled with arguments until
none is left.
-/

namespace Rollout.Rehearsal.Shell.Format

def octalValue? (c : Char) : Option Nat :=
  if '0' ≤ c ∧ c ≤ '7' then some (c.toNat - 48) else none

def escapeByte? : Char → Option UInt8
  | 'a' => some 7
  | 'b' => some 8
  | 'e' => some 27
  | 'f' => some 12
  | 'n' => some 10
  | 'r' => some 13
  | 't' => some 9
  | 'v' => some 11
  | '\\' => some 92
  | _ => none

def encodeChar (c : Char) : Bytes := Utf8.encode (.singleton c)

def octal : (left : Nat) → (value : Nat) → List Char → Nat × List Char
  | left + 1, value, c :: rest =>
    match octalValue? c with
    | some d => octal left (value * 8 + d) rest
    | none => (value, c :: rest)
  | _, value, rest => (value, rest)

def escape : List Char → Bytes × List Char
  | [] => ([92], [])
  | c :: rest =>
    match octalValue? c, escapeByte? c with
    | some _, _ => ([(octal 3 0 (c :: rest)).1.toUInt8], (octal 3 0 (c :: rest)).2)
    | none, some b => ([b], rest)
    | none, none => (92 :: encodeChar c, rest)

/-- A text with its escapes replaced, and whether an escape ends all output. -/
def unescaped : (fuel : Nat) → List Char → Bytes × Bool
  | 0, _ | _, [] => ([], false)
  | _, '\\' :: 'c' :: _ => ([], true)
  | fuel + 1, '\\' :: '0' :: c :: rest =>
    let (bytes, rest) := if (octalValue? c).isSome then escape (c :: rest) else ([0], c :: rest)
    let (more, ends) := unescaped fuel rest
    (bytes ++ more, ends)
  | fuel + 1, '\\' :: rest =>
    let (bytes, rest) := escape rest
    let (more, ends) := unescaped fuel rest
    (bytes ++ more, ends)
  | fuel + 1, c :: rest =>
    let (more, ends) := unescaped fuel rest
    (encodeChar c ++ more, ends)

inductive Amount
  | fixed (n : Nat)
  | argument
  deriving DecidableEq

structure Directive where
  flags : List Char
  width : Option Amount
  precision : Option Amount
  kind : Option Char
  text : String

inductive Piece
  | bytes (bytes : Bytes)
  | directive (d : Directive)

def amount (cs : List Char) : Option Amount × List Char :=
  match cs with
  | '*' :: rest => (some .argument, rest)
  | _ =>
    let digits := cs.takeWhile Char.isDigit
    ((String.ofList digits).toNat?.map .fixed, cs.drop digits.length)

def directive (cs : List Char) : Directive × List Char :=
  let flags := cs.takeWhile ("-+ #0".toList.contains ·)
  let (width, rest) := amount (cs.drop flags.length)
  let (precision, rest) := match rest with
    | '.' :: rest =>
      let (precision, rest) := amount rest
      (some (precision.getD (.fixed 0)), rest)
    | _ => (none, rest)
  let text := String.ofList ('%' :: cs.take (cs.length - rest.length + 1))
  ({ flags, width, precision, kind := rest.head?, text }, rest.drop 1)

def pieces : (fuel : Nat) → List Char → List Piece
  | 0, _ | _, [] => []
  | fuel + 1, '\\' :: rest =>
    let (bytes, rest) := escape rest
    .bytes bytes :: pieces fuel rest
  | fuel + 1, '%' :: '%' :: rest => .bytes [37] :: pieces fuel rest
  | fuel + 1, '%' :: rest =>
    let (d, rest) := directive rest
    .directive d :: pieces fuel rest
  | fuel + 1, c :: rest => .bytes (encodeChar c) :: pieces fuel rest

def number (least greatest : Int) (text : String) : Int × Option String :=
  let cs := text.toList
  match cs with
  | '"' :: rest | '\'' :: rest =>
    (((Utf8.encode (.ofList rest)).head?.map fun b => (b.toNat : Int)).getD 0, none)
  | _ =>
    let bare := cs.dropWhile fun c => c = ' ' || c = '\t' || c = '\n'
    let negative := bare.head? = some '-'
    let digits := if negative || bare.head? = some '+' then bare.drop 1 else bare
    if digits.isEmpty && cs.isEmpty then (0, none)
    else if !digits.head?.any Char.isDigit then (0, some (text ++ ": expected numeric value"))
    else
      let (value, rest) := Arithmetic.exactNumber digits
      let value : Int := if negative then -value else value
      if value < least then (least, some (text ++ ": Numerical result out of range"))
      else if greatest < value then (greatest, some (text ++ ": Numerical result out of range"))
      else (value, if rest.isEmpty then none else some (text ++ ": not completely converted"))

def padded (left : Bool) (width : Nat) (bytes : Bytes) : Bytes :=
  let blanks := List.replicate (width - bytes.length) 32
  if left then bytes ++ blanks else blanks ++ bytes

def numeral (flags : List Char) (width : Nat) (precision : Option Nat) (kind : Char) (value : Int) :
    Bytes :=
  let signed := kind = 'd' || kind = 'i'
  let size := if signed then value.natAbs else (value % Arithmetic.modulus).toNat
  let base := match kind with
    | 'x' | 'X' => 16
    | 'o' => 8
    | _ => 10
  let digits := if size = 0 && precision = some 0 then [] else Nat.toDigits base size
  let digits := if kind = 'X' then digits.map Char.toUpper else digits
  let digits := List.replicate (precision.getD 0 - digits.length) '0' ++ digits
  let digits := if kind = 'o' && flags.contains '#' && digits.head? != some '0' then '0' :: digits
    else digits
  let sign := if signed && value < 0 then ['-']
    else if signed && flags.contains '+' then ['+']
    else if signed && flags.contains ' ' then [' ']
    else if (kind = 'x' || kind = 'X') && flags.contains '#' && size != 0 then ['0', kind]
    else []
  let zeros := if flags.contains '0' && !flags.contains '-' && precision.isNone then
    List.replicate (width - sign.length - digits.length) '0' else []
  padded (flags.contains '-') width (Utf8.encode (.ofList (sign ++ zeros ++ digits)))

structure Progress where
  out : Bytes := []
  complaints : List String := []
  args : List String := []
  broken : Bool := false
  ended : Bool := false

namespace Progress

def isOver (p : Progress) : Bool := p.broken || p.ended

def next (p : Progress) : String × Progress := (p.args.headD "", { p with args := p.args.drop 1 })

def nextNumber (least greatest : Int) (p : Progress) : Int × Progress :=
  let (text, p) := p.next
  let (value, wrong) := number least greatest text
  (value, { p with complaints := p.complaints ++ wrong.toList })

def nextAmount (p : Progress) : Option Amount → Option Int × Progress
  | none => (none, p)
  | some (.fixed n) => (some n, p)
  | some .argument =>
    let (value, p) := p.nextNumber (-0x80000000) 0x7FFFFFFF
    (some value, p)

def fill (p : Progress) (d : Directive) : Progress :=
  let (width, p) := p.nextAmount d.width
  let (precision, p) := p.nextAmount d.precision
  let flags := if width.any (· < 0) then '-' :: d.flags else d.flags
  let width := (width.getD 0).natAbs
  let precision := if precision.any (· < 0) then none else precision.map Int.toNat
  let text (p : Progress) (bytes : Bytes) : Progress :=
    let kept := bytes.take (precision.getD bytes.length)
    { p with out := p.out ++ padded (flags.contains '-') width kept }
  match d.kind with
  | none =>
    { p with complaints := p.complaints ++ ["missing format character"], broken := true }
  | some 's' => text p.next.2 (Utf8.encode p.next.1)
  | some 'b' =>
    let (bytes, ended) := unescaped p.next.1.length p.next.1.toList
    { text p.next.2 bytes with ended }
  | some 'c' => text p.next.2 (match Utf8.encode p.next.1 with | [] => [0] | b :: _ => [b])
  | some kind =>
    if kind = 'd' || kind = 'i' then
      let (value, p) := p.nextNumber (-Arithmetic.greatest - 1) Arithmetic.greatest
      { p with out := p.out ++ numeral flags width precision kind value }
    else if kind = 'u' || kind = 'x' || kind = 'X' || kind = 'o' then
      let (value, p) := p.nextNumber (-Arithmetic.greatest - 1) (Arithmetic.modulus - 1)
      { p with out := p.out ++ numeral flags width precision kind value }
    else { p with complaints := p.complaints ++ [d.text ++ ": invalid directive"], broken := true }

def pass (format : List Piece) (p : Progress) : Progress :=
  format.foldl (fun p piece =>
    if p.isOver then p
    else match piece with
      | .bytes bytes => { p with out := p.out ++ bytes }
      | .directive d => p.fill d) p

/-- Goes through a format until the arguments are used up, or not used. -/
def passes (format : List Piece) : (fuel : Nat) → Progress → Progress
  | 0, p => p
  | fuel + 1, p =>
    let after := p.pass format
    if after.isOver || after.args.isEmpty || after.args.length = p.args.length then after
    else passes format fuel after

end Progress

def printf (who : String) (args : List String) : Effect :=
  let filled (format : List Char) (args : List String) : Effect :=
    let p := Progress.passes (pieces format.length format) (args.length + 1) { args }
    let status := if p.broken then 2 else if p.complaints.isEmpty then 0 else 1
    { Effect.complaint who p.complaints status with stdout := p.out }
  match args with
  | [] | ["--"] => .complaint who ["usage: printf format [arg ...]"] 2
  | "--" :: format :: args => filled format.toList args
  | format :: args =>
    match format.toList with
    | '-' :: flag :: _ => .complaint who ["Illegal option -" ++ .singleton flag] 2
    | cs => filled cs args

def echo (args : List String) : Effect :=
  let endsLine := args.head? != some "-n"
  let text := " ".intercalate (if endsLine then args else args.drop 1)
  let (bytes, ended) := unescaped text.length text.toList
  { stdout := if endsLine && !ended then bytes ++ [10] else bytes }

def plainEcho (args : List String) : Effect :=
  let isOption (arg : String) : Bool := match arg.toList with
    | '-' :: letter :: letters => (letter :: letters).all ("neE".toList.contains ·)
    | _ => false
  let options := (args.takeWhile isOption).flatMap fun arg => arg.toList.drop 1
  let text := " ".intercalate (args.dropWhile isOption)
  let replaces := (options.filter (· != 'n')).getLast? = some 'e'
  let (bytes, ended) := if replaces then unescaped text.length text.toList else (Utf8.encode text, false)
  { stdout := if options.contains 'n' || ended then bytes else bytes ++ [10] }

end Rollout.Rehearsal.Shell.Format
