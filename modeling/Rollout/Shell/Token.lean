/-!
How a shell that is not interactive takes a command line apart, one character after the other. Every
character of a word keeps the way it was quoted, since that decides whether it may still stand for
something else. The text of a substitution is kept as it is; a shell reads it when it replaces it.
-/

namespace Rollout.Shell

inductive Quoting
  | bare
  | double
  | literal
  /-- Inside a substitution, where a text of its own begins. -/
  | nested
  deriving DecidableEq

structure Mark where
  char : Char
  quoting : Quoting
  deriving DecidableEq

inductive Token
  | word (marks : List Mark)
  | operator (text : List Char)
  | descriptor (digits : List Char)
  | newline
  deriving DecidableEq

def longOperators : List (List Char) :=
  ["&&", "||", ";;", ">&", "<&", ">>", "<<", ">|", "<>"].map String.toList

def isOperatorChar (c : Char) : Bool := "&|;<>()".toList.contains c

def isProtectable (c : Char) : Bool := "$\x60\"\\".toList.contains c

def isBlank (c : Char) : Bool := c = ' ' || c = '\t'

/-- What has been read but not ended; the latest character is the first. -/
inductive Pending
  | nothing
  | word (marks : List Mark)
  | operator (text : List Char)
  deriving DecidableEq

inductive Mode
  | bare
  | single
  | double
  | comment
  | escape
  | doubleEscape
  /-- Inside a substitution that began where `outer` holds; what is open is closed by these, the
  innermost first. A backslash is closed by any character. -/
  | nested (closers : List Char) (outer : Quoting)
  deriving DecidableEq

structure Reader where
  mode : Mode := .bare
  pending : Pending := .nothing
  tokens : List Token := []
  deriving DecidableEq

namespace Reader

def flush (r : Reader) : Reader :=
  match r.pending with
  | .nothing => r
  | .word marks => { r with pending := .nothing, tokens := .word marks.reverse :: r.tokens }
  | .operator text => { r with pending := .nothing, tokens := .operator text.reverse :: r.tokens }

/-- Ends what is pending in front of a redirection, where a word of digits names a descriptor. -/
def flushBeforeRedirection (r : Reader) : Reader :=
  match r.pending with
  | .word marks =>
    if !marks.isEmpty && marks.all fun m => m.quoting = .bare && m.char.isDigit then
      { r with pending := .nothing, tokens := .descriptor (marks.reverse.map (·.char)) :: r.tokens }
    else r.flush
  | _ => r.flush

def openWord (r : Reader) : Reader :=
  match r.pending with
  | .word _ => r
  | _ => { r.flush with pending := .word [] }

def push (c : Char) (quoting : Quoting) (r : Reader) : Reader :=
  match r.openWord.pending with
  | .word marks => { r.openWord with pending := .word (⟨c, quoting⟩ :: marks) }
  | _ => r

def pushOperator (c : Char) (r : Reader) : Reader :=
  let ended := if c = '<' || c = '>' then r.flushBeforeRedirection else r.flush
  match r.pending with
  | .operator text =>
    if longOperators.contains (c :: text).reverse then { r with pending := .operator (c :: text) }
    else { ended with pending := .operator [c] }
  | _ => { ended with pending := .operator [c] }

def startsComment (r : Reader) : Bool := !r.pending matches .word _

def followsDollar (quoting : Quoting) (r : Reader) : Bool :=
  match r.pending with
  | .word (m :: _) => m = ⟨'$', quoting⟩
  | _ => false

def substitution? (quoting : Quoting) (c : Char) (r : Reader) : Option Char :=
  if c = '\x60' then some c
  else if c = '(' && r.followsDollar quoting then some ')'
  else if c = '\x7b' && r.followsDollar quoting then some '\x7d'
  else none

def enter (c closer : Char) (outer : Quoting) (r : Reader) : Reader :=
  { r.push c (if c = closer then outer else .nested) with mode := .nested [closer] outer }

def closersAfter (afterDollar : Bool) (c : Char) : List Char → List Char
  | [] => []
  | closer :: rest =>
    if closer = '\\' || c = closer then rest
    else if closer = '\'' then closer :: rest
    else if c = '\\' || c = '"' || c = '\x60' then c :: closer :: rest
    else if c = '\'' && closer != '"' then c :: closer :: rest
    else if c = '\x7b' && afterDollar then '\x7d' :: closer :: rest
    else if c = '(' && (afterDollar || closer = ')') then ')' :: closer :: rest
    else closer :: rest

def stepNested (closers : List Char) (outer : Quoting) (c : Char) (r : Reader) : Reader :=
  match closersAfter (r.followsDollar .nested) c closers with
  | [] => { r.push c .nested with mode := if outer = .double then .double else .bare }
  | closers => { r.push c .nested with mode := .nested closers outer }

def stepBare (c : Char) (r : Reader) : Reader :=
  if c = '\\' then { r with mode := .escape }
  else if c = '\'' then { r.openWord with mode := .single }
  else if c = '"' then { r.openWord with mode := .double }
  else if c = '\n' then { r.flush with tokens := .newline :: r.flush.tokens }
  else if isBlank c then r.flush
  else if c = '#' && r.startsComment then { r.flush with mode := .comment }
  else match r.substitution? .bare c with
    | some closer => r.enter c closer .bare
    | none => if isOperatorChar c then r.pushOperator c else r.push c .bare

def stepDouble (c : Char) (r : Reader) : Reader :=
  if c = '"' then { r with mode := .bare }
  else if c = '\\' then { r with mode := .doubleEscape }
  else match r.substitution? .double c with
    | some closer => r.enter c closer .double
    | none => r.push c .double

def step (r : Reader) (c : Char) : Reader :=
  match r.mode with
  | .bare => r.stepBare c
  | .single => if c = '\'' then { r with mode := .bare } else r.push c .literal
  | .double => r.stepDouble c
  | .nested closers outer => r.stepNested closers outer c
  | .comment => if c = '\n' then { r with mode := .bare, tokens := .newline :: r.tokens } else r
  | .escape => if c = '\n' then { r with mode := .bare } else { r.push c .literal with mode := .bare }
  | .doubleEscape =>
    if c = '\n' then { r with mode := .double }
    else if isProtectable c then { r.push c .literal with mode := .double }
    else { (r.push '\\' .literal).push c .double with mode := .double }

def finish (r : Reader) : Option (List Token) :=
  match r.mode with
  | .bare => some r.flush.tokens.reverse
  | .comment => some r.flush.tokens.reverse
  | .escape => some (r.push '\\' .literal).flush.tokens.reverse
  | .single => none
  | .double => none
  | .doubleEscape => none
  | .nested _ _ => none

end Reader

def tokens? (line : List Char) : Option (List Token) := (line.foldl Reader.step {}).finish

end Rollout.Shell
