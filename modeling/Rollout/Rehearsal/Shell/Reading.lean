import Rollout.Rehearsal.Shell.Script

/-! How commands are read from tokens. Each reader takes what belongs to it and leaves the rest. -/

namespace Rollout.Rehearsal.Shell

open Rollout.Shell (Token)

structure Remaining where
  tokens : List Token
  line : Nat := 1
  documents : List Word := []

abbrev Reading := StateT Remaining (Except (Nat × SyntaxFault))

namespace Reading

def fail {α : Type} (fault : SyntaxFault) : Reading α := do throw ((← get).line, fault)

def peek : Reading (Option Token) := return (← get).tokens.head?

def advance : Reading Unit := modify fun r =>
  let lines := match r.tokens with
    | .newline :: _ => 1
    | .word word :: _ => word.countP (·.char = '\n')
    | _ => 0
  { r with tokens := r.tokens.drop 1, line := r.line + lines }

def skipNewlines : Reading Unit := modify fun r =>
  let lines := r.tokens.takeWhile (· = .newline)
  { r with tokens := r.tokens.drop lines.length, line := r.line + lines.length }

def refuse {α : Type} (expected : Option String) : Reading α := do
  fail (.unexpected (describe (← peek)) expected)

def isOperator (text : String) : Reading Bool := return (← peek) = some (.operator text.toList)

def isReserved (name : String) : Reading Bool := return (← peek).bind reserved? = some name

def operator? (text : String) : Reading Bool := do
  if ← isOperator text then advance; return true else return false

def operator (text : String) : Reading Unit := do
  if !(← operator? text) then refuse (some ("\"" ++ text ++ "\""))

def reserved (name : String) : Reading Unit := do
  if ← isReserved name then advance else refuse (some ("\"" ++ name ++ "\""))

def word? : Reading (Option Word) := do
  match ← peek with
  | some (.word word) => advance; return some word
  | _ => return none

/-- A token that is no word where one is needed. Reserved words count as words here. -/
def word (expected : Option String) : Reading Word := do
  match ← word? with
  | some word => return word
  | none => refuse expected

def atListEnd : Reading Bool := do
  match ← peek with
  | none => return true
  | some (.operator op) => return op = [')'] || op = [';', ';']
  | some token => return (reserved? token).any (listEnds.contains ·)

def redirection? : Reading (Option Redirection) := do
  let described : Option (Nat × List Char) :=
    match (← get).tokens with
    | .descriptor digits :: .operator op :: _ => some ((String.ofList digits).toNat?.getD 0, op)
    | .operator op :: _ =>
      if isRedirection op then some (if op.head? = some '<' then 0 else 1, op) else none
    | _ => none
  match described with
  | none => return none
  | some (descriptor, op) =>
    if (← peek) matches some (.descriptor _) then advance
    advance
    let word ← word none
    if !isAnnouncement op then return some ⟨descriptor, .ofList op, word⟩
    let document := (← get).documents.headD []
    modify fun r => { r with documents := r.documents.drop 1 }
    return some ⟨descriptor, .ofList op, document⟩

def redirections : (fuel : Nat) → Reading (List Redirection)
  | 0 => return []
  | fuel + 1 => do
    match ← redirection? with
    | some r => return r :: (← redirections fuel)
    | none => return []

def words : (fuel : Nat) → Reading (List Word)
  | 0 => return []
  | fuel + 1 => do
    match ← word? with
    | some word => return word :: (← words fuel)
    | none => return []

def patterns : (fuel : Nat) → Reading (List Word)
  | 0 => return []
  | fuel + 1 => do
    let some first ← word? | return []
    if ← operator? "|" then return first :: (← patterns fuel) else return [first]

def simple : (fuel : Nat) → Simple → Reading Simple
  | 0, c => return c
  | fuel + 1, c => do
    match ← redirection? with
    | some r => simple fuel { c with redirections := c.redirections ++ [r] }
    | none =>
      match ← word? with
      | none => return c
      | some word =>
        match c.words, assignment? word with
        | [], some a => simple fuel { c with assignments := c.assignments ++ [a] }
        | _, _ => simple fuel { c with words := c.words ++ [word] }

mutual

def commands : (fuel : Nat) → Reading Script
  | 0 => refuse none
  | fuel + 1 => do
    skipNewlines
    -- at the end of the text the token that is missing is reported, not the command
    if (← peek).isNone then return .simple { line := (← get).line }
    moreCommands fuel (← andOr fuel)

def moreCommands : (fuel : Nat) → Script → Reading Script
  | 0, before => return before
  | fuel + 1, before => do
    let ends ← operator? "&"
    let before := if ends then .background before else before
    let goesOn ← if ends then pure true else operator? ";"
    if !goesOn && (← peek) != some .newline then return before
    skipNewlines
    if ← atListEnd then return before
    moreCommands fuel (.sequence before (← andOr fuel))

def andOr : (fuel : Nat) → Reading Script
  | 0 => refuse none
  | fuel + 1 => do moreAndOr fuel (← pipeline fuel)

def moreAndOr : (fuel : Nat) → Script → Reading Script
  | 0, before => return before
  | fuel + 1, before => do
    if ← operator? "&&" then
      skipNewlines
      moreAndOr fuel (.conjunction before (← pipeline fuel))
    else if ← operator? "||" then
      skipNewlines
      moreAndOr fuel (.disjunction before (← pipeline fuel))
    else return before

def pipeline : (fuel : Nat) → Reading Script
  | 0 => refuse none
  | fuel + 1 => do
    if ← isReserved "!" then
      advance
      return .negation (← stages fuel)
    stages fuel

def stages : (fuel : Nat) → Reading Script
  | 0 => refuse none
  | fuel + 1 => do
    let first ← command fuel
    match ← moreStages fuel with
    | [] => return first
    | rest => return .pipeline (first :: rest)

def moreStages : (fuel : Nat) → Reading (List Script)
  | 0 => return []
  | fuel + 1 => do
    if ← operator? "|" then
      skipNewlines
      let stage ← command fuel
      return stage :: (← moreStages fuel)
    return []

def command : (fuel : Nat) → Reading Script
  | 0 => refuse none
  | fuel + 1 => do
    let line := (← get).line
    match ← compound? fuel with
    | some body =>
      match ← redirections fuel with
      | [] => return body
      | rs => return .redirected line body rs
    | none =>
      match ← peek with
      | some (.operator op) => if !isRedirection op then refuse none
      | none | some .newline => refuse none
      | some token => if (reserved? token).isSome then refuse none
      let c ← simple fuel { line }
      if c.words.length = 1 && c.assignments.isEmpty && c.redirections.isEmpty then
        if ← operator? "(" then
          operator ")"
          let name := c.words.headD []
          if !(Word.isBare name && isName (Word.text name)) then fail .badFunctionName
          skipNewlines
          return .definition (Word.text name) (← command fuel)
      return .simple c

def compound? : (fuel : Nat) → Reading (Option Script)
  | 0 => return none
  | fuel + 1 => do
    if ← operator? "(" then
      let body ← commands fuel
      operator ")"
      return some (.subshell body)
    match (← peek).bind reserved? with
    | some "\x7b" =>
      advance
      let body ← commands fuel
      reserved "\x7d"
      return some body
    | some "if" =>
      advance
      return some (← branch fuel)
    | some "while" =>
      advance
      return some (← loop fuel true)
    | some "until" =>
      advance
      return some (← loop fuel false)
    | some "for" =>
      advance
      return some (← each fuel)
    | some "case" =>
      advance
      let subject ← word (some "word")
      skipNewlines
      reserved "in"
      skipNewlines
      let arms ← arms fuel
      reserved "esac"
      return some (.choice subject arms)
    | _ => return none

def branch : (fuel : Nat) → Reading Script
  | 0 => refuse none
  | fuel + 1 => do
    let test ← commands fuel
    reserved "then"
    let positive ← commands fuel
    if ← isReserved "elif" then
      advance
      return .branch test positive (some (← branch fuel))
    if ← isReserved "else" then
      advance
      let negative ← commands fuel
      reserved "fi"
      return .branch test positive (some negative)
    reserved "fi"
    return .branch test positive none

def loop : (fuel : Nat) → (goal : Bool) → Reading Script
  | 0, _ => refuse none
  | fuel + 1, goal => do
    let test ← commands fuel
    reserved "do"
    let body ← commands fuel
    reserved "done"
    return .loop goal test body

def each : (fuel : Nat) → Reading Script
  | 0 => refuse none
  | fuel + 1 => do
    let some name ← word? | fail .badLoopVariable
    if !(Word.isBare name && isName (Word.text name)) then fail .badLoopVariable
    skipNewlines
    let mut listed : Option (List Word) := none
    if ← isReserved "in" then
      advance
      listed := some (← words fuel)
      if !(← operator? ";") && (← peek) != some .newline then refuse none
    else
      let _ ← operator? ";"
    skipNewlines
    reserved "do"
    let body ← commands fuel
    reserved "done"
    return .each (Word.text name) listed body

def arms : (fuel : Nat) → Reading (List (List Word × Option Script))
  | 0 => return []
  | fuel + 1 => do
    if ← isReserved "esac" then return []
    let _ ← operator? "("
    let admitted ← patterns fuel
    operator ")"
    skipNewlines
    let body ← if ← atListEnd then pure none else some <$> commands fuel
    if ← operator? ";;" then
      skipNewlines
      return (admitted, body) :: (← arms fuel)
    if !(← isReserved "esac") then refuse (some "\";;\"")
    return [(admitted, body)]

end

def line : (fuel : Nat) → Script → Reading Script
  | 0, before => return before
  | fuel + 1, before => do
    let ends ← operator? "&"
    let before := if ends then .background before else before
    let more ← if ends then pure true else operator? ";"
    match ← peek with
    | none => return before
    | some .newline => return before
    | some _ => if more then line fuel (.sequence before (← andOr fuel)) else refuse none

end Reading

end Rollout.Rehearsal.Shell
