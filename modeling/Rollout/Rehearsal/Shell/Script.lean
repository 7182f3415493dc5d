import Rollout.Shell.Token

/-! Scripts: the commands of a shell as a tree, and what can be wrong with their text. -/

namespace Rollout.Rehearsal.Shell

open Rollout.Shell (Mark Quoting Token)

abbrev Word := List Mark

def Word.ofText (quoting : Quoting) (text : String) : Word := text.toList.map (⟨·, quoting⟩)

def Word.text (word : Word) : String := .ofList (word.map (·.char))

def Word.isBare (word : Word) : Bool := word.all (·.quoting = .bare)

structure Redirection where
  descriptor : Nat
  operator : String
  word : Word

structure Simple where
  line : Nat
  assignments : List (String × Word) := []
  words : List Word := []
  redirections : List Redirection := []

inductive Script
  | simple (command : Simple)
  | pipeline (stages : List Script)
  | negation (body : Script)
  | conjunction (first second : Script)
  | disjunction (first second : Script)
  | sequence (first second : Script)
  | background (body : Script)
  | subshell (body : Script)
  | branch (test positive : Script) (negative : Option Script)
  /-- Runs the body as long as the test comes out as `goal`. -/
  | loop (goal : Bool) (test body : Script)
  | each (name : String) (words : Option (List Word)) (body : Script)
  | choice (subject : Word) (arms : List (List Word × Option Script))
  | definition (name : String) (body : Script)
  | redirected (line : Nat) (body : Script) (redirections : List Redirection)

inductive SyntaxFault
  | unexpected (found : String) (expected : Option String)
  | badLoopVariable
  | badFunctionName
  | openQuote
  | openSubstitution (closer : Char)

def SyntaxFault.message : SyntaxFault → String
  | .unexpected found none => found ++ " unexpected"
  | .unexpected found (some expected) => found ++ " unexpected (expecting " ++ expected ++ ")"
  | .badLoopVariable => "Bad for loop variable"
  | .badFunctionName => "Bad function name"
  | .openQuote => "Unterminated quoted string"
  | .openSubstitution '\x7d' => "Missing '\x7d'"
  | .openSubstitution '\x60' => "EOF in backquote substitution"
  | .openSubstitution _ => "end of file unexpected (expecting \")\")"

def isNameStart (c : Char) : Bool := c.isAlpha || c = '_'

def isNameChar (c : Char) : Bool := c.isAlphanum || c = '_'

def isName (text : String) : Bool :=
  text.toList.head?.any isNameStart && text.toList.all isNameChar

def assignment? (word : Word) : Option (String × Word) :=
  let name := word.takeWhile fun m => m.quoting = .bare && isNameChar m.char
  match word.drop name.length with
  | equals :: value =>
    if isName (Word.text name) && equals = ⟨'=', .bare⟩ then some (Word.text name, value) else none
  | [] => none

def reservedWords : List String :=
  ["!", "case", "do", "done", "elif", "else", "esac", "fi", "for", "if", "in", "then", "until",
   "while", "\x7b", "\x7d"]

def listEnds : List String := ["do", "done", "elif", "else", "esac", "fi", "then", "\x7d"]

def reserved? : Token → Option String
  | .word word =>
    if Word.isBare word && reservedWords.contains (Word.text word) then some (Word.text word) else none
  | _ => none

def isRedirection (op : List Char) : Bool := op.any fun c => c = '<' || c = '>'

def isAnnouncement (op : List Char) : Bool := op = "<<".toList

def describe : Option Token → String
  | none => "end of file"
  | some .newline => "newline"
  | some (.descriptor _) => "redirection"
  | some (.operator op) => if isRedirection op then "redirection" else "\"" ++ .ofList op ++ "\""
  | some (.word word) =>
    match reserved? (.word word) with
    | some name => "\"" ++ name ++ "\""
    | none => "word"

end Rollout.Rehearsal.Shell
