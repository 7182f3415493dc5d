import Rollout.Rehearsal.Shell.Reading

/-!
How the text of a script is read: one complete command after the other, so that a fault does not
touch the commands before it. A redirection can announce a text that begins on the next line.
-/

namespace Rollout.Rehearsal.Shell

open Rollout.Shell (Token Quoting)

structure Source where
  scripts : List Script := []
  fault : Option (Nat × SyntaxFault) := none

def Source.ofTokens (fuel : Nat) (atEnd : Option (Nat × SyntaxFault)) (r : Remaining) : Source :=
  match fuel, (Reading.skipNewlines).run r with
  | fuel + 1, .ok ((), r) =>
    if r.tokens.isEmpty then { fault := atEnd }
    else
      let size := 8 * r.tokens.length + 8
      match (do Reading.line size (← Reading.andOr size)).run r with
      | .ok (script, r) =>
        let later := ofTokens fuel atEnd r
        -- a line that is not ended as it should be is not run
        if r.tokens.isEmpty && atEnd.isSome then later
        else { later with scripts := script :: later.scripts }
      | .error (line, .unexpected "end of file" expected) =>
        { fault := some (atEnd.getD (line, .unexpected "end of file" expected)) }
      | .error fault => { fault := some fault }
  | _, _ => {}

def Word.ofOperand (quoting : Quoting) (cs : List Char) : Word :=
  let start : Shell.Reader := { mode := if quoting = .double then .double else .bare }
  let r := cs.foldl (fun (r : Shell.Reader) c =>
    if r.mode = .bare && (Shell.isBlank c || Shell.isOperatorChar c || c = '\n' || c = '#') &&
        !(r.substitution? .bare c).isSome then r.push c .bare
    else r.step c) start
  match r.pending with
  | .word marks => marks.reverse
  | _ => []

/-! ### Announced texts -/

/-- A text that is announced: whether tabs at the start of its lines are dropped, and its last line. -/
structure Announcement where
  dropsTabs : Bool
  ending : Word

def Announcement.ofTokens : List Token → List Announcement
  | .word ending :: .operator op :: rest =>
    let dropsTabs := ending.head? = some ⟨'-', .bare⟩
    if isAnnouncement op then
      ofTokens rest ++ [⟨dropsTabs, if dropsTabs then ending.drop 1 else ending⟩]
    else ofTokens (.operator op :: rest)
  | .newline :: _ => []
  | _ :: rest => ofTokens rest
  | [] => []

namespace Announcement

def lines (a : Announcement) : List (List Char) → List (List Char) × List (List Char)
  | [] => ([], [])
  | line :: rest =>
    let line := if a.dropsTabs then line.dropWhile (· = '\t') else line
    if line = a.ending.map (·.char) then ([], rest)
    else
      let (more, rest) := a.lines rest
      (line :: more, rest)

/-- The text as one word, in which substitutions count unless its last line was quoted. -/
def document (a : Announcement) (lines : List (List Char)) : Word :=
  let cs := lines.flatMap (· ++ ['\n'])
  if a.ending.isBare then
    .ofOperand .double (cs.flatMap fun c => if c = '"' then ['\\', c] else [c])
  else Word.ofText .literal (.ofList cs)

end Announcement

structure Lines where
  reader : Shell.Reader := {}
  documents : List Word := []

def Lines.ofLines (r : Lines) : (fuel : Nat) → List (List Char) → Lines
  | 0, _ | _, [] => r
  | _, [last] => { r with reader := last.foldl Shell.Reader.step r.reader }
  | fuel + 1, line :: rest =>
    let ended := (line.foldl Shell.Reader.step r.reader)
    let announced := if ended.mode = .bare || ended.mode = .comment then
      Announcement.ofTokens ended.flush.tokens else []
    let (documents, rest) := announced.foldl (fun (documents, rest) a =>
      let (lines, rest) := a.lines rest
      (documents ++ [a.document lines], rest)) (r.documents, rest)
    Lines.ofLines { reader := ended.step '\n', documents } fuel rest

def linesOf : List Char → List (List Char)
  | [] => [[]]
  | c :: rest =>
    if c = '\n' then [] :: linesOf rest
    else match linesOf rest with
      | [] => [[c]]
      | first :: others => (c :: first) :: others

def Source.ofText (text : String) : Source :=
  let lines := linesOf text.toList
  let { reader := r, documents } := ({} : Lines).ofLines lines.length lines
  let broken : Option SyntaxFault := match r.mode with
    | .bare | .comment | .escape => none
    | .single | .double | .doubleEscape => some .openQuote
    | .nested closers _ => closers.getLast?.map .openSubstitution
  let r := if r.mode = .escape then r.push '\\' .literal else r
  let tokens := if broken.isSome then r.tokens.reverse else r.flush.tokens.reverse
  .ofTokens (tokens.length + 1) (broken.map (lines.length, ·)) { tokens, documents }

end Rollout.Rehearsal.Shell
