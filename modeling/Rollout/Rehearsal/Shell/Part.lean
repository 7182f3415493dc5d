import Rollout.Rehearsal.Shell.Script

/-! The parts that a word is made of, and the names and operators of its parameters. -/

namespace Rollout.Rehearsal.Shell

open Rollout.Shell (Mark Quoting)

inductive Part
  /-- An active character may have a meaning in a pattern. -/
  | char (c : Char) (active : Bool)
  | kept
  | gap (c : Char)
  deriving DecidableEq

namespace Part

def ofText (separators : List Char) (quoting : Quoting) (text : String) : List Part :=
  if quoting = .bare then text.toList.map fun c => if separators.contains c then .gap c else .char c true
  else .kept :: text.toList.map (.char · false)

def char? : Part → Option Char
  | .char c _ => some c
  | .gap c => some c
  | .kept => none

def text (parts : List Part) : String := .ofList (parts.filterMap char?)

def marked (parts : List Part) : List (Char × Bool) := parts.filterMap fun
  | .char c active => some (c, active)
  | .gap c => some (c, false)
  | .kept => none

def betweenGaps : List Part → List (List Part)
  | [] => [[]]
  | .gap _ :: rest => [] :: betweenGaps rest
  | part :: rest =>
    match betweenGaps rest with
    | [] => [[part]]
    | first :: others => (part :: first) :: others

end Part

def parameterName? (quoting : Quoting) : List Mark → Option (String × List Mark)
  | [] => none
  | first :: rest =>
    if first.quoting ≠ quoting then none
    else if isNameStart first.char then
      let more := rest.takeWhile fun m => m.quoting = quoting && isNameChar m.char
      some (.ofList ((first :: more).map (·.char)), rest.drop more.length)
    else if first.char.isDigit || "@*#?$!-".toList.contains first.char then
      some (.singleton first.char, rest)
    else none

theorem length_of_parameterName? {quoting : Quoting} {ms : List Mark} {p : String × List Mark}
    (h : parameterName? quoting ms = some p) : p.2.length ≤ ms.length := by
  revert h
  fun_cases parameterName? quoting ms with
  | case3 first rest _ _ more =>
    rintro ⟨⟩
    simp only [List.length_drop, List.length_cons]
    omega
  | case4 first rest =>
    rintro ⟨⟩
    exact Nat.le_succ rest.length
  | _ =>
    intro h
    cases h

inductive Braced
  | value (name : String)
  | length (name : String)
  /-- The word is used when the parameter is unset, or with `orEmpty` when it is empty. -/
  | alternative (name : String) (orEmpty : Bool) (operator : Char) (word : List Char)
  /-- The value without what a pattern admits at one end. -/
  | trimmed (name : String) (atStart longest : Bool) (pattern : List Char)

def Braced.ofChars? (cs : List Char) : Option Braced :=
  let named (cs : List Char) : Option (String × List Char) :=
    match cs with
    | [] => none
    | first :: rest =>
      let more := if isNameStart first then rest.takeWhile isNameChar
        else if first.isDigit then rest.takeWhile Char.isDigit
        else []
      if isNameStart first || first.isDigit || "@*#?$!-".toList.contains first then
        some (.ofList (first :: more), rest.drop more.length)
      else none
  match cs with
  | '#' :: c :: rest =>
    match named (c :: rest) with
    | some (name, []) => some (.length name)
    | _ => none
  | _ =>
    match named cs with
    | none => none
    | some (name, rest) =>
      match rest with
      | [] => some (.value name)
      | ':' :: op :: word =>
        if "-=?+".toList.contains op then some (.alternative name true op word) else none
      | '%' :: '%' :: pattern => some (.trimmed name false true pattern)
      | '%' :: pattern => some (.trimmed name false false pattern)
      | '#' :: '#' :: pattern => some (.trimmed name true true pattern)
      | '#' :: pattern => some (.trimmed name true false pattern)
      | op :: word =>
        if "-=?+".toList.contains op then some (.alternative name false op word) else none

end Rollout.Rehearsal.Shell
