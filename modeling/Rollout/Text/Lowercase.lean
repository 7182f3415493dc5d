import Rollout.Text.Blank
import Rollout.Text.CaseData

/-!
Lowercase text. Each character has its own lowercase form, except that a capital sigma at the end of
a word takes the final form, and a capital I with a dot becomes two characters.
-/

namespace Rollout.Text

def isCased (c : Char) : Bool := inRanges casedRanges c.toNat

def isCaseIgnorable (c : Char) : Bool := inRanges ignorableRanges c.toNat

def lowerChar (c : Char) : Char :=
  let n := c.toNat
  match lowercaseRuns.find? fun (lo, hi, step, _) => lo ≤ n && n ≤ hi && (n - lo) % step = 0 with
  | some (_, _, _, offset) => .ofNat (n + offset).toNat
  | none => c

def meetsCased (cs : List Char) : Bool := ((cs.dropWhile isCaseIgnorable).head?.map isCased).getD false

/-- Lowercases a text; `before` holds the characters before it, the nearest first. -/
def lowerFrom (before : List Char) : List Char → List Char
  | [] => []
  | c :: rest =>
    let here :=
      if c = 'Σ' then [if meetsCased before && !meetsCased rest then 'ς' else 'σ']
      else if c = 'İ' then ['i', '\u0307']
      else [lowerChar c]
    here ++ lowerFrom (c :: before) rest

def lowercase (s : String) : String := .ofList (lowerFrom [] s.toList)

end Rollout.Text
