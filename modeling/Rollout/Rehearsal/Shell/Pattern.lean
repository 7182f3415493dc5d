/-!
Patterns over texts. A star admits any text, a question mark any character, and brackets a set of
characters.
-/

namespace Rollout.Rehearsal.Shell

inductive PatternItem
  | char (c : Char)
  | one
  | many
  /-- Characters between the two of some range, or with `negated` all others. -/
  | set (negated : Bool) (ranges : List (Char × Char))
  deriving DecidableEq

namespace PatternItem

def admits : PatternItem → Char → Bool
  | .char c, d => c = d
  | .one, _ => true
  | .many, _ => true
  | .set negated ranges, d => negated != ranges.any fun r => r.1 ≤ d && d ≤ r.2

def rangesOf : List Char → List (Char × Char)
  | first :: '-' :: last :: rest => (first, last) :: rangesOf rest
  | c :: rest => (c, c) :: rangesOf rest
  | [] => []

def enclosed? (cs : List (Char × Bool)) : Option (List Char × List (Char × Bool)) :=
  let inside := cs.take 1 ++ (cs.drop 1).takeWhile (· != (']', true))
  if inside.length < cs.length then
    some (inside.map (·.1), cs.drop (inside.length + 1))
  else none

theorem length_of_enclosed? {cs : List (Char × Bool)} {p : List Char × List (Char × Bool)}
    (h : enclosed? cs = some p) : p.2.length ≤ cs.length := by
  simp only [enclosed?] at h
  split at h <;> cases h
  simp

end PatternItem

abbrev Pattern := List PatternItem

namespace Pattern

/-- A pattern from characters of which only those with a mark mean more than themselves. -/
def ofMarked : List (Char × Bool) → Pattern
  | [] => []
  | ('*', true) :: rest => .many :: ofMarked rest
  | ('?', true) :: rest => .one :: ofMarked rest
  | ('[', true) :: rest =>
    let negated := rest.head?.any fun c => c.1 = '!' || c.1 = '^'
    match h : PatternItem.enclosed? (if negated then rest.drop 1 else rest) with
    | some p =>
      have := PatternItem.length_of_enclosed? h
      .set negated (PatternItem.rangesOf p.1) :: ofMarked p.2
    | none => .char '[' :: ofMarked rest
  | (c, _) :: rest => .char c :: ofMarked rest
termination_by cs => cs.length
decreasing_by
  all_goals simp_wf
  all_goals grind

def admits : Pattern → List Char → Bool
  | [], cs => cs.isEmpty
  | .many :: rest, [] => admits rest []
  | .many :: rest, c :: cs => admits rest (c :: cs) || admits (.many :: rest) cs
  | _ :: _, [] => false
  | item :: rest, c :: cs => item.admits c && admits rest cs
termination_by items cs => items.length + cs.length

def admittedStarts (p : Pattern) (cs : List Char) : List Nat :=
  (List.range (cs.length + 1)).filter fun n => p.admits (cs.take n)

def admittedEnds (p : Pattern) (cs : List Char) : List Nat :=
  (List.range (cs.length + 1)).filter fun n => p.admits (cs.drop (cs.length - n))

end Pattern

end Rollout.Rehearsal.Shell
