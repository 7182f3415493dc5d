/-! Looking for a fixed text inside another one. -/

namespace Rollout.Text

/-- Splits a text where the marker first begins; the second part starts with the marker. -/
def splitAtFirst (marker : List Char) : List Char → Option (List Char × List Char)
  | [] => if marker.isEmpty then some ([], []) else none
  | c :: r =>
    if marker.isPrefixOf (c :: r) then some ([], c :: r)
    else (splitAtFirst marker r).map fun p => (c :: p.1, p.2)

def hasFragment (fragment text : String) : Bool :=
  (splitAtFirst fragment.toList text.toList).isSome

def entryFor {α : Type} (entries : List (String × α)) (text : String) : Option α :=
  (entries.find? fun (fragment, _) => hasFragment fragment text).map (·.2)

def withoutEnding? (ending cs : List Char) : Option (List Char) :=
  if ending.isSuffixOf cs then some (cs.take (cs.length - ending.length)) else none

/-- The first line of a text: up to the first line feed, and without a carriage return before it. -/
def firstLine (cs : List Char) : List Char :=
  let line := cs.takeWhile (· != '\n')
  if line.length = cs.length then line
  else if line.getLast? = some '\r' then line.dropLast else line

theorem splitAtFirst_append {marker cs before rest : List Char}
    (h : splitAtFirst marker cs = some (before, rest)) : before ++ rest = cs := by
  induction cs generalizing before with
  | nil =>
    simp only [splitAtFirst] at h
    split at h <;> simp_all
  | cons c r ih =>
    simp only [splitAtFirst] at h
    split at h
    · simp_all
    · simp only [Option.map_eq_some_iff] at h
      obtain ⟨⟨b, t⟩, hb, he⟩ := h
      simp only [Prod.mk.injEq] at he
      obtain ⟨rfl, rfl⟩ := he
      simp [ih hb]

end Rollout.Text
