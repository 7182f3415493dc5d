import Rollout.Toml.Scan

/-!
Documents. A document is a sequence of lines that each add an entry to the table of the latest
header, or begin a table. A table is begun only once, and an entry is given only once.
-/

namespace Rollout.Toml

def gap (edition : Edition) : Scan Unit := if edition.lenient then trivia else spaces

mutual

/-- A value; the fuel bounds the pieces still to be read. -/
def value (edition : Edition) : (fuel depth : Nat) → Scan Value
  | 0, _ => failure
  | fuel + 1, depth => do
    match ← Scan.peek? with
    | some '"' | some '\'' => return .text (← string edition)
    | some '[' => do
      Scan.expect ['[']
      if depth = 0 then failure else return .list false (← items edition fuel (depth - 1))
    | some '\x7b' => do
      Scan.expect ['\x7b']
      if depth = 0 then failure else return .table .inline (← entries edition fuel (depth - 1) [])
    | _ => bareValue edition

def items (edition : Edition) : (fuel depth : Nat) → Scan (List Value)
  | 0, _ => failure
  | fuel + 1, depth => do
    trivia
    if ← Scan.skip? [']'] then return []
    else
      let item ← value edition fuel depth
      trivia
      if ← Scan.skip? [','] then return item :: (← items edition fuel depth)
      else
        Scan.expect [']']
        return [item]

/-- The entries of an inline table, added to those before them. A comma may stand behind the last one
only where the edition is lenient. -/
def entries (edition : Edition) : (fuel depth : Nat) → Entries → Scan Entries
  | 0, _, _ => failure
  | fuel + 1, depth, before => do
    gap edition
    if ← Scan.skip? ['\x7d'] then
      if before.isEmpty || edition.lenient then return before else failure
    else
      let (path, name) ← key edition
      gap edition
      Scan.expect ['=']
      gap edition
      let item ← value edition fuel depth
      let now ← (before.within true (Entries.add name item) path : Option Entries)
      gap edition
      if ← Scan.skip? [','] then entries edition fuel depth now
      else
        Scan.expect ['\x7d']
        return now

end

def beginTable (name : String) (table : Entries) : Option Entries :=
  match table.get? name with
  | none => some (table.put name (.table .header []))
  | some (.table .implied inner) => some (table.put name (.table .header inner))
  | some _ => none

def beginItem (name : String) (table : Entries) : Option Entries :=
  match table.get? name with
  | none => some (table.put name (.list true [.table .header []]))
  | some (.list true before) => some (table.put name (.list true (before ++ [.table .header []])))
  | some _ => none

def headerKey (edition : Edition) (ending : List Char) : Scan (List String × String) := do
  spaces
  let named ← key edition
  spaces
  Scan.expect ending
  lineEnd
  return named

/-- The lines of a document, added to the entries before them; `current` is the path of the latest
header, and the fuel bounds the pieces still to be read. -/
def lines (edition : Edition) : (fuel : Nat) → (current : List String) → Entries → Scan Entries
  | 0, _, _ => failure
  | fuel + 1, current, before => do
    trivia
    if (← Scan.peek?).isNone then return before
    else if ← Scan.skip? ['[', '['] then do
      let (path, name) ← headerKey edition [']', ']']
      let now ← (before.within false (beginItem name) path : Option Entries)
      lines edition fuel (path ++ [name]) now
    else if ← Scan.skip? ['['] then do
      let (path, name) ← headerKey edition [']']
      let now ← (before.within false (beginTable name) path : Option Entries)
      lines edition fuel (path ++ [name]) now
    else do
      let (path, name) ← key edition
      spaces
      Scan.expect ['=']
      spaces
      let item ← value edition fuel edition.nesting
      lineEnd
      let now ← (before.within false (fun t => t.within true (Entries.add name item) path) current :
        Option Entries)
      lines edition fuel current now

def document (edition : Edition) (text : String) : Option Entries :=
  let cs := match text.toList with
    | '\ufeff' :: r => r
    | cs => cs
  ((lines edition (2 * cs.length + 2) [] []).run cs).map (·.1)

end Rollout.Toml
