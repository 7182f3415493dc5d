/-!
Path names. A path is a text; its components are the names between slashes, without empty ones and
without `.` except at the start of a relative path.
-/

namespace Rollout

structure Path where
  text : String
  deriving DecidableEq, Inhabited

namespace Path

instance : ToString Path := ⟨Path.text⟩

def segments : List Char → List (List Char)
  | [] => [[]]
  | c :: r =>
    if c = '/' then [] :: segments r
    else match segments r with
      | [] => [[c]]
      | s :: rest => (c :: s) :: rest

inductive Component
  | root
  | here
  | up
  | name (text : List Char)
  deriving DecidableEq

def Component.ofSegment (s : List Char) : Component :=
  if s = ['.'] then .here else if s = ['.', '.'] then .up else .name s

def Component.chars : Component → List Char
  | .root => ['/']
  | .here => ['.']
  | .up => ['.', '.']
  | .name s => s

def counts (s : List Char) : Bool := !s.isEmpty && s != ['.']

def componentsOf (cs : List Char) : List Component :=
  match segments cs with
  | [] => []
  | s :: rest =>
    let later := (rest.filter counts).map .ofSegment
    if s.isEmpty then
      if cs.isEmpty then [] else .root :: later
    else .ofSegment s :: later

def components (p : Path) : List Component := componentsOf p.text.toList

def isAbsolute (p : Path) : Bool := p.text.toList.head? = some '/'

def nameOf (cs : List Char) : Option (List Char) :=
  match (componentsOf cs).getLast? with
  | some (.name s) => some s
  | _ => none

def fileName (p : Path) : Option String := (nameOf p.text.toList).map String.ofList

/-- Drops slashes, and `.` components after the first character, from the end of a path text. -/
def dropEnding : List Char → List Char
  | [] => []
  | '/' :: r => dropEnding r
  | '.' :: '/' :: r => dropEnding ('/' :: r)
  | cs => cs
termination_by cs => cs.length

/-- The text before the last component; absent for the root and for the empty path. -/
def parentOf (cs : List Char) : Option (List Char) :=
  match (componentsOf cs).getLast? with
  | none | some .root => none
  | some last =>
    -- everything is read backwards: the ending, the last component, the separators before it
    let reversed := (dropEnding cs.reverse).drop last.chars.length
    let before := dropEnding reversed
    if before.isEmpty && !reversed.isEmpty then some ['/'] else some before.reverse

def parent (p : Path) : Option Path := (parentOf p.text.toList).map fun cs => ⟨.ofList cs⟩

/-- The file name up to its last dot, unless that dot is its first character. -/
def stemOf (name : List Char) : List Char :=
  match name.reverse.dropWhile (· != '.') with
  | [] | ['.'] => name
  | _ :: before => before.reverse

def fileStem (p : Path) : Option String :=
  (nameOf p.text.toList).map fun name => .ofList (stemOf name)

/-- An absolute path replaces the one before it; a relative one is put behind it. -/
def join (dir p : Path) : Path :=
  if p.isAbsolute || dir.text.isEmpty then p
  else if dir.text.toList.getLast? = some '/' then ⟨dir.text ++ p.text⟩
  else ⟨dir.text ++ "/" ++ p.text⟩

end Path

end Rollout
