import Rollout.Path
import Rollout.Text.Utf8

/-!
A local file system at one moment: directories, files and symbolic links, and the directory that
relative paths start from. Files are opened by name inside an opened directory, and a link found
there may not lead out of it.
-/

namespace Rollout

inductive Node
  | directory
  | file (content : Bytes) (executable : Bool)
  | link (target : Path)
  | null
  deriving DecidableEq

/-- Every node under the root by its place, the names on the way to it. -/
structure FileSystem where
  nodes : List (List String × Node) := []
  workingDirectory : List String := []

namespace FileSystem

def standard : FileSystem where
  nodes :=
    ["dev", "etc", "home", "proc", "root", "run", "sys", "tmp", "usr", "var"].map
        (fun name => ([name], .directory)) ++
      [(["dev", "null"], .null)]

inductive Fault
  | notFound
  | permissionDenied
  | notDirectory
  | isDirectory
  | nameTooLong
  | tooManyLinks
  | escapes
  | notText
  | noFileName
  | invalidName
  | hasNul
  deriving DecidableEq

def Fault.message : Fault → String
  | .notFound => "No such file or directory (os error 2)"
  | .permissionDenied => "Permission denied (os error 13)"
  | .notDirectory => "Not a directory (os error 20)"
  | .isDirectory => "Is a directory (os error 21)"
  | .nameTooLong => "File name too long (os error 36)"
  | .tooManyLinks => "Too many levels of symbolic links (os error 40)"
  | .escapes => "a path led outside of the filesystem"
  | .notText => "stream did not contain valid UTF-8"
  | .noFileName => "path has no file name"
  | .invalidName => "Invalid argument (os error 22)"
  | .hasNul => "file name contained an unexpected NUL byte"

def Fault.isAbsence : Fault → Bool
  | .notFound | .noFileName => true
  | _ => false

def Fault.isUnfound : Fault → Bool
  | .notFound | .notDirectory => true
  | _ => false

abbrev Place := List String

def node? (fs : FileSystem) (place : Place) : Option Node :=
  if place.isEmpty then some .directory
  else (fs.nodes.find? (·.1 == place)).map (·.2)

def pathOf (place : Place) : Path := ⟨"/" ++ "/".intercalate place⟩

def isDirectory (fs : FileSystem) (place : Place) : Bool := fs.node? place = some .directory

/-- The names a path passes through. A slash at the end asks for a directory, as `.` does. -/
def steps (p : Path) : List String :=
  let names := (Path.segments p.text.toList).filter (!·.isEmpty)
  let names := if p.text.toList.getLast? = some '/' then names ++ [['.']] else names
  names.map String.ofList

/-- Follows names from a place. At most `links` symbolic links are followed; with a `floor`, neither
a link nor `..` may leave that place. -/
def walk (fs : FileSystem) (floor : Option Place) (links : Nat) (here : Place) :
    List String → Except Fault Place
  | [] => .ok here
  | name :: rest =>
    if !fs.isDirectory here then .error .notDirectory
    else if name = "." then walk fs floor links here rest
    else if name = ".." then
      if floor = some here then .error .escapes else walk fs floor links here.dropLast rest
    else if name.toList.contains '\x00' then .error .invalidName
    else if 255 < name.utf8ByteSize then .error .nameTooLong
    else match fs.node? (here ++ [name]) with
      | none => .error .notFound
      | some (.link target) =>
        match links with
        | 0 => .error .tooManyLinks
        | links + 1 =>
          if !target.isAbsolute then walk fs floor links here (steps target ++ rest)
          else if floor.isSome then .error .escapes
          else walk fs floor links [] (steps target ++ rest)
      | some _ => walk fs floor links (here ++ [name]) rest
termination_by names => (links, names.length)

def maxLinks : Nat := 40

def resolve (fs : FileSystem) (p : Path) : Except Fault Place :=
  if p.text.toList.contains '\x00' then .error .hasNul
  else if p.text.isEmpty then .error .notFound
  else if 4096 ≤ p.text.utf8ByteSize then .error .nameTooLong
  else fs.walk none maxLinks (if p.isAbsolute then [] else fs.workingDirectory) (steps p)

def openDirectory (fs : FileSystem) (p : Path) : Except Fault Place := do
  let place ← fs.resolve p
  if fs.isDirectory place then .ok place else .error .notDirectory

def entry (fs : FileSystem) (directory : Place) (name : String) : Except Fault Node := do
  let place ← fs.walk (some directory) maxLinks directory [name]
  match fs.node? place with
  | some node => .ok node
  | none => .error .notFound

def contentOf : Node → Except Fault Bytes
  | .file content _ => .ok content
  | .null => .ok []
  | .directory => .error .isDirectory
  | .link _ => .error .notFound

def readEntry (fs : FileSystem) (directory : Place) (name : String) : Except Fault String := do
  match Utf8.decode? (← contentOf (← fs.entry directory name)) with
  | some text => .ok text
  | none => .error .notText

/-- Whether an entry exists; a link to nothing does not. -/
def hasEntry (fs : FileSystem) (directory : Place) (name : String) : Except Fault Bool :=
  match fs.entry directory name with
  | .ok _ => .ok true
  | .error .notFound => .ok false
  | .error fault => .error fault

def find? (fs : FileSystem) (p : Path) : Option Node :=
  match fs.resolve p with
  | .ok place => fs.node? place
  | .error _ => none

def sizeOf (fs : FileSystem) (p : Path) : Nat :=
  match fs.find? p with
  | some (.file content _) => content.length
  | some .directory => 4096
  | _ => 0

def put (fs : FileSystem) (place : Place) (node : Node) : FileSystem :=
  { fs with nodes := (place, node) :: fs.nodes.filter (·.1 != place) }

def makeDirectories (fs : FileSystem) : (here : Place) → List String → FileSystem × Place
  | here, [] => (fs, here)
  | here, name :: rest =>
    match fs.walk none maxLinks here [name] with
    | .ok place => fs.makeDirectories place rest
    | .error _ => (fs.put (here ++ [name]) .directory).makeDirectories (here ++ [name]) rest

def add (fs : FileSystem) (directory : Place) (p : Path) (node : Node) : FileSystem :=
  let names := (steps p).filter (· != ".")
  let (fs, parent) := fs.makeDirectories directory names.dropLast
  match names.getLast?, node with
  | none, _ => fs
  | some name, .directory => (fs.makeDirectories parent [name]).1
  | some name, node => fs.put (parent ++ [name]) node

def placeToWrite (fs : FileSystem) (links : Nat) (here : Place) (names : List String) :
    Except Fault Place := do
  let parent ← fs.walk none maxLinks here names.dropLast
  let name := names.getLastD "."
  if !fs.isDirectory parent then throw .notDirectory
  if name = "." || name = ".." then throw .isDirectory
  if 255 < name.utf8ByteSize then throw .nameTooLong
  match fs.node? (parent ++ [name]), links with
  | some .directory, _ => throw .isDirectory
  | some (.link _), 0 => throw .tooManyLinks
  | some (.link target), links + 1 =>
    fs.placeToWrite links (if target.isAbsolute then [] else parent) (steps target)
  | _, _ => return parent ++ [name]

def write (fs : FileSystem) (p : Path) (content : Bytes) : Except Fault FileSystem := do
  if p.text.toList.contains '\x00' then throw .hasNul
  if p.text.isEmpty then throw .notFound
  if 4096 ≤ p.text.utf8ByteSize then throw .nameTooLong
  let place ← fs.placeToWrite maxLinks (if p.isAbsolute then [] else fs.workingDirectory) (steps p)
  match fs.node? place with
  | some .null => return fs
  | some (.file _ executable) => return fs.put place (.file content executable)
  | _ => return fs.put place (.file content false)

end FileSystem

end Rollout
