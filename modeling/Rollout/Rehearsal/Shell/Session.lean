import Rollout.Environment
import Rollout.FileSystem
import Rollout.Rehearsal.Shell.Effect
import Rollout.Rehearsal.Shell.Script

/-!
A shell at work: its variables and options, where its descriptors lead, and what it has written.
-/

namespace Rollout.Rehearsal.Shell

inductive Target
  | stdout
  | stderr
  | pipe (level : Nat)
  | file (place : FileSystem.Place)
  | nowhere
  deriving DecidableEq

inductive Flow
  | on
  /-- Out of some loops, and on with the last of them or not. -/
  | leaving (loops : Nat) (again : Bool)
  | returned
  | ended (ending : Ending)
  deriving DecidableEq

structure Session where
  self : String
  name : String
  line : Nat := 1
  args : List String := []
  files : FileSystem := {}
  scope : Environment := {}
  exported : List String := []
  constants : List String := []
  functions : List (String × Script) := []
  traps : List (Nat × String) := []
  options : List Char := []
  descriptors : List (Nat × Target) := [(1, .stdout), (2, .stderr)]
  level : Nat := 0
  input : Bytes := []
  /-- The latest first. -/
  written : List (Target × Bytes) := []
  status : Nat := 0
  substituted : Nat := 0
  background : Option Nat := none
  loops : Nat := 0
  /-- What the variables of a function were before it, the latest first; absent outside functions. -/
  locals : Option (List (String × Option Bytes)) := none
  flow : Flow := .on

namespace Session

def isOn (s : Session) : Bool := s.flow = .on

def target? (s : Session) (descriptor : Nat) : Option Target :=
  (s.descriptors.find? (·.1 == descriptor)).map (·.2)

def connect (s : Session) (descriptor : Nat) (target : Target) : Session :=
  { s with descriptors := (descriptor, target) :: s.descriptors.filter (·.1 != descriptor) }

def disconnect (s : Session) (descriptor : Nat) : Session :=
  { s with descriptors := s.descriptors.filter (·.1 != descriptor) }

def write (s : Session) (descriptor : Nat) (bytes : Bytes) : Session :=
  if bytes.isEmpty then s
  else match s.target? descriptor with
    | none | some .nowhere => s
    | some (.file place) =>
      match s.files.node? place with
      | some (.file content executable) =>
        { s with files := s.files.put place (.file (content ++ bytes) executable) }
      | _ => s
    | some target => { s with written := (target, bytes) :: s.written }

def writtenTo (s : Session) (target : Target) : Bytes :=
  (s.written.reverse.filter (·.1 == target)).flatMap (·.2)

def who (s : Session) : String := s.name ++ ": " ++ toString s.line ++ ": "

def complain (s : Session) (text : String) : Session :=
  s.write 2 (Utf8.encode (s.who ++ text ++ "\n"))

def endWith (s : Session) (code : Nat) : Session :=
  { s with status := code, flow := .ended (.exited code) }

def fail (s : Session) (text : String) : Session := (s.complain text).endWith 2

def withStatus (s : Session) (status : Nat) : Session := { s with status }

def perform (s : Session) (e : Effect) : Session :=
  let s := (s.write 1 e.stdout).write 2 e.stderr
  { s with
    status := e.status
    flow := (e.ending.map .ended).getD s.flow
    input := if e.drains then [] else s.input }

/-! ### Variables -/

def environment (s : Session) : Environment :=
  ⟨s.scope.bindings.filter fun b => s.exported.contains b.1⟩

def isSet (s : Session) (name : String) : Bool := (s.scope.get? name).isSome

def text (s : Session) (name : String) : String :=
  ((s.scope.get? name).map Utf8.decode).getD ""

def setBytes (s : Session) (name : String) (value : Bytes) : Session :=
  let s := if s.constants.contains name then s.fail (name ++ ": is read only") else s
  if s.isOn then { s with scope := s.scope.set name value } else s

def set (s : Session) (name value : String) : Session := s.setBytes name (Utf8.encode value)

def unset (s : Session) (name : String) : Session :=
  { s with scope := s.scope.unset name, exported := s.exported.filter (· != name) }

def restore (s : Session) (values : List (String × Option Bytes)) : Session :=
  values.foldl (fun s (name, value) =>
    match value with
    | some value => { s with scope := s.scope.set name value }
    | none => s.unset name) s

def exportName (s : Session) (name : String) : Session :=
  { s with exported := name :: s.exported.filter (· != name) }

def parameter? (s : Session) (name : String) : Option String :=
  match name with
  | "#" => some (toString s.args.length)
  | "?" => some (toString s.status)
  | "$" => some s.self
  | "!" => some (if s.background.isSome then "2" else "")
  | "-" => some (.ofList ("uaCvxnfe".toList.filter (s.options.contains ·)))
  | "*" | "@" =>
    let between := if s.isSet "IFS" then String.ofList ((s.text "IFS").toList.take 1) else " "
    if s.args.isEmpty then none else some (between.intercalate s.args)
  | _ =>
    match name.toNat? with
    | some 0 => some s.name
    | some n => s.args[n - 1]?
    | none => (s.scope.get? name).map Utf8.decode

def within (s : Session) : Session := { s with written := [], traps := [], loops := 0 }

def after (s inner : Session) : Session :=
  { s with
    written := inner.written ++ s.written
    files := { inner.files with workingDirectory := s.files.workingDirectory }
    input := inner.input
    status := inner.status
    flow := match inner.flow with
      | .ended (.killed signal) => .ended (.killed signal)
      | _ => s.flow }

end Session

end Rollout.Rehearsal.Shell
