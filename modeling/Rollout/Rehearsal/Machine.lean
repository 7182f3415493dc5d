import Rollout.FileSystem
import Rollout.LocalCommand
import Rollout.Rehearsal.Program
import Rollout.Rehearsal.Shell.Run
import Rollout.Text.Blank

/-!
A machine that starts programs by name and reads what they print. It looks for a program where the
`PATH` of its environment tells. A file is a program when it may be executed and its first line names
an interpreter; the shell and a few more programs belong to the machine.
-/

namespace Rollout.Rehearsal

open Rollout.Rehearsal.Shell (Effect Ending Session Surroundings)

structure Machine where
  files : FileSystem := {}
  environment : Environment := {}
  input : Bytes := []

inductive StartFault
  | hasNul
  | unknownFormat
  | files (fault : FileSystem.Fault)
  deriving DecidableEq

def StartFault.message : StartFault → String
  | .hasNul => "nul byte found in provided data"
  | .unknownFormat => "Exec format error (os error 8)"
  | .files fault => fault.message

def interpreterOf (content : Bytes) : Option (String × List String) :=
  match content with
  | 35 :: 33 :: rest =>
    let line := (Utf8.decode (rest.takeWhile (· != 10))).toList.dropWhile Shell.isBlank
    let name := line.takeWhile (!Shell.isBlank ·)
    let arg := Text.trim (.ofList (line.drop name.length))
    if name.isEmpty then none else some (.ofList name, if arg.isEmpty then [] else [arg])
  | _ => none

structure ShellCall where
  options : List Char := []
  isText : Bool := false
  args : List String := []

def ShellCall.ofArgs (call : ShellCall) : List String → ShellCall
  | [] => call
  | arg :: rest =>
    match arg.toList with
    | '-' :: letter :: letters =>
      if arg = "--" then { call with args := rest }
      else
        { call with
          options := call.options ++ (letter :: letters).filter ("efuvx".toList.contains ·)
          isText := call.isText || (letter :: letters).contains 'c' }.ofArgs rest
    | _ => { call with args := arg :: rest }

namespace Machine

def programs : List String :=
  ["sh", "dash", "echo", "printf", "true", "false", "test", "[", "cat", "pwd", "sleep", "env", "head",
   "seq", "basename", "dirname"]

def placeOf (program : String) : FileSystem.Place := ["usr", "bin", program]

def complete (m : Machine) : Machine :=
  let own := [(["usr"], .directory), (["usr", "bin"], .directory), (["bin"], .link ⟨"usr/bin"⟩)] ++
    programs.map fun name => (placeOf name, Node.file [] true)
  { m with files := own.foldl (fun files (place, node) => files.put place node) m.files }

def searchPath (m : Machine) : List String :=
  ((m.environment.get? "PATH").map Utf8.decode |>.getD "/bin:/usr/bin").splitOn ":"

def executable (m : Machine) (p : Path) : Except FileSystem.Fault (FileSystem.Place × Bytes) := do
  let place ← m.files.resolve p
  match m.files.node? place with
  | some (.file content true) => .ok (place, content)
  | some _ => .error .permissionDenied
  | none => .error .notFound

/-- The first program of a name in a list of directories. One that may not be executed counts only
when no other is found. -/
def search (m : Machine) (name : String) (latest : FileSystem.Fault) (denied : Bool) :
    List String → Except FileSystem.Fault Path
  | [] => .error (if denied then .permissionDenied else latest)
  | directory :: rest =>
    let path : Path := ⟨if directory.isEmpty then name else directory ++ "/" ++ name⟩
    match m.executable path with
    | .ok _ => .ok path
    | .error .permissionDenied => search m name .permissionDenied true rest
    | .error .notFound => search m name .notFound denied rest
    | .error .notDirectory => search m name .notDirectory denied rest
    | .error fault => .error fault

def locate (m : Machine) (name : String) : Except FileSystem.Fault Path :=
  if name.isEmpty then .error .notFound
  else if name.toList.contains '/' then (m.executable ⟨name⟩).map fun _ => ⟨name⟩
  else if 255 < name.utf8ByteSize then .error .nameTooLong
  else m.search name .notFound false m.searchPath

def ofSession (s : Session) : Machine :=
  { files := s.files, environment := s.environment, input := s.input }

def session (m : Machine) (self name : String) (options : List Char) (args : List String) : Session :=
  let directory := (FileSystem.pathOf m.files.workingDirectory).text
  { self, name, args, options
    files := m.files
    scope := m.environment.set "PWD" (Utf8.encode directory)
    exported := "PWD" :: m.environment.bindings.map (·.1)
    input := m.input }

def shell (m : Machine) (around : Surroundings) (self name : String) (args : List String) : Effect :=
  let call := ({} : ShellCall).ofArgs args
  let run (name : String) (args : List String) (text : String) : Effect :=
    ((m.session self name call.options args).runText around text).total
  match call.isText, call.args with
  | true, [] => .complaint (name ++ ": 0: ") ["-c requires an argument"] 2
  | true, text :: rest => run (rest.headD name) (rest.drop 1) text
  | false, [] => { run name [] (Utf8.decode m.input) with drains := true }
  | false, file :: rest =>
    match (m.files.find? ⟨file⟩).map FileSystem.contentOf with
    | some (.ok content) => run file rest (Utf8.decode content)
    | _ => .complaint (name ++ ": 0: ") ["cannot open " ++ file ++ ": No such file"] 2

def withSettings (m : Machine) : List String → Machine × List String
  | [] => (m, [])
  | "-i" :: rest => withSettings { m with environment := {} } rest
  | arg :: rest =>
    let name := arg.toList.takeWhile (· != '=')
    if name.length < arg.length then
      let value := Utf8.encode (arg.drop (name.length + 1)).toString
      withSettings { m with environment := m.environment.set (.ofList name) value } rest
    else (m, arg :: rest)

/-- Starts the program at a path; at most `links` programs are started from within one another. -/
def start (links : Nat) (m : Machine) (p : Path) (name : String) (args : List String) :
    Except StartFault Effect :=
  match links, m.executable p with
  | _, .error fault => .error (.files fault)
  | 0, _ => .error (.files .tooManyLinks)
  | links + 1, .ok (place, content) =>
    let startNamed (m : Machine) (name : String) (args : List String) :
        Except FileSystem.Fault Effect := do
      let path ← m.locate name
      match start links m path name args with
      | .ok e => return e
      -- a file of no known format is taken for a text of commands
      | .error .unknownFormat =>
        return (start links m ⟨"/bin/sh"⟩ "sh" (path.text :: args)).toOption.getD {}
      | .error (.files fault) => throw fault
      | .error .hasNul => throw .notFound
    let around : Surroundings :=
      { start := fun s name args => startNamed (ofSession s) name args
        locate := fun s name => ((ofSession s).locate name).toOption.map Path.text }
    let here : Program.Place := { name, files := m.files, input := m.input }
    if !programs.any (placeOf · == place) then
      match interpreterOf content with
      | none => .error .unknownFormat
      | some (interpreter, option) =>
        start links m ⟨interpreter⟩ interpreter (option ++ p.text :: args)
    else match place.getLastD "" with
      | "sh" | "dash" => .ok (m.shell around (toString (links + 1)) name args)
      | "echo" => .ok (Shell.Format.plainEcho args)
      | "printf" => .ok (Shell.Format.printf (name ++ ": ") args)
      | "cat" => .ok (Program.concatenate here args)
      | "pwd" => .ok (Program.whereabouts here)
      | "head" => .ok (Program.head here args)
      | "sleep" => .ok (Program.sleep here args)
      | "seq" => .ok (Program.sequence here args)
      | "basename" => .ok (Program.pathPart true args)
      | "dirname" => .ok (Program.pathPart false args)
      | "test" => .ok (Shell.Condition.test m.files (name ++ ": ") args)
      | "[" => .ok (Shell.Condition.test m.files (name ++ ": ") args.dropLast)
      | "false" => .ok (.ofBool false)
      | "env" =>
        match m.withSettings args with
        | (m, []) => .ok (.printed (String.join (m.environment.bindings.map fun b =>
            b.1 ++ "=" ++ Utf8.decode b.2 ++ "\n")))
        | (m, name :: args) =>
          match startNamed m name args with
          | .ok e => .ok e
          | .error fault =>
            .ok (.complaint (here.name ++ ": ") ["'" ++ name ++ "': " ++ Program.reason fault]
              (if fault = .permissionDenied then 126 else 127))
      | _ => .ok {}

def run (m : Machine) (program : String) (args : List String) :
    Except LocalCommand.Fault LocalCommand.Output :=
  let m := m.complete
  let effect : Except StartFault Effect := do
    if (program :: args).any (·.toList.contains '\x00') then throw .hasNul
    let path ← (m.locate program).mapError .files
    m.start 8 path program args
  match effect with
  | .error fault => .error ⟨program, fault.message⟩
  | .ok e => .ok
    { code := if e.ending.isSome then none else some e.status
      stdout := Utf8.decode e.stdout
      stderr := Utf8.decode e.stderr }

def runner {m : Type → Type} [Monad m] (machine : Machine) : LocalCommand.Runner m :=
  ⟨fun program args => pure (machine.run program args)⟩

end Machine

end Rollout.Rehearsal
