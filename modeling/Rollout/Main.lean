import Rollout.CommandLine.Run
import Rollout.Rehearsal.Host
import Rollout.Rehearsal.Settings.Load
import Rollout.Ssh.Transport

/-!
The program at a terminal. It reads variables and files, and writes what the command prints. It has no
way to a network and starts no other programs: every host refuses the connection.
-/

namespace Rollout.Terminal

def variableNames : List String :=
  ["HOME", "USERPROFILE", "USER", "USERNAME", "APPDATA", "LOCALAPPDATA", "XDG_CONFIG_HOME",
    "XDG_CONFIG_DIRS", "IDENTITY_FILE", "IDENTITY_FILE_PASSWORD", "SSH_AUTH_SOCK",
    "LOCKOUT_USERNAME", Plan.discovery.override, Config.discovery.override] ++
  [Config.planFileSetting, Config.lockoutScriptSetting, Config.lockNoteSetting,
    Config.pollIntervalSetting].map Config.Setting.variableName

def environment : IO Environment :=
  variableNames.foldlM (fun e name => do
    match ← IO.getEnv name with
    | some value => return e.set name (Utf8.encode value)
    | none => return e) {}

def withPath (files : FileSystem) (path : Path) : IO FileSystem := do
  let start := if path.isAbsolute then [] else files.workingDirectory
  try
    let place ← IO.FS.realPath path.text
    if ← place.isDir then return files.add start path .directory
    return files.add start path (.file (← IO.FS.readBinFile path.text).toList false)
  catch _ => return files

def withBases (files : FileSystem) (paths : List Path) : (rounds : Nat) → IO FileSystem
  | 0 => return files
  | rounds + 1 => do
    let bases := paths.filterMap (Rehearsal.Settings.basePath? Rehearsal.Settings.tomlOnly files)
    withBases (← bases.foldlM withPath files) bases rounds

def pathsOf (e : Environment) (files : FileSystem) (args : List String) : List Path :=
  let keys := (Operator.ofVariables e.text?).home.toList.map fun home =>
    home.join ⟨".ssh"⟩
  Config.discovery.candidates e files ++ Plan.discovery.candidates e files ++
    ((e.text? "IDENTITY_FILE").toList ++ (e.text? Config.planFileSetting.variableName).toList ++
      args).map Path.mk ++
    keys.flatMap fun directory => ["id_ed25519", "id_ecdsa", "id_rsa"].map fun key =>
      directory.join ⟨key⟩

def run (args : List String) : IO CommandLine.Finish := do
  let environment ← Terminal.environment
  let directory ← IO.currentDir
  let start : FileSystem :=
    { workingDirectory := FileSystem.steps ⟨directory.toString⟩ }
  let start := (start.makeDirectories [] start.workingDirectory).1
  let files ← (pathsOf environment start args).foldlM withPath start
  let files ← withBases files (Config.discovery.candidates environment start) 16
  let host : Rehearsal.Host := { site := { welcome := .refused, files, environment } }
  let surroundings : CommandLine.Surroundings (Rehearsal Rehearsal.Host) Ssh.Handle :=
    { files, environment, transport := Ssh.transport Rehearsal.Host files
      settings := Rehearsal.Settings.load Rehearsal.Settings.tomlOnly files environment
      candidates := Plan.discovery.candidates environment files
      runner := ⟨fun program _ => return .error ⟨program, FileSystem.Fault.notFound.message⟩⟩ }
  return ((surroundings.run args).run.run { world := host }).1.getD {}

end Rollout.Terminal

open Rollout in
def main (args : List String) : IO UInt32 := do
  let finish ← Terminal.run args
  let finish ←
    try
      IO.print finish.output
      (← IO.getStdout).flush
      pure finish
    catch
      | .resourceExhausted _ 28 _ => pure (finish.unwritten "No space left on device (os error 28)")
      | e => pure (finish.unwritten e.toString)
  IO.eprint finish.errorText
  return finish.code.toUInt32
