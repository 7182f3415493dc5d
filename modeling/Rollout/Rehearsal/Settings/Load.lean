import Rollout.Rehearsal.Discovery
import Rollout.Rehearsal.Settings.Variable
import Rollout.Toml.Reader

/-!
Loading settings. Defaults come first, then the first settings file that can be read with the files
it extends, then environment variables. How a file is decoded depends on its name, and is left open.
-/

namespace Rollout.Rehearsal.Settings

open Toml (Entries)

abbrev Decoder := FileSystem.Place → Bytes → Option Entries

def baseKey : String := "extends"

/-- Reads files of the one format, and none whose name tells of another. -/
def tomlOnly : Decoder := fun place content => do
  let foreign := [".json", ".json5", ".yaml", ".yml"]
  guard (!foreign.any fun extension => place.getLast?.any (·.endsWith extension))
  let entries ← Toml.document .first (← Utf8.decode? content)
  if Toml.entriesReadable 0x7FFFFFFFFFFFFFFF entries then some entries else none

inductive Obstacle
  | noReadableFile
  | unfit (setting : Config.Setting)
  | rejected (key reason : String)

def Obstacle.message : Obstacle → String
  | .noReadableFile => "no settings file can be read"
  | .unfit s => s.key ++ " has an invalid value"
  | .rejected key reason => "Validation failed for '" ++ key ++ "': " ++ reason

variable (decode : Decoder)

def overlay (base entries : Entries) : Entries :=
  entries.foldl (fun acc (key, v) => acc.put key v) base

def base? (place : FileSystem.Place) (entries : Entries) : Option (Option Path) :=
  match entries.get? baseKey with
  | none => some none
  | some (.text base) =>
    if base.isEmpty then none else some (some ((FileSystem.pathOf place.dropLast).join ⟨base⟩))
  | some _ => none

/-- The entries of the settings file at a place, over those of the files it extends. None of these
may be among the files that `passed` already, and the fuel bounds how many there are. -/
def readAt (files : FileSystem) :
    (fuel : Nat) → (passed : List FileSystem.Place) → FileSystem.Place → Option Entries
  | 0, _, _ => none
  | fuel + 1, passed, place =>
    match files.node? place with
    | some (.file content _) => do
      let entries ← decode place content
      match ← base? place entries with
      | none => return entries
      | some path =>
        let next ← (files.resolve path).toOption
        if (place :: passed).contains next then none
        else return overlay (← readAt files fuel (place :: passed) next) entries
    | _ => none

/-- The settings of the first file that can be read. It is an error when there are files and none of
them can be read. -/
def readFirst (files : FileSystem) : (broken : Bool) → List Path → Except Config.Error Entries
  | broken, [] => if broken then .error (.unreadable Obstacle.noReadableFile.message) else .ok []
  | broken, path :: rest =>
    match files.resolve path with
    | .error _ => readFirst files broken rest
    | .ok place =>
      match files.node? place with
      | some (.file ..) =>
        match readAt decode files (files.nodes.length + 1) [] place with
        | some entries => .ok entries
        | none => readFirst files true rest
      | _ => readFirst files broken rest

def basePath? (files : FileSystem) (path : Path) : Option Path := do
  let place ← (files.resolve path).toOption
  match files.node? place with
  | some (.file content _) => (← base? place (← decode place content))
  | _ => none

def readSetting {α : Type} (s : Config.Setting) (entries : Entries) (reader : Toml.Reader α)
    (otherwise : α) : Except Config.Error α :=
  match entries.get? s.key with
  | none => .ok otherwise
  | some value => (reader value).mapError fun _ => .unreadable (Obstacle.unfit s).message

def load (files : FileSystem) (e : Environment) : Except Config.Error Config := do
  let found ← readFirst decode files false (Config.discovery.candidates e files)
  let entries := overlay found (Variable.given e)
  let text := Toml.Reader.string
  return {
    planFile := ← readSetting Config.planFileSetting entries (fun v => (text v).map some) none
    lockoutScript := ← readSetting Config.lockoutScriptSetting entries text ({} : Config).lockoutScript
    lockNote := ← readSetting Config.lockNoteSetting entries text ({} : Config).lockNote
    pollInterval := ← readSetting Config.pollIntervalSetting entries
      (Toml.Reader.natural (UInt64.size - 1)) ({} : Config).pollInterval }

end Rollout.Rehearsal.Settings
