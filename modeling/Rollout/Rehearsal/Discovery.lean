import Rollout.Discovery
import Rollout.Environment
import Rollout.FileSystem

/-!
Where a file of settings may lie: at the path a variable names, in the configuration directories of
the user and of the system, in the home directory, and in the directories of the project.
-/

namespace Rollout.Discovery

def below (d : Discovery) (base : Path) : List Path :=
  let own (name : String) := (base.join ⟨d.directory⟩).join ⟨name⟩
  [own d.fileName, base.join ⟨d.dotfileName⟩] ++
    [".json", ".json5", ".yaml", ".yml"].map fun extension => own (d.stem ++ extension)

def directoriesOf (value : Bytes) : List Bytes := (value.splitOn ':'.toNat.toUInt8).filter (!·.isEmpty)

def systemDirectories (e : Environment) : List Bytes :=
  match directoriesOf ((e.get? "XDG_CONFIG_DIRS").getD []) with
  | [] => [Utf8.encode "/etc/xdg"]
  | directories => directories

def candidates (d : Discovery) (e : Environment) (files : FileSystem) : List Path :=
  let path? (value : Bytes) : Option Path := (Utf8.decode? value).map Path.mk
  let named := (((e.get? d.override).filter (!·.isEmpty)).bind path?).toList
  let bases := (e.get? "XDG_CONFIG_HOME").toList ++ systemDirectories e ++
    (e.get? "APPDATA").toList ++ (e.get? "LOCALAPPDATA").toList
  let home := (((e.get? "HOME").orElse fun _ => e.get? "USERPROFILE").bind path?).toList
  let roots := if d.roots.isEmpty then [FileSystem.pathOf files.workingDirectory] else d.roots
  named ++ (bases.filterMap path?).flatMap d.below ++
    home.flatMap (fun home => d.below (home.join ⟨".config"⟩) ++ [home.join ⟨d.dotfileName⟩]) ++
    roots.map (·.join ⟨d.fileName⟩)

end Rollout.Discovery
