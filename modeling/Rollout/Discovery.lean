import Rollout.Path

/-! The names under which a file of settings is looked for. -/

namespace Rollout

structure Discovery where
  /-- The variable that names the file itself. -/
  override : String
  directory : String
  stem : String
  /-- Directories of the project; the working directory when there are none. -/
  roots : List Path := []

namespace Discovery

def fileName (d : Discovery) : String := d.stem ++ ".toml"

def dotfileName (d : Discovery) : String := "." ++ d.fileName

end Discovery

end Rollout
