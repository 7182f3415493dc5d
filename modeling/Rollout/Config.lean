import Rollout.Discovery
import Rollout.Lockout
import Rollout.Text.Blank

/-! Settings that are not part of a plan: their names, their defaults, and what they may not be. -/

namespace Rollout

structure Config where
  planFile : Option String := none
  lockoutScript : String := ({} : Lockout).script
  lockNote : String := Lock.defaultNote
  pollInterval : Nat := ({} : Polling).interval.millis
  deriving DecidableEq

namespace Config

structure Setting where
  description : String
  key : String
  deriving DecidableEq

def variableStart : String := "SHARDEPLOY_"

def Setting.variableName (s : Setting) : String := variableStart ++ s.key.map Char.toUpper

def planFileSetting : Setting := ⟨"deploy plan path", "plan_file"⟩

def lockoutScriptSetting : Setting := ⟨"lockout script path", "lockout_script"⟩

def lockNoteSetting : Setting := ⟨"lock claim note", "lock_note"⟩

def pollIntervalSetting : Setting := ⟨"poll interval", "poll_interval_ms"⟩

inductive Error
  | missing (setting : Setting)
  | unreadable (reason : String)
  deriving DecidableEq

def Error.message : Error → String
  | .missing s =>
    "missing configuration field: missing " ++ s.description ++ ": set " ++ s.variableName ++
      " or add " ++ s.key ++ " to shardeploy.toml"
  | .unreadable reason => "configuration parsing failed: " ++ reason

def require (value : String) (setting : Setting) : Except Error Unit :=
  if Text.isVoid value then .error (.missing setting) else .ok ()

def validate (c : Config) : Except Error Unit := do
  require c.lockoutScript lockoutScriptSetting
  require c.lockNote lockNoteSetting
  if let some path := c.planFile then require path planFileSetting

def checked (loaded : Except Error Config) : Except Error Config := do
  let config ← loaded
  config.validate
  return config

def planPath (c : Config) : Option Path := c.planFile.map Path.mk

def lockout (c : Config) : Lockout := ⟨Text.trim c.lockoutScript⟩

def polling (c : Config) : Polling := { interval := .ofMillis c.pollInterval }

def discovery : Discovery where
  override := "SHARDEPLOY_CONFIG_PATH"
  directory := "shardeploy"
  stem := "shardeploy"

end Config

end Rollout
