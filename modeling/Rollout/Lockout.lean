import Rollout.Connection
import Rollout.Shell.Command

/-!
Shard locks. The remote lockout script decides: exit code zero means that the claim or the check
went through, anything else that somebody else holds the shard.
-/

namespace Rollout

namespace Lock

inductive Mode
  | claim (holder note : String) (minutes : UInt32)
  | checkOnly
  deriving DecidableEq

structure Request where
  domain : String
  /-- A shard of the domain; a star stands for all of them. -/
  shard : String
  mode : Mode
  deriving DecidableEq

def defaultNote : String := "Automatic lockout (deploy script)"

namespace Request

def claim (domain shard holder : String) (minutes : UInt32) : Request :=
  ⟨domain, shard, .claim holder defaultNote minutes⟩

def check (domain shard : String) : Request := ⟨domain, shard, .checkOnly⟩

def withNote (r : Request) (note : String) : Request :=
  match r.mode with
  | .claim holder _ minutes => { r with mode := .claim holder note minutes }
  | .checkOnly => r

end Request

end Lock

structure Lockout where
  script : String := "~/4_SHARED/lockouts/lockout"
  deriving DecidableEq

namespace Lockout

inductive Error
  | busy (domain shard : String) (exitCode : Int)
  | connection (error : Connection.Error)
  deriving DecidableEq

def Error.message : Error → String
  | .busy domain shard exitCode =>
    "Failed to deploy! Shard " ++ domain ++ "/" ++ shard ++
      " is currently being used by another developer! (lockout exited with " ++ toString exitCode ++ ")"
  | .connection error => error.message

def commandFor (l : Lockout) (r : Lock.Request) : String :=
  match r.mode with
  | .claim holder note minutes =>
    Shell.Command.lockoutClaim l.script r.domain r.shard holder minutes note
  | .checkOnly => Shell.Command.lockoutCheck l.script r.domain r.shard

variable {m : Type → Type} [Stage m] {ι : Type}

def acquire (l : Lockout) (transport : Transport m ι) (c : Connection ι) (r : Lock.Request) :
    m (Except Error Unit) := do
  match ← c.execute transport (l.commandFor r) with
  | .error e => return .error (.connection e)
  | .ok result =>
    if result.isSuccess then
      Stage.infoWith "Lockout acquired" [("domain", r.domain), ("shard", r.shard)]
      return .ok ()
    else
      Stage.warnWith "Shard is locked by another developer"
        [("domain", r.domain), ("shard", r.shard), ("exit_code", toString result.exitCode),
         ("output", Text.trim result.stdoutText)]
      return .error (.busy r.domain r.shard result.exitCode)

end Lockout

end Rollout
