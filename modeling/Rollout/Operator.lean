import Rollout.Path
import Rollout.LocalCommand
import Rollout.Text.Blank
import Rollout.Text.Lowercase

/-!
Who runs a deploy and with what at hand: key file, agent, lock holder name, home directory and login
name, as their environment gives them.
-/

namespace Rollout

structure Operator where
  identityFile : Option Path := none
  passphrase : Option String := none
  agentSocket : Option Path := none
  lockoutName : Option String := none
  home : Option Path := none
  login : Option String := none
  hasPlatformAgent : Bool := false
  deriving DecidableEq

namespace Operator

inductive HolderFault
  | git (fault : LocalCommand.Fault)
  | unnamed
  deriving DecidableEq

def HolderFault.message : HolderFault → String
  | .git fault => "could not determine lockout holder name: " ++ fault.message
  | .unnamed => "could not determine lockout holder name: set LOCKOUT_USERNAME or git user.name"

def ofVariables (lookup : String → Option String) : Operator :=
  let value? name := (lookup name).filter fun v => !Text.isVoid v
  { identityFile := (value? "IDENTITY_FILE").map Path.mk
    passphrase := value? "IDENTITY_FILE_PASSWORD"
    agentSocket := (value? "SSH_AUTH_SOCK").map Path.mk
    lockoutName := value? "LOCKOUT_USERNAME"
    home := ((value? "HOME").orElse fun _ => value? "USERPROFILE").map Path.mk
    login := (value? "USER").orElse fun _ => value? "USERNAME" }

/-- The name recorded with a lock: the configured one, else the lowercased name git knows. -/
def holderName {m : Type → Type} [Monad m] (o : Operator) (runner : LocalCommand.Runner m) :
    m (Except HolderFault String) :=
  match o.lockoutName with
  | some name => pure (.ok name)
  | none => do
    match ← runner.run "git" ["config", "user.name"] with
    | .error fault => pure (.error (.git fault))
    | .ok output =>
      let name := Text.lowercase (Text.trim output.stdout)
      pure (if output.isSuccess && !name.isEmpty then .ok name else .error .unnamed)

end Operator

end Rollout
