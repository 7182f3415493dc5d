import Rollout.Credential
import Rollout.Target

/-!
What a deploy needs from a remote host: a session, commands run to their end, and uploads. The
transport answers in a monad, so that an answer may depend on everything that went before.
-/

namespace Rollout

inductive Failure
  | unresolvable (host : String) (port : UInt16)
  | timeout (operation : String)
  | authRejected (user : String)
  | io (operation reason : String)
  | protocol (operation reason : String)
  deriving DecidableEq

def Failure.message : Failure → String
  | .unresolvable host port => "cannot resolve " ++ host ++ ":" ++ toString port.toNat
  | .timeout operation => operation ++ " timed out"
  | .authRejected user => "server rejected all identities for user " ++ user
  | .io operation reason => operation ++ " failed: " ++ reason
  | .protocol operation reason => operation ++ " failed: " ++ reason

structure ConnectRequest where
  target : Target
  user : String
  /-- In order of preference. -/
  identities : List Credential.Resolved
  verifyHostKey : Bool := false
  deriving DecidableEq

structure CommandResult where
  exitCode : Int
  stdout : Bytes
  stderr : Bytes
  deriving DecidableEq

namespace CommandResult

def isSuccess (r : CommandResult) : Bool := r.exitCode = 0

def stdoutText (r : CommandResult) : String := Utf8.decode r.stdout

def stderrText (r : CommandResult) : String := Utf8.decode r.stderr

end CommandResult

structure Polling where
  /-- The longest wait for new output before looking again. -/
  interval : Duration := .ofMillis 100
  /-- Most bytes asked for at once. -/
  chunkSize : Nat := 1024
  deriving DecidableEq

structure Transport (m : Type → Type) (ι : Type) where
  connect : ConnectRequest → m (Except Failure ι)
  exec : Polling → ι → (command : String) → m (Except Failure CommandResult)
  upload : ι → (source : Path) → (destination : String) → m (Except Failure Nat)

end Rollout
