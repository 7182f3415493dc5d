import Rollout.Transport

/-!
One authenticated session to a target. The host key policy is looked at first, then the credential
chain is walked, and only then is the remote host contacted.
-/

namespace Rollout

structure Connection (ι : Type) where
  target : Target
  user : String
  session : ι
  polling : Polling

namespace Connection

inductive Error
  | authExhausted (target : String)
  | unsupportedHostKeyPolicy (target policy : String)
  | missingUser (target : String)
  | connectionFailed (target : String) (failure : Failure)
  | commandFailed (target command : String) (failure : Failure)
  | transferFailed (target source destination : String) (failure : Failure)
  deriving DecidableEq

def Error.message : Error → String
  | .authExhausted target => "exhausted authentication methods for " ++ target ++ ", check logs!"
  | .unsupportedHostKeyPolicy target policy =>
    "host key policy '" ++ policy ++ "' is not supported for " ++ target ++ "; use allow-any"
  | .missingUser target =>
    "no remote user configured for " ++ target ++ " and the local user is unknown"
  | .connectionFailed target failure => "failed to connect to " ++ target ++ ": " ++ failure.message
  | .commandFailed target command failure =>
    "command \x60" ++ command ++ "\x60 failed on " ++ target ++ ": " ++ failure.message
  | .transferFailed target source destination failure =>
    "failed to upload " ++ source ++ " to " ++ target ++ ":" ++ destination ++ ": " ++ failure.message

def version : String := "0.1.0"

variable {m : Type → Type} [Stage m] {ι : Type}

def checkHostKeyPolicy (target : Target) : m (Except Error Unit) := do
  match target.hostKeyPolicy with
  | .allowAny =>
    Stage.warn ("Host key verification is disabled for " ++ toString target ++
      "; any server key will be accepted")
    return .ok ()
  | policy => return .error (.unsupportedHostKeyPolicy (toString target) policy.label)

def noteRejected : List Credential.Resolved → m Unit
  | [] => pure ()
  | r :: rest => do
    Stage.info ("FAIL - " ++ r.provider)
    noteRejected rest

def establish (transport : Transport m ι) (files : FileSystem) (operator : Operator)
    (polling : Polling) (target : Target) (chain : Credential.Chain) :
    m (Except Error (Connection ι)) := do
  Stage.info ("Connecting to " ++ toString target ++ " (shardeploy " ++ version ++ ")")
  match ← checkHostKeyPolicy target with
  | .error e => return .error e
  | .ok () =>
    let identities ← chain.resolve files operator
    if identities.isEmpty then
      Stage.warn "Exhausted authentication methods, check logs!"
      return .error (.authExhausted (toString target))
    else match target.user.orElse fun _ => operator.login with
      | none => return .error (.missingUser (toString target))
      | some user =>
        match ← transport.connect { target, user, identities } with
        | .error failure =>
          if failure matches .authRejected _ then noteRejected identities
          return .error (.connectionFailed (toString target) failure)
        | .ok session =>
          Stage.info ("Connected to " ++ toString target ++ " as " ++ user)
          return .ok { target, user, session, polling }

def execute (transport : Transport m ι) (c : Connection ι) (command : String) :
    m (Except Error CommandResult) := do
  Stage.info ("Executing on " ++ toString c.target ++ ": " ++ command)
  match ← transport.exec c.polling c.session command with
  | .error failure => return .error (.commandFailed (toString c.target) command failure)
  | .ok result =>
    Stage.debugWith "command finished"
      [("exit_code", toString result.exitCode), ("stdout", result.stdoutText),
       ("stderr", result.stderrText)]
    return .ok result

def upload (transport : Transport m ι) (c : Connection ι) (source : Path) (destination : String) :
    m (Except Error Nat) := do
  Stage.info ("Uploading " ++ source.text ++ " to " ++ toString c.target ++ ":" ++ destination)
  match ← transport.upload c.session source destination with
  | .error failure =>
    return .error (.transferFailed (toString c.target) source.text destination failure)
  | .ok bytes =>
    Stage.debugWith "upload finished" [("bytes", toString bytes)]
    return .ok bytes

end Connection

end Rollout
