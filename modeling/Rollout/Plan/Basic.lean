import Rollout.Plan.Spec
import Rollout.Toml.Reader

/-!
Plans: remotes, and the destinations deployed to them. A plan is made from what is written down, and
the first flaw keeps it from being made: remotes come before destinations, each in the order of
their names.
-/

namespace Rollout

namespace Plan

inductive Flaw
  | emptyHost (remote : String)
  | noCredentials (remote : String)
  | namelessKey (remote : String)
  | unknownRemote (destination remote : String)
  | badPaths (destination : String)
  | vagueLock (destination : String)
  | endlessClaim (destination : String)
  deriving DecidableEq

def Flaw.message : Flaw → String
  | .emptyHost remote => "remote '" ++ remote ++ "' has an empty host"
  | .noCredentials remote => "remote '" ++ remote ++ "' lists no credentials"
  | .namelessKey remote =>
    "remote '" ++ remote ++ "': conventional-key-file credentials need a key name"
  | .unknownRemote destination remote =>
    "destination '" ++ destination ++ "' refers to unknown remote '" ++ remote ++ "'"
  | .badPaths destination => "destination '" ++ destination ++ "': paths must be non-empty"
  | .vagueLock destination => "destination '" ++ destination ++ "': lock needs a domain and shard"
  | .endlessClaim destination =>
    "destination '" ++ destination ++ "': claimed locks need a positive duration in minutes"

structure Remote where
  target : Target
  credentials : Credential.Chain
  deriving DecidableEq

structure Destination where
  name : String
  remote : String
  mode : Replacement
  paths : List String
  lock : Option LockSpec
  linkName : Option String
  deriving DecidableEq

/-- A value that is taken for absent when it is blank. -/
def nonVoid (value : Option String) : Option String := value.filter fun v => !Text.isVoid v

def CredentialSpec.source? (spec : CredentialSpec) : Option Credential.Source :=
  match spec.kind with
  | .environmentKeyFile => some .environmentKeyFile
  | .conventionalKeyFile => (nonVoid spec.key).map .conventionalKeyFile
  | .agentSocket => some .agentSocket
  | .platformAgent => some .platformAgent

def CredentialSpec.provider (remote : String) (spec : CredentialSpec) :
    Except Flaw Credential.Provider :=
  match spec.source? with
  | some source => .ok ⟨source, spec.continueOnSuccess.getD source.continues⟩
  | none => .error (.namelessKey remote)

def chain (remote : String) : Option (List CredentialSpec) → Except Flaw Credential.Chain
  | none => .ok .standard
  | some specs => do
    let providers ← specs.mapM (·.provider remote)
    if providers.isEmpty then .error (.noCredentials remote) else .ok ⟨providers⟩

def RemoteSpec.remote (name : String) (spec : RemoteSpec) : Except Flaw Remote := do
  if Text.isVoid spec.host then .error (.emptyHost name)
  else
    let credentials ← chain name spec.credentials
    return {
      target :=
        { name, host := Text.trim spec.host, port := spec.port, user := nonVoid spec.user,
          connectTimeout := .ofMillis spec.connectTimeout, hostKeyPolicy := spec.hostKeyPolicy }
      credentials }

def LockSpec.flaw? (destination : String) (l : LockSpec) : Option Flaw :=
  if Text.isVoid l.domain || Text.isVoid l.shard then some (.vagueLock destination)
  else if !l.checkOnly && l.minutes = 0 then some (.endlessClaim destination)
  else none

def DestinationSpec.destination (knows : String → Bool) (name : String) (spec : DestinationSpec) :
    Except Flaw Destination :=
  if !knows spec.remote then .error (.unknownRemote name spec.remote)
  else if spec.paths.isEmpty || spec.paths.any Text.isVoid then .error (.badPaths name)
  else match spec.lock.bind (·.flaw? name) with
    | some flaw => .error flaw
    | none =>
      .ok { name, remote := spec.remote, mode := spec.mode, paths := spec.paths, lock := spec.lock,
            linkName := nonVoid spec.linkName }

inductive Origin
  | standard
  | file (path : Path)
  deriving DecidableEq

instance : ToString Origin where
  toString
    | .standard => "built-in standard plan"
    | .file path => path.text

inductive Error
  | io (path : Path) (fault : FileSystem.Fault)
  | parse (origin : Origin) (fault : Toml.Fault)
  | invalid (origin : Origin) (flaw : Flaw)
  deriving DecidableEq

def Error.message : Error → String
  | .io path .noFileName => "failed to access " ++ path.text ++ ": plan file path is missing a filename"
  | .io path fault => "failed to access " ++ path.text ++ ": " ++ fault.message
  | .parse origin fault => "failed to parse " ++ toString origin ++ ": " ++ fault.message
  | .invalid origin flaw => "invalid plan " ++ toString origin ++ ": " ++ flaw.message

end Plan

structure Plan where
  origin : Plan.Origin
  /-- In the order of the names. -/
  remotes : List (String × Plan.Remote)
  /-- In the order of the names. -/
  destinations : List Plan.Destination
  deriving DecidableEq

namespace Plan

def remote? (p : Plan) (name : String) : Option Remote :=
  (p.remotes.find? (·.1 == name)).map (·.2)

def destination? (p : Plan) (name : String) : Option Destination :=
  p.destinations.find? (·.name == name)

def Spec.plan (origin : Origin) (spec : Spec) : Except Flaw Plan := do
  let remotes ← spec.remotes.mapM fun (name, r) => return (name, ← r.remote name)
  let destinations ← spec.destinations.mapM fun (name, d) =>
    d.destination (fun remote => remotes.any (·.1 == remote)) name
  return { origin, remotes, destinations }

end Plan

end Rollout
