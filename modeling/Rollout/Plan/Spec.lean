import Rollout.Job

/-!
A plan as it is written down: remotes and destinations by name, in the order of the names, before
anything is checked.
-/

namespace Rollout.Plan

inductive CredentialKind
  | environmentKeyFile
  | conventionalKeyFile
  | agentSocket
  | platformAgent
  deriving DecidableEq

structure CredentialSpec where
  kind : CredentialKind
  key : Option String := none
  continueOnSuccess : Option Bool := none
  deriving DecidableEq

structure RemoteSpec where
  host : String
  port : UInt16 := 22
  user : Option String := none
  connectTimeout : Nat := 0
  hostKeyPolicy : HostKeyPolicy := .allowAny
  credentials : Option (List CredentialSpec) := none
  deriving DecidableEq

inductive Replacement
  | overwrite
  | symlinkSwap
  deriving DecidableEq

def Replacement.label : Replacement → String
  | .overwrite => "overwrite"
  | .symlinkSwap => "symlink-swap"

structure LockSpec where
  domain : String
  shard : String
  minutes : UInt32 := 0
  checkOnly : Bool := false
  deriving DecidableEq

def LockSpec.request (l : LockSpec) (holder note : String) : Lock.Request :=
  if l.checkOnly then .check l.domain l.shard
  else (Lock.Request.claim l.domain l.shard holder l.minutes).withNote note

structure DestinationSpec where
  remote : String
  mode : Replacement
  paths : List String
  lock : Option LockSpec := none
  linkName : Option String := none
  deriving DecidableEq

structure Spec where
  remotes : List (String × RemoteSpec) := []
  destinations : List (String × DestinationSpec) := []
  deriving DecidableEq

end Rollout.Plan
