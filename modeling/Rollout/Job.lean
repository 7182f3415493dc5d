import Rollout.Lockout

/-!
A deploy job: one archive, one target, the remote directories that receive it and how it replaces
what is there. A valid job is a list of steps.
-/

namespace Rollout

structure Artifact where
  path : Path
  version : String
  deriving DecidableEq

def Artifact.fileName (a : Artifact) : Option String := a.path.fileName

inductive DeployMode
  /-- Deletes the archives of the base name, then uploads a versioned one. -/
  | overwrite (base : String)
  /-- Uploads the archive under its own name, then repoints a stable link. -/
  | symlinkSwap (link : String)
  deriving DecidableEq

namespace DeployMode

def label : DeployMode → String
  | .overwrite _ => "overwrite"
  | .symlinkSwap _ => "symlink-swap"

def base : DeployMode → String
  | .overwrite base => base
  | .symlinkSwap link => link

end DeployMode

inductive Step
  | lockCheck (request : Lock.Request)
  | clean (directory command : String)
  | transfer (source : Path) (destination : String)
  | relink (directory command : String)
  deriving DecidableEq

instance : ToString Step where
  toString
    | .lockCheck ⟨domain, shard, .claim _ _ minutes⟩ =>
      "claim lock " ++ domain ++ "/" ++ shard ++ " for " ++ toString minutes.toNat ++ " minutes"
    | .lockCheck ⟨domain, shard, .checkOnly⟩ => "check lock " ++ domain ++ "/" ++ shard
    | .clean directory _ => "clean " ++ directory
    | .transfer source destination => "upload " ++ source.text ++ " to " ++ destination
    | .relink directory _ => "relink in " ++ directory

structure Job where
  name : String
  target : Target
  credentials : Credential.Chain
  artifact : Artifact
  remotePaths : List String
  mode : DeployMode
  lock : Option Lock.Request
  deriving DecidableEq

namespace Job

inductive Flaw
  | missing (field : String)
  | emptyName
  | noPaths
  | blankPath
  | emptyVersion
  | namelessArtifact
  | emptyBase
  | linkCollides
  deriving DecidableEq

def Flaw.message : Flaw → String
  | .missing field => field ++ " is required"
  | .emptyName => "name must not be empty"
  | .noPaths => "paths must be non-empty"
  | .blankPath => "remote paths must not be blank"
  | .emptyVersion => "artifact version must not be empty"
  | .namelessArtifact => "artifact path must name a file"
  | .emptyBase => "base name must not be empty"
  | .linkCollides => "symlink name collides with the artifact file name"

def linkShadowsArtifact (job : Job) : Bool :=
  match job.mode with
  | .overwrite _ => false
  | .symlinkSwap link => job.artifact.fileName = some (link ++ ".jar")

def flaw? (job : Job) : Option Flaw :=
  if Text.isVoid job.name then some .emptyName
  else if job.remotePaths.isEmpty then some .noPaths
  else if job.remotePaths.any Text.isVoid then some .blankPath
  else if Text.isVoid job.artifact.version then some .emptyVersion
  else if job.artifact.fileName.isNone then some .namelessArtifact
  else if Text.isVoid job.mode.base then some .emptyBase
  else if job.linkShadowsArtifact then some .linkCollides
  else none

/-- The remote actions in order. Overwriting cleans every directory before it uploads anywhere;
swapping uploads everywhere before it relinks anything. -/
def steps (job : Job) : List Step :=
  let file := job.artifact.fileName.getD ""
  (job.lock.map Step.lockCheck).toList ++
    match job.mode with
    | .overwrite base =>
      job.remotePaths.map (fun dir => .clean dir (Shell.Command.clean dir base)) ++
        job.remotePaths.map fun dir =>
          .transfer job.artifact.path
            (Shell.Command.joinRemote dir (base ++ "-" ++ job.artifact.version ++ ".jar"))
    | .symlinkSwap link =>
      job.remotePaths.map (fun dir =>
          .transfer job.artifact.path (Shell.Command.joinRemote dir file)) ++
        job.remotePaths.map fun dir => .relink dir (Shell.Command.relink dir link file)

structure Draft where
  name : String
  target : Option Target := none
  credentials : Credential.Chain := .standard
  artifact : Option Artifact := none
  remotePaths : List String := []
  mode : Option DeployMode := none
  lock : Option Lock.Request := none

structure Invalid where
  job : String
  flaw : Flaw
  deriving DecidableEq

def Invalid.message (e : Invalid) : String :=
  "invalid deploy job '" ++ e.job ++ "': " ++ e.flaw.message

def validate (job : Job) : Except Invalid Unit :=
  match job.flaw? with
  | some flaw => .error ⟨job.name, flaw⟩
  | none => .ok ()

def Draft.build (d : Draft) : Except Invalid Job :=
  match d.target, d.artifact, d.mode with
  | none, _, _ => .error ⟨d.name, .missing "target"⟩
  | _, none, _ => .error ⟨d.name, .missing "artifact"⟩
  | _, _, none => .error ⟨d.name, .missing "mode"⟩
  | some target, some artifact, some mode =>
    let job : Job :=
      { name := Text.trim d.name, target, credentials := d.credentials, artifact,
        remotePaths := d.remotePaths, mode, lock := d.lock }
    job.validate.map fun _ => job

end Job

end Rollout
