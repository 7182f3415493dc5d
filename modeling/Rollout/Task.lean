import Rollout.Plan.Basic

/-!
Tasks by name. Every destination of a plan yields two tasks: one that takes the destination's lock
first, and one that leaves it alone. Naming tasks asks for their jobs.
-/

namespace Rollout

namespace Task

inductive Variant
  | locking
  | plain
  deriving DecidableEq

namespace Variant

def suffix : Variant → String
  | .locking => "-deploy-lock"
  | .plain => "-deploy"

def group : Variant → String
  | .locking => "Deploy (locking)"
  | .plain => "Deploy"

end Variant

end Task

structure Task where
  destination : String
  variant : Task.Variant
  deriving DecidableEq

namespace Task

def name (t : Task) : String := t.destination ++ t.variant.suffix

def ofVariant? (variant : Variant) (name : List Char) : Option Task :=
  (Text.withoutEnding? variant.suffix.toList name).map fun destination =>
    ⟨.ofList destination, variant⟩

/-- The task that a name stands for, blanks around it aside; the locking ending is looked for first. -/
def parse? (name : String) : Option Task :=
  let name := Text.trimChars name.toList
  ((ofVariant? .locking name).orElse fun _ => ofVariant? .plain name).filter (·.destination ≠ "")

def all (plan : Plan) : List Task :=
  [Variant.locking, .plain].flatMap fun variant => plan.destinations.map (⟨·.name, variant⟩)

structure Listing where
  name : String
  group : String
  remote : String
  mode : String
  paths : List String
  lock : Option String
  deriving DecidableEq

def describe (l : Plan.LockSpec) : String :=
  if l.checkOnly then "check " ++ l.domain ++ "/" ++ l.shard
  else "claim " ++ l.domain ++ "/" ++ l.shard ++ " for " ++ toString l.minutes.toNat ++ " min"

def lockOf (variant : Variant) (d : Plan.Destination) : Option Plan.LockSpec :=
  match variant with
  | .locking => d.lock
  | .plain => none

def listing (t : Task) (d : Plan.Destination) : Listing :=
  { name := t.name, group := t.variant.group, remote := d.remote, mode := d.mode.label,
    paths := d.paths, lock := (lockOf t.variant d).map describe }

def list (plan : Plan) : List Listing :=
  (all plan).filterMap fun t => (plan.destination? t.destination).map t.listing

/-- The project of an archive named after project and version; else the stem of its name. -/
def projectName? (artifact : Path) (version : String) : Option String :=
  let versioned (name : String) : Option String :=
    if version = "" then none
    else (Text.withoutEnding? ("-" ++ version ++ ".jar").toList name.toList).map String.ofList
  (artifact.fileName.bind fun name => (versioned name).orElse fun _ => artifact.fileStem).filter (· ≠ "")

inductive Error
  | unknownTask (name : String)
  | projectName (artifact : Path)
  | missingRemote (destination remote : String)
  | holder (fault : Operator.HolderFault)
  | job (invalid : Job.Invalid)
  deriving DecidableEq

def Error.message : Error → String
  | .unknownTask name =>
    "unknown task '" ++ name ++ "'; run \x60shardeploy list\x60 to see available tasks"
  | .projectName artifact =>
    "cannot derive a project name from " ++ artifact.text ++ "; pass --project-name"
  | .missingRemote destination remote =>
    "destination '" ++ destination ++ "' refers to unknown remote '" ++ remote ++ "'"
  | .holder fault => fault.message
  | .job invalid => invalid.message

structure Inputs where
  artifact : Artifact
  projectName : Option String := none
  lockNote : String := Lock.defaultNote
  deriving DecidableEq

def find (plan : Plan) (name : String) : Except Error (Task × Plan.Destination) :=
  match (parse? name).bind fun t => (plan.destination? t.destination).map (t, ·) with
  | some found => .ok found
  | none => .error (.unknownTask name)

def Inputs.project (inputs : Inputs) : Except Error String :=
  match inputs.projectName.filter fun name => !Text.isVoid name with
  | some name => .ok (Text.trim name)
  | none =>
    match projectName? inputs.artifact.path inputs.artifact.version with
    | some name => .ok name
    | none => .error (.projectName inputs.artifact.path)

def claims (t : Task) (d : Plan.Destination) : Bool :=
  (lockOf t.variant d).any fun l => !l.checkOnly

def modeOf (d : Plan.Destination) (project : String) : DeployMode :=
  match d.mode with
  | .overwrite => .overwrite project
  | .symlinkSwap => .symlinkSwap (d.linkName.getD project)

def draft (t : Task) (d : Plan.Destination) (remote : Plan.Remote) (project holder : String)
    (inputs : Inputs) : Job.Draft :=
  { name := t.name, target := some remote.target, credentials := remote.credentials,
    artifact := some inputs.artifact, remotePaths := d.paths, mode := some (modeOf d project),
    lock := (lockOf t.variant d).map (·.request holder inputs.lockNote) }

variable {m : Type → Type} [Stage m]

/-- The holder recorded with claims, looked up only when a task claims a lock. -/
def holderFor (tasks : List (Task × Plan.Destination)) (operator : Operator)
    (runner : LocalCommand.Runner m) : m (Except Error String) := do
  if tasks.any fun (t, d) => t.claims d then
    return (← operator.holderName runner).mapError .holder
  else return .ok ""

def build (plan : Plan) (project holder : String) (inputs : Inputs) :
    List (Task × Plan.Destination) → m (Except Error (List Job))
  | [] => return .ok []
  | (t, d) :: rest => do
    match plan.remote? d.remote with
    | none => return .error (.missingRemote d.name d.remote)
    | some remote =>
      let draft := t.draft d remote project holder inputs
      Stage.debugWith "Resolved task"
        [("task", t.name), ("mode", (modeOf d project).label), ("locked", toString draft.lock.isSome)]
      match draft.build with
      | .error e => return .error (.job e)
      | .ok job => return (← build plan project holder inputs rest).map (job :: ·)

def resolve (plan : Plan) (names : List String) (inputs : Inputs) (operator : Operator)
    (runner : LocalCommand.Runner m) : m (Except Error (List Job)) := do
  match names.mapM (find plan) with
  | .error e => return .error e
  | .ok tasks =>
    match inputs.project with
    | .error e => return .error e
    | .ok project =>
      match ← holderFor tasks operator runner with
      | .error e => return .error e
      | .ok holder => build plan project holder inputs tasks

end Task

end Rollout
