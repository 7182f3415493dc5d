import Rollout.Job

/-!
Running one job. Its steps run in order, and the first failure ends the job; nothing is retried.
Cleaning is the exception: when it exits with a code other than zero, the job goes on.
-/

namespace Rollout

structure Report where
  job : String
  target : String
  steps : List Step
  bytesUploaded : Nat
  deriving DecidableEq

def Report.start (job : Job) : Report := ⟨job.name, toString job.target, [], 0⟩

def Report.add (report : Report) (step : Step) (bytes : Nat) : Report :=
  { report with steps := report.steps ++ [step], bytesUploaded := report.bytesUploaded + bytes }

inductive DeployError
  | invalidJob (invalid : Job.Invalid)
  | connection (error : Connection.Error)
  | lockBusy (job domain shard : String) (exitCode : Int)
  | relinkFailed (directory link : String) (exitCode : Int) (stderr : String)
  | workerStopped (job reason : String)
  deriving DecidableEq

def DeployError.message : DeployError → String
  | .invalidJob invalid => invalid.message
  | .connection error => error.message
  | .lockBusy job domain shard exitCode =>
    "Failed to deploy " ++ job ++ "! Shard " ++ domain ++ "/" ++ shard ++
      " is currently being used by another developer! (lockout exited with " ++ toString exitCode ++ ")"
  | .relinkFailed directory link exitCode stderr =>
    "failed to relink " ++ link ++ " in " ++ directory ++ " (exit code " ++ toString exitCode ++
      "): " ++ stderr
  | .workerStopped job reason => "deploy worker for " ++ job ++ " stopped unexpectedly: " ++ reason

structure Deployer (m : Type → Type) (ι : Type) where
  transport : Transport m ι
  files : FileSystem
  operator : Operator
  lockout : Lockout := {}
  polling : Polling := {}
  /-- What is said of a worker that stopped, by the numbered jobs that it had. -/
  stopReason : List (Nat × Job) → String := fun _ => ""

namespace Deployer

variable {m : Type → Type} [Stage m] {ι : Type}

def connect (d : Deployer m ι) (job : Job) : m (Except DeployError (Connection ι)) := do
  return (← Connection.establish d.transport d.files d.operator d.polling job.target
    job.credentials).mapError .connection

def perform (d : Deployer m ι) (c : Connection ι) (job : Job) : Step → m (Except DeployError Nat)
  | .lockCheck request => do
    match ← d.lockout.acquire d.transport c request with
    | .ok () => return .ok 0
    | .error (.busy domain shard exitCode) => return .error (.lockBusy job.name domain shard exitCode)
    | .error (.connection e) => return .error (.connection e)
  | .clean directory command => do
    match ← c.execute d.transport command with
    | .error e => return .error (.connection e)
    | .ok result =>
      unless result.isSuccess do
        Stage.warnWith "Cleaning old jars failed; continuing"
          [("job", job.name), ("path", directory), ("exit_code", toString result.exitCode),
           ("stderr", Text.trim result.stderrText)]
      return .ok 0
  | .transfer source destination => do
    return (← c.upload d.transport source destination).mapError .connection
  | .relink directory command => do
    match ← c.execute d.transport command with
    | .error e => return .error (.connection e)
    | .ok result =>
      if result.isSuccess then return .ok 0
      else
        return .error (.relinkFailed directory (job.mode.base ++ ".jar") result.exitCode
          (Text.trim result.stderrText))

def performAll (d : Deployer m ι) (c : Connection ι) (job : Job) (report : Report) :
    List Step → m (Except DeployError Report)
  | [] => return .ok report
  | step :: rest => do
    Stage.infoWith ("Step: " ++ toString step) [("job", job.name)]
    match ← d.perform c job step with
    | .error e => return .error e
    | .ok bytes => d.performAll c job (report.add step bytes) rest

def runOn (d : Deployer m ι) (c : Connection ι) (job : Job) : m (Except DeployError Report) := do
  match job.validate with
  | .error e => return .error (.invalidJob e)
  | .ok () =>
    Stage.infoWith "Starting deploy"
      [("job", job.name), ("target", toString job.target), ("mode", job.mode.label)]
    match ← d.performAll c job (.start job) job.steps with
    | .error e => return .error e
    | .ok report =>
      Stage.infoWith "Deploy finished"
        [("job", job.name), ("bytes", toString report.bytesUploaded)]
      return .ok report

def run (d : Deployer m ι) (job : Job) : m (Except DeployError Report) := do
  match job.validate with
  | .error e => return .error (.invalidJob e)
  | .ok () =>
    match ← d.connect job with
    | .error e => return .error e
    | .ok c => d.runOn c job

end Deployer

end Rollout
