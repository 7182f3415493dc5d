import Rollout.Batch
import Rollout.CommandLine.Command
import Rollout.CommandLine.Listing
import Rollout.Config
import Rollout.Environment
import Rollout.Plan.Locator

/-! Running a command: what it prints, why it fails, and the code it ends with. -/

namespace Rollout.CommandLine

inductive Error
  | usage (fault : UsageFault)
  | config (error : Config.Error)
  | plan (error : Plan.Error)
  | task (error : Task.Error)
  | unfinished (failed total : Nat)
  | output (reason : String)

namespace Error

def message : Error → String
  | .usage fault => "error: " ++ fault.message
  | .config error => "configuration error: " ++ error.message
  | .plan error => "plan error: " ++ error.message
  | .task error => "task error: " ++ error.message
  | .unfinished failed total =>
    toString failed ++ " of " ++ toString total ++ " deploy tasks failed"
  | .output reason => "failed to write output: " ++ reason

def code : Error → Nat
  | .usage _ => 2
  | _ => 1

end Error

structure Finish where
  output : String := ""
  error : Option Error := none
  needsOutput : Bool := true

namespace Finish

def code (f : Finish) : Nat := f.error.elim 0 Error.code

def errorText (f : Finish) : String := f.error.elim "" fun e => e.message ++ "\n"

def unwritten (reason : String) (f : Finish) : Finish :=
  if f.output.isEmpty then f
  else if f.needsOutput then { error := some (.output reason) }
  else { f with output := "" }

end Finish

def summaryText (outcomes : List Outcome) : String :=
  .join (outcomes.map fun o => o.job ++ match o.result with
    | .ok report =>
      ": ok (" ++ toString report.steps.length ++ " steps, " ++ toString report.bytesUploaded ++
        " bytes uploaded)\n"
    | .error e => ": FAILED: " ++ e.message ++ "\n")

def finishOf (outcomes : List Outcome) : Finish :=
  let failed := outcomes.countP (!·.isSuccess)
  { output := summaryText outcomes
    error := if failed = 0 then none else some (.unfinished failed outcomes.length) }

def DeployRequest.inputs (request : DeployRequest) (config : Config) : Task.Inputs where
  artifact := request.artifact
  projectName := request.projectName
  lockNote := config.lockNote

structure Surroundings (m : Type → Type) (ι : Type) where
  files : FileSystem
  environment : Environment
  settings : Except Config.Error Config
  candidates : List Path
  runner : LocalCommand.Runner m
  transport : Transport m ι
  stopReason : List (Nat × Job) → String := fun _ => ""

namespace Surroundings

variable {m : Type → Type} [Stage m] {ι : Type}

/-- The settings, and the plan asked for, else the configured one, else the one that is found. -/
def prepared (s : Surroundings m ι) (asked : Option Path) : Except Error (Config × Plan) := do
  let config ← (Config.checked s.settings).mapError .config
  let plan ← (Plan.choose s.files s.candidates (asked.orElse fun _ => config.planPath)).mapError .plan
  return (config, plan)

def withPlan (s : Surroundings m ι) (asked : Option Path) (next : Config → Plan → m Finish) :
    m Finish := do
  match s.prepared asked with
  | .error e => return { error := some e }
  | .ok (config, plan) =>
    Stage.infoWith "Loaded deploy plan" [("origin", toString plan.origin)]
    next config plan

def deployer (s : Surroundings m ι) (config : Config) : Deployer m ι where
  transport := s.transport
  files := s.files
  operator := .ofVariables s.environment.text?
  lockout := config.lockout
  polling := config.polling
  stopReason := s.stopReason

def noteOutcomes : List Outcome → m Unit
  | [] => return ()
  | o :: rest => do
    match o.result with
    | .ok report => Stage.infoWith "Deploy complete" [("task", o.job), ("target", report.target)]
    | .error e => Stage.errorWith "Deploy failed" [("task", o.job), ("error", e.message)]
    noteOutcomes rest

/-- Resolves all tasks before any of them is run. -/
def deployWith (s : Surroundings m ι) (request : DeployRequest) (config : Config) (plan : Plan) :
    m Finish := do
  let deployer := s.deployer config
  match ← Task.resolve plan request.tasks (request.inputs config) deployer.operator s.runner with
  | .error e => return { error := some (.task e) }
  | .ok jobs =>
    let outcomes ← deployer.runBatch jobs
    noteOutcomes outcomes
    return finishOf outcomes

def deploy (s : Surroundings m ι) (request : DeployRequest) : m Finish :=
  s.withPlan request.plan (s.deployWith request)

def list (s : Surroundings m ι) (request : ListRequest) : m Finish :=
  s.withPlan request.plan fun _ plan =>
    return { output := listingText request.asJson (Task.list plan) }

def run (s : Surroundings m ι) (args : List String) : m Finish :=
  match Command.parse args with
  | .error fault => return { error := some (.usage fault) }
  | .ok .help => return { output := profile.helpText, needsOutput := false }
  | .ok .version => return { output := profile.versionText ++ "\n", needsOutput := false }
  | .ok (.deploy request) => s.deploy request
  | .ok (.list request) => s.list request

end Surroundings

end Rollout.CommandLine
