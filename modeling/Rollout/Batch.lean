import Rollout.Deploy

/-!
Running several jobs with one session per target. Jobs that share a target key form a group; a group
is run by one worker, in the order of its jobs, over a connection that is opened when first needed
and dropped when it breaks. Outcomes come back in the order of the jobs.
-/

namespace Rollout

structure Outcome where
  job : String
  result : Except DeployError Report

def Outcome.isSuccess (o : Outcome) : Bool := o.result matches .ok _

namespace Batch

abbrev Entry := Nat × Job

def insert (entry : Entry) : List (Target.Key × List Entry) → List (Target.Key × List Entry)
  | [] => [(entry.2.target.key, [entry])]
  | (key, group) :: rest =>
    match entry.2.target.key.compare key with
    | .lt => (entry.2.target.key, [entry]) :: (key, group) :: rest
    | .eq => (key, group ++ [entry]) :: rest
    | .gt => (key, group) :: insert entry rest

def groups (jobs : List Job) : List (List Entry) :=
  ((jobs.zipIdx.map fun (job, i) => (i, job)).foldl (fun acc entry => insert entry acc) []).map (·.2)

def stopped (reason : List Entry → String) (group : List Entry) : List (Nat × Outcome) :=
  group.map fun (i, job) => (i, ⟨job.name, .error (.workerStopped job.name (reason group))⟩)

def collect (total : Nat) (results : List (Nat × Outcome)) : List Outcome :=
  (results.foldl (fun (slots : List (Option Outcome)) (i, outcome) => slots.set i (some outcome))
    (List.replicate total none)).filterMap id

end Batch

namespace Deployer

variable {m : Type → Type} [Stage m] {ι : Type}

/-- Runs a job over the session of its group, and returns the session that is left for the next. -/
def runShared (d : Deployer m ι) (slot : Option (Connection ι)) (job : Job) :
    m (Except DeployError Report × Option (Connection ι)) := do
  match job.validate with
  | .error e => return (.error (.invalidJob e), slot)
  | .ok () =>
    let opened ← match slot with
      | some c => pure (.ok c)
      | none => d.connect job
    match opened with
    | .error e => return (.error e, none)
    | .ok c =>
      let result ← d.runOn c job
      -- a broken session is dropped, so that the next job connects anew
      return (result, if result matches .error (.connection _) then none else some c)

def runGroup (d : Deployer m ι) (slot : Option (Connection ι)) :
    List Batch.Entry → m (List (Nat × Outcome))
  | [] => return []
  | (i, job) :: rest => do
    let (result, slot) ← d.runShared slot job
    if let .error e := result then
      Stage.warnWith "Deploy failed" [("job", job.name), ("error", e.message)]
    return (i, ⟨job.name, result⟩) :: (← d.runGroup slot rest)

def runGroups (d : Deployer m ι) (groups : List (List Batch.Entry)) : m (List (Nat × Outcome)) := do
  let results ← Stage.gather (groups.map (d.runGroup none))
  return (groups.zipWith (fun group result => result.getD (Batch.stopped d.stopReason group))
    results).flatten

/-- Runs jobs with one session per target. -/
def runBatch (d : Deployer m ι) (jobs : List Job) : m (List Outcome) := do
  return Batch.collect jobs.length (← d.runGroups (Batch.groups jobs))

end Deployer

end Rollout
