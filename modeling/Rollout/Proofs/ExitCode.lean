import Rollout.CommandLine.Run
import Rollout.Proofs.Completion
import Rollout.Proofs.Resolution

/-!
What a deploy tells by the code it ends with. Zero stands for all that was asked for, carried out to
the last step; and where something cannot be resolved, nothing is asked for at all.
-/

namespace Rollout.CommandLine

open Program

variable {ι : Type} {cs : List (Exchange ι)}

/-- Where a deploy is started. -/
structure Workplace where
  files : FileSystem
  environment : Environment
  settings : Except Config.Error Config
  candidates : List Path
  answers : LocalCommand.Answers
  stopReason : List Batch.Entry → String

theorem does_noteOutcomes {outcomes : List Outcome} {o : Option Unit} :
    (Surroundings.noteOutcomes outcomes : Program ι Unit).Does cs o ↔ cs = [] ∧ o = some () := by
  induction outcomes with
  | nil => exact does_pure
  | cons outcome rest ih =>
    rw [Surroundings.noteOutcomes]
    cases outcome.result with
    | error e => exact does_note_bind.trans ih
    | ok report => exact does_note_bind.trans ih

namespace Workplace

variable (p : Workplace) (request : DeployRequest) (config : Config) (plan : Plan)

def surroundings : Surroundings (Program ι) ι where
  files := p.files
  environment := p.environment
  settings := p.settings
  candidates := p.candidates
  runner := p.answers.runner
  transport := transport
  stopReason := p.stopReason

def deployerSettings : Deployer.Settings where
  files := p.files
  operator := .ofVariables p.environment.text?
  lockout := config.lockout
  polling := config.polling
  stopReason := p.stopReason

def jobs : Except Task.Error (List Job) :=
  Task.jobsOf plan request.tasks (request.inputs config) (p.deployerSettings config).operator p.answers

theorem does_deployWith {o : Option Finish} :
    (p.surroundings.deployWith request config plan : Program ι Finish).Does cs o ↔
      match p.jobs request config plan with
      | .error e => cs = [] ∧ o = some { error := some (.task e) }
      | .ok jobs => ∃ r, ((p.deployerSettings config).deployer.runBatch jobs).Does cs r ∧
          o = r.map finishOf := by
  rw [Surroundings.deployWith]
  refine (does_bind_of_quiet Task.does_resolve).trans ?_
  change _ ↔ match Task.jobsOf .. with | .error e => _ | .ok jobs => _
  dsimp only [Surroundings.deployer, deployerSettings, surroundings, Deployer.Settings.deployer]
  generalize Task.jobsOf plan request.tasks _ _ p.answers = jobs
  cases jobs with
  | error e => exact does_pure
  | ok jobs => exact does_bind_quiet ((does_bind_of_quiet does_noteOutcomes).trans does_pure)

end Workplace

theorem Surroundings.validate_of_prepared {m : Type → Type} {s : Surroundings m ι}
    {asked : Option Path} {config : Config} {plan : Plan} (h : s.prepared asked = .ok (config, plan)) :
    config.validate = .ok () := by
  obtain ⟨_, hchecked, h⟩ := ok_of_bind h
  obtain ⟨_, -, h⟩ := ok_of_bind h
  obtain ⟨loaded, -, hvalid⟩ := ok_of_bind (ok_of_mapError hchecked)
  obtain ⟨_, hvalid, hloaded⟩ := ok_of_bind hvalid
  cases hloaded
  cases h
  exact hvalid

theorem Error.code_ne_zero (e : Error) : e.code ≠ 0 := by
  cases e <;> simp [code]

section Finish

variable {outcomes : List Outcome}

theorem failed_eq_zero_iff :
    outcomes.countP (!·.isSuccess) = 0 ↔ ∀ o ∈ outcomes, o.isSuccess := by
  simp [List.countP_eq_zero]

theorem finishOf_code_eq_zero_iff :
    (finishOf outcomes).code = 0 ↔ ∀ o ∈ outcomes, o.isSuccess := by
  rw [← failed_eq_zero_iff, Finish.code, finishOf]
  dsimp only
  split
  · rename_i h
    simp [h]
  · rename_i h
    simp [h, Error.code]

theorem finishOf_of_code_ne_zero (h : (finishOf outcomes).code ≠ 0) :
    0 < outcomes.countP (!·.isSuccess) ∧ (finishOf outcomes).error =
      some (.unfinished (outcomes.countP (!·.isSuccess)) outcomes.length) := by
  have hfailed : outcomes.countP (!·.isSuccess) ≠ 0 := fun hzero =>
    h (finishOf_code_eq_zero_iff.mpr (failed_eq_zero_iff.mp hzero))
  exact ⟨Nat.pos_of_ne_zero hfailed, if_neg hfailed⟩

end Finish

theorem Workplace.play_deploy (p : Workplace) (request : DeployRequest) (w : World ι)
    (past : List (Exchange ι)) :
    let deploy : Program ι Finish := p.surroundings.deploy request
    match (p.surroundings : Surroundings (Program ι) ι).prepared request.plan with
    | .error e => deploy.play w past = (some { error := some e }, past) ∧ e.code ≠ 0
    | .ok (config, plan) => config.validate = .ok () ∧ ∃ note, calls [note] = [] ∧
        deploy.play w past =
          (p.surroundings.deployWith request config plan).play w (past ++ [note]) := by
  intro deploy
  cases hprepared : (p.surroundings : Surroundings (Program ι) ι).prepared request.plan with
  | error e =>
    refine ⟨?_, e.code_ne_zero⟩
    simp only [deploy, Surroundings.deploy, Surroundings.withPlan, hprepared]
    rfl
  | ok prepared =>
    obtain ⟨config, plan⟩ := prepared
    refine ⟨Surroundings.validate_of_prepared hprepared,
      ⟨.note ⟨.info, "Loaded deploy plan", [("origin", toString plan.origin)]⟩, ()⟩, rfl, ?_⟩
    simp only [deploy, Surroundings.deploy, Surroundings.withPlan, hprepared]
    rfl

/-- In any world and for any settings and plan: tasks of which something cannot be resolved ask for
nothing, and the deploy fails. Others give one job each, and the deploy ends with zero just when all
their steps were carried out; otherwise it tells how many of the tasks failed. A deploy without fit
settings or a plan asks for nothing either. -/
theorem Workplace.deploy_code (p : Workplace) (request : DeployRequest) (w : World ι)
    (past : List (Exchange ι)) :
    (∀ (config : Config) (plan : Plan),
      let run := (p.surroundings.deployWith request config plan : Program ι Finish).play w past
      ∃ t, run.2 = past ++ t ∧
        match p.jobs request config plan with
        | .error e =>
          calls t = [] ∧ run.1 = some { error := some (.task e) } ∧ (Error.task e).code ≠ 0
        | .ok jobs =>
          (∃ project holder, List.Forall₂
            (Task.Yields plan project holder (request.inputs config)) request.tasks jobs) ∧
          ∃ shifts outcomes, Ledger (p.deployerSettings config) jobs shifts (calls t) outcomes ∧
            run.1 = some (finishOf outcomes) ∧
            ((finishOf outcomes).code = 0 ↔
              ∀ i job, jobs[i]? = some job → Completed config.lockout shifts (i, job)) ∧
            ((finishOf outcomes).code ≠ 0 → 0 < outcomes.countP (!·.isSuccess) ∧
              (finishOf outcomes).error =
                some (.unfinished (outcomes.countP (!·.isSuccess)) request.tasks.length))) ∧
    let deploy : Program ι Finish := p.surroundings.deploy request
    match (p.surroundings : Surroundings (Program ι) ι).prepared request.plan with
    | .error e => deploy.play w past = (some { error := some e }, past) ∧ e.code ≠ 0
    | .ok (config, plan) => config.validate = .ok () ∧ ∃ note, calls [note] = [] ∧
        deploy.play w past =
          (p.surroundings.deployWith request config plan).play w (past ++ [note]) := by
  refine ⟨fun config plan => ?_, p.play_deploy request w past⟩
  obtain ⟨t, ht, hdoes, -⟩ :=
    does_play w (p.surroundings.deployWith request config plan : Program ι Finish) past
  refine ⟨t, ht, ?_⟩
  rw [p.does_deployWith request config plan] at hdoes
  cases hjobs : p.jobs request config plan with
  | error e =>
    rw [hjobs] at hdoes
    exact ⟨hdoes.1, hdoes.2, Error.code_ne_zero _⟩
  | ok jobs =>
    rw [hjobs] at hdoes
    obtain ⟨_, hbatch, hrun⟩ := hdoes
    obtain ⟨shifts, outcomes, rfl, hledger⟩ := Deployer.ledger_of_does_runBatch hbatch
    obtain ⟨project, holder, hyields⟩ := Task.yields_of_jobsOf hjobs
    have hvalid : ∀ job ∈ jobs, job.validate = .ok () := by
      intro job hjob
      obtain ⟨name, -, hyield⟩ := exists_mem_zip hyields.flip hjob
      exact Task.Yields.validate hyield
    have htotal : outcomes.length = request.tasks.length :=
      hledger.length_outcomes.trans hyields.length_eq.symm
    refine ⟨⟨project, holder, hyields⟩, shifts, outcomes, hledger, hrun, ?_, fun hcode => ?_⟩
    · rw [finishOf_code_eq_zero_iff]
      exact hledger.all_success_iff hvalid
    · rw [← htotal]
      exact finishOf_of_code_ne_zero hcode

end Rollout.CommandLine
