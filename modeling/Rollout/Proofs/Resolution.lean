import Rollout.Proofs.Except
import Rollout.Proofs.Interleaving
import Rollout.Task

/-!
Tasks resolved without asking any remote host. All names are looked up before a project name is
wanted, that before a holder, and that before any job is put together.
-/

namespace Rollout

open Program

variable {ι : Type} {cs : List (Exchange ι)}

abbrev LocalCommand.Answers := String → List String → Except Fault Output

def LocalCommand.Answers.runner (answers : Answers) : Runner (Program ι) where
  run program args := .done (answers program args)

def Operator.holder (o : Operator) (answers : LocalCommand.Answers) : Except HolderFault String :=
  o.holderName (m := Id) ⟨answers⟩

theorem Operator.does_holderName {o : Operator} {answers : LocalCommand.Answers}
    {r : Option (Except HolderFault String)} :
    (o.holderName answers.runner : Program ι _).Does cs r ↔
      cs = [] ∧ r = some (o.holder answers) := by
  rw [holder, holderName, holderName]
  cases o.lockoutName with
  | some name => exact does_pure
  | none =>
    refine (does_bind_of_quiet does_done).trans ?_
    dsimp only [Bind.bind]
    cases answers "git" ["config", "user.name"] with
    | error fault => exact does_pure
    | ok output => exact does_pure

theorem Job.validate_of_build {d : Draft} {job : Job} (h : d.build = .ok job) :
    job.validate = .ok () := by
  rw [Draft.build] at h
  split at h
  · cases h
  · cases h
  · cases h
  · obtain ⟨_, hvalid, rfl⟩ := ok_of_map h
    exact hvalid

namespace Task

variable {plan : Plan} {project holder : String} {inputs : Inputs} {operator : Operator}
  {answers : LocalCommand.Answers} {tasks : List (Task × Plan.Destination)}

def holderOf (tasks : List (Task × Plan.Destination)) (operator : Operator)
    (answers : LocalCommand.Answers) : Except Error String :=
  if tasks.any fun (t, d) => t.claims d then (operator.holder answers).mapError .holder else .ok ""

def jobOf (plan : Plan) (project holder : String) (inputs : Inputs) :
    Task × Plan.Destination → Except Error Job
  | (t, d) =>
    match plan.remote? d.remote with
    | none => .error (.missingRemote d.name d.remote)
    | some remote => (t.draft d remote project holder inputs).build.mapError .job

def jobsOf (plan : Plan) (names : List String) (inputs : Inputs) (operator : Operator)
    (answers : LocalCommand.Answers) : Except Error (List Job) := do
  let tasks ← names.mapM (find plan)
  let project ← inputs.project
  let holder ← holderOf tasks operator answers
  tasks.mapM (jobOf plan project holder inputs)

theorem does_holderFor {o : Option (Except Error String)} :
    (holderFor tasks operator answers.runner : Program ι _).Does cs o ↔
      cs = [] ∧ o = some (holderOf tasks operator answers) := by
  rw [holderFor, holderOf]
  split
  · exact (does_bind_of_quiet Operator.does_holderName).trans does_pure
  · exact does_pure

theorem does_build {o : Option (Except Error (List Job))} :
    (build plan project holder inputs tasks : Program ι _).Does cs o ↔
      cs = [] ∧ o = some (tasks.mapM (jobOf plan project holder inputs)) := by
  induction tasks generalizing cs o with
  | nil => exact does_pure
  | cons found rest ih =>
    obtain ⟨t, d⟩ := found
    rw [build, List.mapM_cons]
    cases hremote : plan.remote? d.remote with
    | none =>
      have hjob : jobOf plan project holder inputs (t, d) = .error (.missingRemote d.name d.remote) := by
        rw [jobOf, hremote]
      rw [hjob]
      exact does_pure
    | some remote =>
      refine does_note_bind.trans ?_
      have hjob : jobOf plan project holder inputs (t, d) =
          (t.draft d remote project holder inputs).build.mapError .job := by
        rw [jobOf, hremote]
      rw [hjob]
      cases (t.draft d remote project holder inputs).build with
      | error e => exact does_pure
      | ok job =>
        refine (does_bind_of_quiet ih).trans (does_pure.trans ?_)
        cases rest.mapM (jobOf plan project holder inputs) <;> rfl

theorem does_resolve {names : List String} {o : Option (Except Error (List Job))} :
    (resolve plan names inputs operator answers.runner : Program ι _).Does cs o ↔
      cs = [] ∧ o = some (jobsOf plan names inputs operator answers) := by
  rw [resolve, jobsOf]
  cases names.mapM (find plan) with
  | error e => exact does_pure
  | ok tasks =>
    cases inputs.project with
    | error e => exact does_pure
    | ok project =>
      refine (does_bind_of_quiet does_holderFor).trans ?_
      dsimp only [Bind.bind, Except.bind]
      cases holderOf tasks operator answers with
      | error e => exact does_pure
      | ok holder => exact does_build

def Yields (plan : Plan) (project holder : String) (inputs : Inputs) (name : String) (job : Job) :
    Prop :=
  ∃ found, find plan name = .ok found ∧ jobOf plan project holder inputs found = .ok job

theorem yields_of_jobsOf {names : List String} {jobs : List Job}
    (h : jobsOf plan names inputs operator answers = .ok jobs) :
    ∃ project holder, List.Forall₂ (Yields plan project holder inputs) names jobs := by
  obtain ⟨tasks, hfound, h⟩ := ok_of_bind h
  obtain ⟨project, -, h⟩ := ok_of_bind h
  obtain ⟨holder, -, h⟩ := ok_of_bind h
  exact ⟨project, holder, forall₂_comp (forall₂_of_mapM hfound) (forall₂_of_mapM h)⟩

theorem Yields.validate {name : String} {job : Job} (h : Yields plan project holder inputs name job) :
    job.validate = .ok () := by
  obtain ⟨⟨t, d⟩, -, h⟩ := h
  rw [jobOf] at h
  split at h
  · cases h
  · exact Job.validate_of_build (ok_of_mapError h)

end Task

end Rollout
