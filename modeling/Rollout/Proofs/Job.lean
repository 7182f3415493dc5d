import Mathlib.Tactic.SplitIfs
import Rollout.Job

/-!
What is known of a valid job, and the steps it consists of: in each directory there is an upload and a
step that does the rest.
-/

namespace Rollout

theorem ne_empty_of_not_isVoid {s : String} (h : Text.isVoid s = false) : s ≠ "" := by
  rintro rfl
  cases h

namespace Job

variable {job : Job}

structure Sound (job : Job) : Prop where
  paths : ∀ path ∈ job.remotePaths, path ≠ ""
  base : job.mode.base ≠ ""
  unshadowed : job.linkShadowsArtifact = false

theorem flaw?_of_validate (h : job.validate = .ok ()) : job.flaw? = none := by
  rw [validate] at h
  split at h
  · cases h
  · assumption

theorem sound_of_validate (h : job.validate = .ok ()) : job.Sound := by
  have hflaw := flaw?_of_validate h
  rw [flaw?] at hflaw
  split_ifs at hflaw with hname hnone hpaths hversion hfile hbase hlink
  refine ⟨fun path hpath => ?_, ne_empty_of_not_isVoid (Bool.eq_false_iff.mpr hbase),
    Bool.eq_false_iff.mpr hlink⟩
  apply ne_empty_of_not_isVoid
  rw [Bool.eq_false_iff]
  exact fun hvoid => hpaths (List.any_eq_true.mpr ⟨path, hpath, hvoid⟩)

theorem remotePaths_ne_nil_of_validate (h : job.validate = .ok ()) : job.remotePaths ≠ [] := by
  have hflaw := flaw?_of_validate h
  rw [flaw?] at hflaw
  split_ifs at hflaw with _ hnone
  simpa using hnone

theorem exists_fileName_of_validate (h : job.validate = .ok ()) :
    ∃ file, job.artifact.fileName = some file := by
  have hflaw := flaw?_of_validate h
  rw [flaw?] at hflaw
  split_ifs at hflaw with _ _ _ _ hnameless
  exact Option.ne_none_iff_exists'.mp (by simpa using hnameless)

def versioned (job : Job) (base : String) : String :=
  base ++ "-" ++ job.artifact.version ++ ".jar"

/-- The name that the archive is uploaded under. -/
def delivered (job : Job) : String :=
  match job.mode with
  | .overwrite base => job.versioned base
  | .symlinkSwap _ => job.artifact.fileName.getD ""

def upload (job : Job) (dir : String) : Step :=
  .transfer job.artifact.path (Shell.Command.joinRemote dir job.delivered)

/-- The step that does the rest in a directory. -/
def adjust (job : Job) (dir : String) : Step :=
  match job.mode with
  | .overwrite base => .clean dir (Shell.Command.clean dir base)
  | .symlinkSwap link =>
    .relink dir (Shell.Command.relink dir link (job.artifact.fileName.getD ""))

theorem upload_of_overwrite {base : String} (hmode : job.mode = .overwrite base) :
    job.upload = fun dir => .transfer job.artifact.path
      (Shell.Command.joinRemote dir (job.versioned base)) := by
  unfold upload delivered
  rw [hmode]

theorem adjust_of_overwrite {base : String} (hmode : job.mode = .overwrite base) :
    job.adjust = fun dir => .clean dir (Shell.Command.clean dir base) := by
  unfold adjust
  rw [hmode]

theorem upload_of_swap {link archive : String} (hmode : job.mode = .symlinkSwap link)
    (hfile : job.artifact.fileName = some archive) :
    job.upload = fun dir => .transfer job.artifact.path (Shell.Command.joinRemote dir archive) := by
  unfold upload delivered
  rw [hmode, hfile]
  rfl

theorem adjust_of_swap {link archive : String} (hmode : job.mode = .symlinkSwap link)
    (hfile : job.artifact.fileName = some archive) :
    job.adjust = fun dir => .relink dir (Shell.Command.relink dir link archive) := by
  unfold adjust
  rw [hmode, hfile]
  rfl

theorem steps_of_overwrite {base : String} (hmode : job.mode = .overwrite base) :
    job.steps = (job.lock.map Step.lockCheck).toList ++
      (job.remotePaths.map job.adjust ++ job.remotePaths.map job.upload) := by
  unfold steps adjust upload delivered
  rw [hmode]
  rfl

theorem steps_of_swap {link : String} (hmode : job.mode = .symlinkSwap link) :
    job.steps = (job.lock.map Step.lockCheck).toList ++
      (job.remotePaths.map job.upload ++ job.remotePaths.map job.adjust) := by
  unfold steps adjust upload delivered
  rw [hmode]

theorem mem_steps {step : Step} :
    step ∈ job.steps ↔ (∃ request, job.lock = some request ∧ .lockCheck request = step) ∨
      ∃ dir ∈ job.remotePaths, job.upload dir = step ∨ job.adjust dir = step := by
  cases hmode : job.mode with
  | overwrite base =>
    rw [steps_of_overwrite hmode]
    simp [and_or_left, exists_or, or_comm]
  | symlinkSwap link =>
    rw [steps_of_swap hmode]
    simp [and_or_left, exists_or]

theorem transfer_mem_steps {source : Path} {destination : String} :
    .transfer source destination ∈ job.steps ↔ source = job.artifact.path ∧
      ∃ dir ∈ job.remotePaths, destination = Shell.Command.joinRemote dir job.delivered := by
  have hadjust (dir : String) : job.adjust dir ≠ .transfer source destination := by
    rw [adjust]
    cases job.mode <;> simp
  rw [mem_steps]
  constructor
  · rintro (⟨request, -, hstep⟩ | ⟨dir, hdir, hstep | hstep⟩)
    · cases hstep
    · cases hstep
      exact ⟨rfl, dir, hdir, rfl⟩
    · exact absurd hstep (hadjust dir)
  · rintro ⟨rfl, dir, hdir, rfl⟩
    exact .inr ⟨dir, hdir, .inl rfl⟩

end Job

end Rollout
