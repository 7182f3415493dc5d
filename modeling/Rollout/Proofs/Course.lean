import Rollout.Deploy
import Rollout.Proofs.Interleaving

/-!
The course of a job. Its steps are carried out in order, one remote call for each, and the first one
that fails is the last one that is tried.
-/

namespace Rollout

variable {ι : Type}

structure Deployer.Settings where
  files : FileSystem
  operator : Operator
  lockout : Lockout := {}
  polling : Polling := {}
  stopReason : List (Nat × Job) → String := fun _ => ""

def Deployer.Settings.deployer (s : Deployer.Settings) : Deployer (Program ι) ι where
  transport := Program.transport
  files := s.files
  operator := s.operator
  lockout := s.lockout
  polling := s.polling
  stopReason := s.stopReason

open Program

variable {cs : List (Exchange ι)}

namespace Connection

variable {c : Connection ι}

theorem does_execute {command : String} {o : Option (Except Error CommandResult)} :
    (c.execute transport command).Does cs o ↔
      ∃ r, cs = [⟨.exec c.polling c.session command, r⟩] ∧
        o = r.map (·.mapError (.commandFailed (toString c.target) command)) := by
  rw [execute, Stage.info, does_note_bind]
  refine does_call_bind.trans (exists_congr fun r => ?_)
  rcases r with _ | _ | _
  · simp [calls_cons, Ask.isCall]
  · simp [calls_cons, Ask.isCall, Except.mapError]
  · simp [calls_cons, Ask.isCall, Except.mapError, Stage.debugWith, does_note_bind]

theorem does_upload {source : Path} {destination : String} {o : Option (Except Error Nat)} :
    (c.upload transport source destination).Does cs o ↔
      ∃ r, cs = [⟨.upload c.session source destination, r⟩] ∧
        o = r.map (·.mapError (.transferFailed (toString c.target) source.text destination)) := by
  rw [upload, Stage.info, does_note_bind]
  refine does_call_bind.trans (exists_congr fun r => ?_)
  rcases r with _ | _ | _
  · simp [calls_cons, Ask.isCall]
  · simp [calls_cons, Ask.isCall, Except.mapError]
  · simp [calls_cons, Ask.isCall, Except.mapError, Stage.debugWith, does_note_bind]

end Connection

def Lock.Request.judge (request : Lock.Request) :
    Except Connection.Error CommandResult → Except Lockout.Error Unit
  | .error e => .error (.connection e)
  | .ok result =>
    if result.exitCode = 0 then .ok ()
    else .error (.busy request.domain request.shard result.exitCode)

theorem Lockout.does_acquire {l : Lockout} {c : Connection ι} {request : Lock.Request}
    {o : Option (Except Error Unit)} :
    (l.acquire transport c request).Does cs o ↔
      ∃ r, cs = [⟨.exec c.polling c.session (l.commandFor request), r⟩] ∧
        o = (r.map (·.mapError (.commandFailed (toString c.target) (l.commandFor request)))).map
          request.judge := by
  refine does_bind_of_call Connection.does_execute fun {b} _ _ => ?_
  rcases b with _ | result
  · exact does_pure
  · by_cases h : result.exitCode = 0
    · simp [CommandResult.isSuccess, Lock.Request.judge, h, Stage.infoWith, does_note_bind]
    · simp [CommandResult.isSuccess, Lock.Request.judge, h, Stage.warnWith, does_note_bind]

namespace Step

def order (l : Lockout) (c : Connection ι) : Step → Ask ι
  | .lockCheck request => .exec c.polling c.session (l.commandFor request)
  | .clean _ command => .exec c.polling c.session command
  | .transfer source destination => .upload c.session source destination
  | .relink _ command => .exec c.polling c.session command

/-- What the answer to a step means for its job: the bytes it uploaded, or the error that ends the
job; nothing when no answer came. -/
def verdict (l : Lockout) (c : Connection ι) (job : Job) :
    (step : Step) → (step.order l c).Reply → Option (Except DeployError Nat)
  | .lockCheck request, r => r.map fun
    | .error failure =>
      .error (.connection (.commandFailed (toString c.target) (l.commandFor request) failure))
    | .ok result =>
      if result.exitCode = 0 then .ok 0
      else .error (.lockBusy job.name request.domain request.shard result.exitCode)
  | .clean _ command, r => r.map fun
    | .error failure => .error (.connection (.commandFailed (toString c.target) command failure))
    | .ok _ => .ok 0
  | .transfer source destination, r => r.map fun
    | .error failure =>
      .error (.connection (.transferFailed (toString c.target) source.text destination failure))
    | .ok bytes => .ok bytes
  | .relink directory command, r => r.map fun
    | .error failure => .error (.connection (.commandFailed (toString c.target) command failure))
    | .ok result =>
      if result.exitCode = 0 then .ok 0
      else .error (.relinkFailed directory (job.mode.base ++ ".jar") result.exitCode
        (Text.trim result.stderrText))

end Step

variable {s : Deployer.Settings} {c : Connection ι} {job : Job}

def Job.lockFailure (job : Job) : Lockout.Error → DeployError
  | .busy domain shard exitCode => .lockBusy job.name domain shard exitCode
  | .connection e => .connection e

def Job.relinked (job : Job) (directory : String) :
    Except Connection.Error CommandResult → Except DeployError Nat
  | .error e => .error (.connection e)
  | .ok result =>
    if result.exitCode = 0 then .ok 0
    else .error (.relinkFailed directory (job.mode.base ++ ".jar") result.exitCode
      (Text.trim result.stderrText))

theorem Deployer.does_perform {step : Step} {o : Option (Except DeployError Nat)} :
    (s.deployer.perform c job step).Does cs o ↔
      ∃ r, cs = [⟨step.order s.lockout c, r⟩] ∧ o = step.verdict s.lockout c job r := by
  cases step with
  | lockCheck request =>
    refine (does_bind_of_call (g := fun r => (r.map fun _ => 0).mapError job.lockFailure)
      Lockout.does_acquire fun {b} _ _ => ?_).trans ?_
    · rcases b with (_ | _) | _ <;> exact does_pure
    · refine exists_congr fun r => and_congr_right fun _ => ?_
      rcases r with _ | _ | result
      · rfl
      · rfl
      · by_cases h : result.exitCode = 0 <;>
          simp [Except.mapError, Except.map, Lock.Request.judge, Step.verdict, Job.lockFailure, h]
  | clean directory command =>
    refine (does_bind_of_call (g := fun r => (r.map fun _ => 0).mapError .connection)
      Connection.does_execute fun {b} _ _ => ?_).trans ?_
    · rcases b with _ | result
      · exact does_pure
      · by_cases h : result.isSuccess <;>
          simp [h, Stage.warnWith, does_note_bind, Except.map, Except.mapError]
    · refine exists_congr fun r => and_congr_right fun _ => ?_
      rcases r with _ | _ | _ <;> rfl
  | transfer source destination =>
    refine (does_bind_of_call Connection.does_upload does_pure).trans ?_
    refine exists_congr fun r => and_congr_right fun _ => ?_
    rcases r with _ | _ | _ <;> rfl
  | relink directory command =>
    refine (does_bind_of_call (g := job.relinked directory) Connection.does_execute
      fun {b} _ _ => ?_).trans ?_
    · rcases b with _ | result
      · exact does_pure
      · by_cases h : result.exitCode = 0 <;> simp [CommandResult.isSuccess, Job.relinked, h]
    · refine exists_congr fun r => and_congr_right fun _ => ?_
      rcases r with _ | _ | _ <;> rfl

def addBytes (bytes : Nat) (o : Option (Except DeployError Nat)) : Option (Except DeployError Nat) :=
  o.map (·.map (bytes + ·))

def Report.extend (report : Report) (steps : List Step) (bytes : Nat) : Report :=
  { report with steps := report.steps ++ steps, bytesUploaded := report.bytesUploaded + bytes }

theorem Report.extend_nil (report : Report) : report.extend [] 0 = report := by
  simp [extend]

theorem Report.extend_add (report : Report) (step : Step) (rest : List Step) (n bytes : Nat) :
    (report.add step n).extend rest bytes = report.extend (step :: rest) (n + bytes) := by
  simp [extend, add, Nat.add_assoc]

theorem Report.map_extend_add (report : Report) (step : Step) (rest : List Step) (n : Nat)
    (o : Option (Except DeployError Nat)) :
    o.map (·.map ((report.add step n).extend rest)) =
      (addBytes n o).map (·.map (report.extend (step :: rest))) := by
  rcases o with _ | _ | bytes
  · rfl
  · rfl
  · exact congrArg (some ∘ Except.ok) (report.extend_add step rest n bytes)

/-- What carrying out steps in order asks of the remote host, and what it comes to: the bytes
uploaded, or the failure of the last step that was tried. -/
inductive Course (l : Lockout) (c : Connection ι) (job : Job) :
    List Step → List (Exchange ι) → Option (Except DeployError Nat) → Prop
  | done : Course l c job [] [] (some (.ok 0))
  | pass {step r n rest cs o} : step.verdict l c job r = some (.ok n) → Course l c job rest cs o →
      Course l c job (step :: rest) (⟨step.order l c, r⟩ :: cs) (addBytes n o)
  | fail {step r e rest} : step.verdict l c job r = some (.error e) →
      Course l c job (step :: rest) [⟨step.order l c, r⟩] (some (.error e))
  | lost {step r rest} : step.verdict l c job r = none →
      Course l c job (step :: rest) [⟨step.order l c, r⟩] none

theorem Deployer.does_performAll {steps : List Step} {report : Report}
    {o : Option (Except DeployError Report)} :
    (s.deployer.performAll c job report steps).Does cs o ↔
      ∃ r, Course s.lockout c job steps cs r ∧ o = r.map (·.map (report.extend steps)) := by
  induction steps generalizing report cs o with
  | nil =>
    rw [performAll, does_pure]
    constructor
    · rintro ⟨rfl, rfl⟩
      exact ⟨_, .done, by simp [Except.map, Report.extend_nil]⟩
    · rintro ⟨_, ⟨⟩, rfl⟩
      exact ⟨rfl, by simp [Except.map, Report.extend_nil]⟩
  | cons step rest ih =>
    rw [performAll, Stage.infoWith, does_note_bind, does_bind]
    simp only [does_perform]
    -- the step comes to something, an error or bytes, or its worker stops
    constructor
    · rintro (⟨_, a, u, rfl, ⟨r, rfl, hr⟩, hu⟩ | ⟨⟨r, rfl, hr⟩, rfl⟩)
      · cases a with
        | error e =>
          obtain ⟨rfl, rfl⟩ := does_pure.mp hu
          exact ⟨_, .fail hr.symm, rfl⟩
        | ok n =>
          obtain ⟨x, hx, rfl⟩ := ih.mp hu
          exact ⟨_, .pass hr.symm hx, report.map_extend_add ..⟩
      · exact ⟨none, .lost hr.symm, rfl⟩
    · rintro ⟨_, hcourse, rfl⟩
      cases hcourse with
      | pass hr hx =>
        exact .inl ⟨_, _, _, rfl, ⟨_, rfl, hr.symm⟩, ih.mpr ⟨_, hx, (report.map_extend_add ..).symm⟩⟩
      | fail hr => exact .inl ⟨_, _, [], rfl, ⟨_, rfl, hr.symm⟩, does_pure.mpr ⟨rfl, rfl⟩⟩
      | lost hr => exact .inr ⟨⟨_, rfl, hr.symm⟩, rfl⟩

def Job.report (job : Job) (bytes : Nat) : Report := (Report.start job).extend job.steps bytes

theorem Deployer.does_runOn {o : Option (Except DeployError Report)} (h : job.validate = .ok ()) :
    (s.deployer.runOn c job).Does cs o ↔
      ∃ r, Course s.lockout c job job.steps cs r ∧ o = r.map (·.map job.report) := by
  simp only [runOn, h, Stage.infoWith, does_note_bind]
  refine (does_bind_quiet (g := id) fun {a} _ _ => ?_).trans ?_
  · cases a with
    | error e => exact does_pure
    | ok report => exact does_note_bind.trans does_pure
  · simp only [does_performAll, Option.map_id_fun, id_eq, exists_eq_right']
    rfl

abbrev Attempt (l : Lockout) (c : Connection ι) := (step : Step) × (step.order l c).Reply

namespace Attempt

variable {l : Lockout}

def exchange (a : Attempt l c) : Exchange ι := ⟨a.1.order l c, a.2⟩

def verdict (a : Attempt l c) (job : Job) : Option (Except DeployError Nat) :=
  a.1.verdict l c job a.2

def uploaded : Attempt l c → Nat
  | ⟨.transfer .., some (.ok bytes)⟩ => bytes
  | _ => 0

def total (as : List (Attempt l c)) : Nat := as.foldr (fun a bytes => a.uploaded + bytes) 0

theorem total_cons (a : Attempt l c) (as : List (Attempt l c)) :
    total (a :: as) = a.uploaded + total as :=
  rfl

theorem uploaded_of_passed {a : Attempt l c} {n : Nat} (h : a.verdict job = some (.ok n)) :
    a.uploaded = n := by
  obtain ⟨step, r⟩ := a
  cases step with
  | lockCheck request =>
    rcases r with _ | _ | result
    · cases h
    · cases h
    · by_cases hexit : result.exitCode = 0
      · simp only [verdict, Step.verdict, Option.map_some, if_pos hexit] at h
        cases h
        rfl
      · simp [verdict, Step.verdict, hexit] at h
  | clean directory command =>
    rcases r with _ | _ | result <;> cases h
    rfl
  | transfer source destination =>
    rcases r with _ | _ | bytes <;> cases h
    rfl
  | relink directory command =>
    rcases r with _ | _ | result
    · cases h
    · cases h
    · by_cases hexit : result.exitCode = 0
      · simp only [verdict, Step.verdict, Option.map_some, if_pos hexit] at h
        cases h
        rfl
      · simp [verdict, Step.verdict, hexit] at h

end Attempt

theorem Course.split {l : Lockout} {steps : List Step} {o : Option (Except DeployError Nat)}
    (h : Course l c job steps cs o) :
    ∃ passed : List (Attempt l c), (∀ a ∈ passed, ∃ n, a.verdict job = some (.ok n)) ∧
      ((passed.map (·.1) = steps ∧ cs = passed.map Attempt.exchange ∧
          o = some (.ok (Attempt.total passed))) ∨
        ∃ (last : Attempt l c) (rest : List Step),
          passed.map (·.1) ++ last.1 :: rest = steps ∧
          cs = passed.map Attempt.exchange ++ [last.exchange] ∧
          (o = none ∧ last.verdict job = none ∨
            ∃ e, o = some (.error e) ∧ last.verdict job = some (.error e))) := by
  induction h with
  | done => exact ⟨[], by simp, .inl ⟨rfl, rfl, rfl⟩⟩
  | @pass step r n rest cs o hr _ ih =>
    obtain ⟨passed, hpassed, ⟨rfl, rfl, rfl⟩ | ⟨last, rest, rfl, rfl, ho⟩⟩ := ih
    · refine ⟨⟨step, r⟩ :: passed, ?_, .inl ⟨rfl, rfl, ?_⟩⟩
      · exact List.forall_mem_cons.mpr ⟨⟨n, hr⟩, hpassed⟩
      · have hn : Attempt.uploaded ⟨step, r⟩ = n := Attempt.uploaded_of_passed hr
        rw [Attempt.total_cons, hn]
        rfl
    · refine ⟨⟨step, r⟩ :: passed, ?_, .inr ⟨last, rest, rfl, rfl, ?_⟩⟩
      · exact List.forall_mem_cons.mpr ⟨⟨n, hr⟩, hpassed⟩
      · obtain ⟨rfl, hlast⟩ | ⟨e, rfl, hlast⟩ := ho
        · exact .inl ⟨rfl, hlast⟩
        · exact .inr ⟨e, rfl, hlast⟩
  | @fail step r e rest hr => exact ⟨[], by simp, .inr ⟨⟨step, r⟩, rest, rfl, rfl, .inr ⟨e, rfl, hr⟩⟩⟩
  | @lost step r rest hr => exact ⟨[], by simp, .inr ⟨⟨step, r⟩, rest, rfl, rfl, .inl ⟨rfl, hr⟩⟩⟩

/-- In any world, a job makes the calls of its steps in order, up to the first one that fails, and
ends with the failure of that step; an invalid job makes no call. -/
theorem Deployer.runOn_first_failure (s : Settings) (w : World ι) (past : List (Exchange ι))
    (c : Connection ι) (job : Job) :
    let run := (s.deployer.runOn c job).play w past
    match job.validate with
    | .error e => run = (some (.error (.invalidJob e)), past)
    | .ok () => ∃ (t : List (Exchange ι)) (passed : List (Attempt s.lockout c)),
      run.2 = past ++ t ∧ (∀ a ∈ passed, ∃ n, a.verdict job = some (.ok n)) ∧
        ((passed.map (·.1) = job.steps ∧ calls t = passed.map Attempt.exchange ∧
            run.1 = some (.ok ⟨job.name, toString job.target, job.steps,
              Attempt.total passed⟩)) ∨
          ∃ (last : Attempt s.lockout c) (rest : List Step),
            passed.map (·.1) ++ last.1 :: rest = job.steps ∧
            calls t = passed.map Attempt.exchange ++ [last.exchange] ∧
            (last.verdict job = none ∧ run.1 = none ∨
              ∃ e, last.verdict job = some (.error e) ∧ run.1 = some (.error e))) := by
  cases h : job.validate with
  | error e =>
    rw [runOn, h]
    rfl
  | ok _ =>
    obtain ⟨t, ht, hdoes, -⟩ := does_play w (s.deployer.runOn c job) past
    obtain ⟨o, hcourse, ho⟩ := (does_runOn h).mp hdoes
    obtain ⟨passed, hpassed, ⟨hsteps, hcalls, rfl⟩ | ⟨last, rest, hsteps, hcalls, hlast⟩⟩ :=
      hcourse.split
    · refine ⟨t, passed, ht, hpassed, .inl ⟨hsteps, hcalls, ho.trans ?_⟩⟩
      simp [Except.map, Job.report, Report.start, Report.extend]
    · refine ⟨t, passed, ht, hpassed, .inr ⟨last, rest, hsteps, hcalls, ?_⟩⟩
      obtain ⟨rfl, hv⟩ | ⟨e, rfl, hv⟩ := hlast
      · exact .inl ⟨hv, ho⟩
      · exact .inr ⟨e, hv, ho⟩

end Rollout
