import Rollout.Proofs.Job
import Rollout.Proofs.Shift

/-!
Host keys that ought to be checked. A target whose policy asks for that is refused when a connection
to it is opened, and only then: a job that finds the session of its group already open never gets
that far.
-/

namespace Rollout

open Program

variable {ι : Type} {cs : List (Exchange ι)} {job : Job}

theorem Job.steps_ne_nil (h : job.validate = .ok ()) : job.steps ≠ [] := by
  obtain ⟨dir, hdir⟩ := List.exists_mem_of_ne_nil _ (remotePaths_ne_nil_of_validate h)
  exact List.ne_nil_of_mem (mem_steps.mpr (.inr ⟨dir, hdir, .inl rfl⟩))

theorem Course.calls_ne_nil {l : Lockout} {c : Connection ι} {steps : List Step}
    {o : Option (Except DeployError Nat)} (h : Course l c job steps cs o) (hsteps : steps ≠ []) :
    cs ≠ [] := by
  cases h with
  | done => exact absurd rfl hsteps
  | _ => simp

namespace Target

def refusal (t : Target) : DeployError :=
  .connection (.unsupportedHostKeyPolicy (toString t) t.hostKeyPolicy.label)

end Target

variable {s : Deployer.Settings}

theorem Deployer.does_connect_of_verified (h : job.target.hostKeyPolicy ≠ .allowAny)
    {o : Option (Except DeployError (Connection ι))} :
    (s.deployer.connect job).Does cs o ↔ cs = [] ∧ o = some (.error job.target.refusal) := by
  rw [does_connect, Connection.vet, if_neg h]
  rfl

theorem Shares.refused_iff {slot : Option (Connection ι)}
    {o : Option (Except DeployError Report × Option (Connection ι))} (h : Shares s slot job cs o)
    (hvalid : job.validate = .ok ()) (hpolicy : job.target.hostKeyPolicy ≠ .allowAny) :
    (cs = [] ∧ o.map (·.1) = some (.error job.target.refusal)) ↔ slot = none := by
  cases h with
  | invalid he => simp [hvalid] at he
  | refused _ hslot hopen =>
    obtain ⟨rfl, he⟩ := (Deployer.does_connect_of_verified hpolicy).mp hopen
    obtain he : DeployError.connection _ = job.target.refusal := by simpa using he
    exact iff_of_true ⟨rfl, by rw [he]; rfl⟩ hslot
  | adrift _ _ hopen => cases ((Deployer.does_connect_of_verified hpolicy).mp hopen).2
  | opened _ _ hopen => cases ((Deployer.does_connect_of_verified hpolicy).mp hopen).2
  | reused _ hslot hrun =>
    obtain ⟨r, hcourse, -⟩ := (Deployer.does_runOn hvalid).mp hrun
    simp [hslot, hcourse.calls_ne_nil (Job.steps_ne_nil hvalid)]

/-- In any world, a valid job whose host key ought to be checked is refused without a call just when
its turn comes and no session is held: none of the jobs of its key before it was valid, or the last
valid one lost its connection or got none. A stopped worker is the one other way for it to fail. -/
theorem Deployer.runBatch_refused_iff (s : Settings) (w : World ι) (jobs : List Job) :
    ∃ shifts outcomes t, (s.deployer.runBatch jobs).play w [] = (some outcomes, t) ∧
      Ledger s jobs shifts (calls t) outcomes ∧
      ∀ i job, jobs[i]? = some job → job.validate = .ok () →
        job.target.hostKeyPolicy ≠ .allowAny → ∃ group ∈ Batch.groups jobs, ∃ turns ∈ shifts,
          ((∃ t ∈ turns, t.result = none) ∧
            outcomes[i]? = some ⟨job.name, .error (.workerStopped job.name (s.stopReason group))⟩) ∨
          ∃ earlier turn later, turns = earlier ++ turn :: later ∧ turn.entry = (i, job) ∧
            earlier.map Turn.entry =
              (Batch.number (jobs.take i)).filter (·.2.target.key = job.target.key) ∧
            (turn.calls = [] ∧ outcomes[i]? = some ⟨job.name, .error job.target.refusal⟩ ↔
              ∀ last ∈ (earlier.filter Turn.isValid).getLast?, last.broke) := by
  obtain ⟨t, ht, hdoes, -⟩ := does_play w (s.deployer.runBatch jobs) []
  obtain ⟨shifts, outcomes, ho, hledger⟩ := ledger_of_does_runBatch hdoes
  refine ⟨shifts, outcomes, t, Prod.ext ho ht, hledger, fun i job hi hvalid hpolicy => ?_⟩
  obtain ⟨group, hgroup, turns, hturns, hshift, hcases⟩ := hledger.outcome_cases hi
  refine ⟨group, hgroup, turns, hturns, ?_⟩
  obtain hstopped | ⟨earlier, turn, later, result, rfl, hearlier, hentry, hresult, hout⟩ := hcases
  · exact .inl hstopped
  · refine .inr ⟨earlier, turn, later, rfl, hentry, hearlier, ?_⟩
    obtain ⟨o, hshares, ho⟩ := hshift.shares
    rw [hentry] at hshares
    have hout' : outcomes[i]? = some ⟨job.name, .error job.target.refusal⟩ ↔
        o.map (·.1) = some (.error job.target.refusal) := by
      rw [hout, ← ho, hresult]
      simp
    have hfound : turn.found = none ↔
        ∀ last ∈ (earlier.filter Turn.isValid).getLast?, last.broke := by
      rw [← Option.isSome_eq_false_iff.trans Option.isNone_iff_eq_none, hshift.found_isSome]
      cases (earlier.filter Turn.isValid).getLast? <;> simp
    rw [hout', hshares.refused_iff hvalid hpolicy, hfound]

def Job.underPolicy (name : String) (policy : HostKeyPolicy) : Job where
  name
  target :=
    { name := "basicssh", host := "shards.example.net", port := 8822, user := some "epic",
      hostKeyPolicy := policy }
  credentials := ⟨[⟨.platformAgent, false⟩]⟩
  artifact := ⟨⟨"build/libs/plugin-1.0.jar"⟩, "1.0"⟩
  remotePaths := ["/a", "/b"]
  mode := .overwrite "plugin"
  lock := none

/-- The host key ought to be checked, and the job is run all the same. -/
theorem Deployer.runBatch_strict_after_allowAny :
    let s : Settings := { files := {}, operator := { hasPlatformAgent := true } }
    let strict := Job.underPolicy "dev2" (.strict ⟨"k"⟩)
    let run := (s.deployer.runBatch [Job.underPolicy "dev1" .allowAny, strict]).play World.obliging []
    strict.validate = .ok () ∧ ∃ outcomes report, run.1 = some outcomes ∧
      outcomes[1]? = some ⟨"dev2", .ok report⟩ ∧ (calls run.2).length = 9 :=
  ⟨by decide, _, _, rfl, rfl, rfl⟩

end Rollout
