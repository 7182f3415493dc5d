import Rollout.Proofs.Shift
import Rollout.Proofs.Steady

/-!
Jobs that leave one another alone. Among hosts that answer the same request in the same way, a job in
a batch comes to what it comes to by itself, and orders the same things on the way. The session that
it shares makes no difference: at every turn it is a session that the job could have opened.
-/

namespace Rollout

open Program

variable {ι : Type}

section Turns

variable {h : Steady ι} {s : Deployer.Settings} {job job' : Job} {slot : Option (Connection ι)}
  {cs cs' : List (Exchange ι)}

def Steady.reach (h : Steady ι) (s : Deployer.Settings) (job : Job) : Except DeployError Unit :=
  match Connection.vet s.files s.operator job.target job.credentials with
  | .error e => .error (.connection e)
  | .ok request =>
    (h.opens request).mapError fun failure =>
      .connection (.connectionFailed (toString job.target) failure)

def Steady.Fits (h : Steady ι) (s : Deployer.Settings) (slot : Option (Connection ι)) (job : Job) :
    Prop :=
  ∀ c ∈ slot, h.At c job.target ∧ h.reach s job = .ok ()

theorem Steady.fits_none : h.Fits s none job := fun _ hc => nomatch hc

theorem Deployer.connect_steady {o : Option (Except DeployError (Connection ι))}
    (hdoes : (s.deployer.connect job).Does cs o) (hcs : ∀ x ∈ cs, h.Gives x) :
    (∀ key, h.recorded key cs = []) ∧
      ((∃ e, h.reach s job = .error e ∧ o = some (.error e)) ∨
        (h.reach s job = .ok () ∧ ∃ c, o = some (.ok c) ∧ h.At c job.target)) := by
  rw [does_connect] at hdoes
  rw [Steady.reach]
  cases hvet : Connection.vet s.files s.operator job.target job.credentials with
  | error e =>
    rw [hvet] at hdoes
    obtain ⟨rfl, rfl⟩ := hdoes
    exact ⟨fun _ => rfl, .inl ⟨_, rfl, rfl⟩⟩
  | ok request =>
    rw [hvet] at hdoes
    obtain ⟨r, rfl, rfl⟩ := hdoes
    obtain ⟨answer, rfl, hanswer⟩ := hcs _ (.head _)
    have htarget := Connection.target_of_vet hvet
    refine ⟨fun _ => rfl, ?_⟩
    cases hopens : h.opens request with
    | error failure =>
      rw [hopens] at hanswer
      cases answer with
      | error failure' =>
        cases hanswer
        refine .inl ⟨.connection (.connectionFailed (toString job.target) failure), ?_, ?_⟩
        · simp [hopens, Except.mapError]
        · simp [Except.mapError, Connection.opened, htarget]
      | ok session => cases hanswer
    | ok u =>
      rw [hopens] at hanswer
      cases answer with
      | error failure => cases hanswer
      | ok session =>
        obtain hsession : h.target session = request.target := by simpa [Except.map] using hanswer
        exact .inr ⟨by simp [hopens, Except.mapError], _, rfl, htarget, hsession.trans htarget⟩

theorem Shares.steady {o : Option (Except DeployError Report × Option (Connection ι))}
    (hshares : Shares s slot job cs o) (hslot : h.Fits s slot job) (hcs : ∀ x ∈ cs, h.Gives x) :
    match job.validate with
    | .error e => o = some (.error (.invalidJob e), slot) ∧ ∀ key, h.recorded key cs = []
    | .ok () => match h.reach s job with
      | .error e => o = some (.error e, none) ∧ ∀ key, h.recorded key cs = []
      | .ok () => ∃ c cs' r, h.At c job.target ∧ Course s.lockout c job job.steps cs' r ∧
        o = r.map (fun r => (r.map job.report, c.left (r.map job.report))) ∧
        (∀ x ∈ cs', h.Gives x) ∧ ∀ key, h.recorded key cs = h.recorded key cs' := by
  cases hshares with
  | invalid hvalid =>
    rw [hvalid]
    exact ⟨rfl, fun _ => rfl⟩
  | refused hvalid _ hopen =>
    obtain ⟨hrec, ⟨e, hreach, ho⟩ | ⟨-, c, ho, -⟩⟩ := Deployer.connect_steady hopen hcs
    · cases ho
      rw [hvalid, hreach]
      exact ⟨rfl, hrec⟩
    · cases ho
  | adrift hvalid _ hopen =>
    obtain ⟨-, ⟨e, -, ho⟩ | ⟨-, c, ho, -⟩⟩ := Deployer.connect_steady hopen hcs
    · cases ho
    · cases ho
  | opened hvalid _ hopen hrun =>
    obtain ⟨hcs, hcs'⟩ := List.forall_mem_append.mp hcs
    obtain ⟨r, hcourse, rfl⟩ := (Deployer.does_runOn hvalid).mp hrun
    obtain ⟨hrec, ⟨e, -, ho⟩ | ⟨hreach, c, ho, hat⟩⟩ := Deployer.connect_steady hopen hcs
    · cases ho
    · cases ho
      rw [hvalid, hreach]
      refine ⟨_, _, r, hat, hcourse, Option.map_map .., hcs', fun key => ?_⟩
      rw [h.recorded_append, hrec, List.nil_append]
  | reused hvalid hheld hrun =>
    obtain ⟨hat, hreach⟩ := hslot _ hheld
    obtain ⟨r, hcourse, rfl⟩ := (Deployer.does_runOn hvalid).mp hrun
    rw [hvalid, hreach]
    exact ⟨_, cs, r, hat, hcourse, Option.map_map .., hcs, fun _ => rfl⟩

theorem Steady.Fits.left {c : Connection ι} (hat : h.At c job.target) (hreach : h.reach s job = .ok ())
    (result : Except DeployError Report) : h.Fits s (c.left result) job := by
  intro c' hc'
  unfold Connection.left at hc'
  split at hc'
  · cases hc'
  · cases hc'
    exact ⟨hat, hreach⟩

theorem Shares.agree {o o' : Option (Except DeployError Report × Option (Connection ι))}
    (hshares : Shares s slot job cs o) (halone : Shares s none job cs' o')
    (hslot : h.Fits s slot job) (hcs : ∀ x ∈ cs, h.Gives x) (hcs' : ∀ x ∈ cs', h.Gives x) :
    ∃ result left left', o = some (result, left) ∧ o' = some (result, left') ∧
      h.Fits s left job ∧ ∀ key, h.recorded key cs = h.recorded key cs' := by
  have hshared := hshares.steady hslot hcs
  have halone := halone.steady Steady.fits_none hcs'
  cases hvalid : job.validate with
  | error e =>
    rw [hvalid] at hshared halone
    obtain ⟨rfl, hrec⟩ := hshared
    obtain ⟨rfl, hrec'⟩ := halone
    exact ⟨_, _, _, rfl, rfl, hslot, fun key => (hrec key).trans (hrec' key).symm⟩
  | ok u =>
    rw [hvalid] at hshared halone
    dsimp only at hshared halone
    cases hreach : h.reach s job with
    | error e =>
      rw [hreach] at hshared halone
      obtain ⟨rfl, hrec⟩ := hshared
      obtain ⟨rfl, hrec'⟩ := halone
      exact ⟨_, _, _, rfl, rfl, Steady.fits_none, fun key => (hrec key).trans (hrec' key).symm⟩
    | ok u =>
      rw [hreach] at hshared halone
      obtain ⟨c, _, r, hat, hcourse, rfl, hgives, hrec⟩ := hshared
      obtain ⟨c', _, r', hat', hcourse', rfl, hgives', hrec'⟩ := halone
      obtain ⟨rfl, hsome, heq⟩ := hcourse.agree hat hat' hcourse' hgives hgives'
      obtain ⟨r, rfl⟩ := Option.ne_none_iff_exists'.mp hsome
      exact ⟨_, _, _, rfl, rfl, .left hat hreach _, fun key => by rw [hrec, hrec', heq]⟩

theorem Steady.Fits.congr (hslot : h.Fits s slot job) (htarget : job.target = job'.target)
    (hchain : job.credentials = job'.credentials) : h.Fits s slot job' := by
  intro c hc
  obtain ⟨hat, hreach⟩ := hslot c hc
  rw [Steady.reach, htarget, hchain] at hreach
  exact ⟨htarget ▸ hat, hreach⟩

/-- What jobs come to by themselves among these hosts, each with all that was asked meanwhile. -/
def Steady.Alone (h : Steady ι) (s : Deployer.Settings)
    (alone : Job → Option (Except DeployError Report) × List (Exchange ι)) : Prop :=
  ∀ job, (s.deployer.run job).Does (calls (alone job).2) (alone job).1 ∧ ∀ x ∈ (alone job).2, h.Gives x

variable {alone : Job → Option (Except DeployError Report) × List (Exchange ι)}

theorem Shares.agree_alone {o : Option (Except DeployError Report × Option (Connection ι))}
    (halone : h.Alone s alone) (hshares : Shares s slot job cs o) (hslot : h.Fits s slot job)
    (hcs : ∀ x ∈ cs, h.Gives x) :
    ∃ result left, o = some (result, left) ∧ (alone job).1 = some result ∧ h.Fits s left job ∧
      ∀ key, h.recorded key cs = h.recorded key (alone job).2 := by
  obtain ⟨hdoes, hgives⟩ := halone job
  obtain ⟨o', hshares', ho'⟩ := Deployer.shares_of_does_run hdoes
  have hgives' : ∀ x ∈ calls (alone job).2, h.Gives x := fun x hx =>
    hgives x (List.mem_of_mem_filter hx)
  obtain ⟨result, left, left', rfl, rfl, hleft, hrec⟩ := hshares.agree hshares' hslot hcs hgives'
  exact ⟨result, left, rfl, ho', hleft, fun key => (hrec key).trans (h.recorded_calls key _)⟩

theorem Shift.agree_alone {group : List Batch.Entry} {turns : List (Turn ι)} (halone : h.Alone s alone)
    (hshift : Shift s slot group turns)
    (hgroup : ∀ a ∈ group, ∀ b ∈ group,
      a.2.target = b.2.target ∧ a.2.credentials = b.2.credentials)
    (hslot : ∀ e ∈ group, h.Fits s slot e.2) (hcs : ∀ t ∈ turns, ∀ x ∈ t.calls, h.Gives x) :
    turns.map Turn.entry = group ∧ ∀ t ∈ turns, t.result ≠ none ∧ t.result = (alone t.entry.2).1 ∧
      ∀ key, h.recorded key t.calls = h.recorded key (alone t.entry.2).2 := by
  induction hshift with
  | done => exact ⟨rfl, fun t ht => by cases ht⟩
  | @next slot entry cs result left rest turns hshares _ ih =>
    obtain ⟨hcs, hrest⟩ := List.forall_mem_cons.mp hcs
    obtain ⟨_, _, ho, hresult, hleft, hrec⟩ :=
      hshares.agree_alone halone (hslot entry (.head _)) hcs
    cases ho
    have hnext : ∀ e ∈ rest, h.Fits s left e.2 := fun e he =>
      have ⟨htarget, hchain⟩ := hgroup entry (.head _) e (.tail _ he)
      hleft.congr htarget hchain
    obtain ⟨hentry, hall⟩ :=
      ih (fun a ha b hb => hgroup a (.tail _ ha) b (.tail _ hb)) hnext hrest
    exact ⟨congrArg (entry :: ·) hentry,
      List.forall_mem_cons.mpr ⟨⟨by simp, hresult.symm, hrec⟩, hall⟩⟩
  | lost hshares =>
    obtain ⟨_, _, ho, -⟩ :=
      hshares.agree_alone halone (hslot _ (.head _)) (hcs _ (.head _))
    cases ho

theorem Steady.Alone.recorded_of_ne (halone : h.Alone s alone) {key : Target.Key}
    (hkey : job.target.key ≠ key) : h.recorded key (alone job).2 = [] := by
  obtain ⟨hdoes, hgives⟩ := halone job
  obtain ⟨o', hshares, -⟩ := Deployer.shares_of_does_run hdoes
  have hsteady := hshares.steady (h := h) Steady.fits_none fun x hx =>
    hgives x (List.mem_of_mem_filter hx)
  rw [← h.recorded_calls]
  cases hvalid : job.validate with
  | error e =>
    rw [hvalid] at hsteady
    exact hsteady.2 key
  | ok u =>
    rw [hvalid] at hsteady
    dsimp only at hsteady
    cases hreach : h.reach s job with
    | error e =>
      rw [hreach] at hsteady
      exact hsteady.2 key
    | ok u =>
      rw [hreach] at hsteady
      obtain ⟨c, cs', r, hat, hcourse, -, -, hrec⟩ := hsteady
      rw [hrec, hcourse.recorded_of_ne hat hkey]

section Ledger

variable {jobs : List Job} {shifts : List (List (Turn ι))} {outcomes : List Outcome}

/-- Jobs that may share a session open the same one. -/
def Uniform (jobs : List Job) : Prop :=
  ∀ a ∈ jobs, ∀ b ∈ jobs, a.target.key = b.target.key →
    a.target = b.target ∧ a.credentials = b.credentials

theorem Uniform.group (hjobs : Uniform jobs) {group : List Batch.Entry}
    (hgroup : group ∈ Batch.groups jobs) :
    ∀ a ∈ group, ∀ b ∈ group, a.2.target = b.2.target ∧ a.2.credentials = b.2.credentials := by
  obtain ⟨keys, -, -, hgroups⟩ := Batch.groups_eq_map jobs
  rw [hgroups] at hgroup
  obtain ⟨key, -, rfl⟩ := List.mem_map.mp hgroup
  intro a ha b hb
  obtain ⟨ha, hkeya⟩ := List.mem_filter.mp ha
  obtain ⟨hb, hkeyb⟩ := List.mem_filter.mp hb
  have hmem {e : Batch.Entry} (he : e ∈ Batch.number jobs) : e.2 ∈ jobs :=
    Batch.number_map_snd jobs ▸ List.mem_map_of_mem he
  refine hjobs _ (hmem ha) _ (hmem hb) ?_
  rw [of_decide_eq_true hkeya, of_decide_eq_true hkeyb]

theorem Ledger.gives_of_mem (hledger : Ledger s jobs shifts cs outcomes) (hcs : ∀ x ∈ cs, h.Gives x)
    {turns : List (Turn ι)} (hturns : turns ∈ shifts) : ∀ t ∈ turns, ∀ x ∈ t.calls, h.Gives x :=
  fun t ht x hx => hcs x (hledger.woven.mem_iff.mpr
    ⟨_, List.mem_map_of_mem hturns, List.mem_flatMap.mpr ⟨t, ht, hx⟩⟩)

theorem Ledger.outcomes_alone (halone : h.Alone s alone) (hjobs : Uniform jobs)
    (hledger : Ledger s jobs shifts cs outcomes) (hcs : ∀ x ∈ cs, h.Gives x) :
    outcomes.map (fun o => (o.job, some o.result)) = jobs.map fun job => (job.name, (alone job).1) := by
  refine List.ext_getElem? fun i => ?_
  rw [List.getElem?_map, List.getElem?_map]
  cases hi : jobs[i]? with
  | none =>
    have hlen : outcomes.length ≤ i :=
      hledger.length_outcomes ▸ List.getElem?_eq_none_iff.mp hi
    rw [List.getElem?_eq_none hlen]
    rfl
  | some job =>
    obtain ⟨group, hgroup, turns, hturns, hshift, hcases⟩ := hledger.outcome_cases hi
    obtain ⟨-, hall⟩ := hshift.agree_alone halone (hjobs.group hgroup)
      (fun _ _ => Steady.fits_none) (hledger.gives_of_mem hcs hturns)
    obtain ⟨⟨t, ht, hlost⟩, -⟩ | ⟨_, turn, _, result, rfl, -, hentry, hresult, hout⟩ := hcases
    · exact absurd hlost (hall t ht).1
    · have heq := (hall turn (by simp)).2.1
      rw [hentry, hresult] at heq
      simp [hout, heq]

theorem Shift.recorded_alone {group : List Batch.Entry} {turns : List (Turn ι)}
    (halone : h.Alone s alone) (hjobs : Uniform jobs) (hgroup : group ∈ Batch.groups jobs)
    (hshift : Shift s none group turns) (hcs : ∀ t ∈ turns, ∀ x ∈ t.calls, h.Gives x)
    (key : Target.Key) : h.recorded key (turns.flatMap Turn.calls) =
      group.flatMap fun e => h.recorded key (alone e.2).2 := by
  obtain ⟨rfl, hall⟩ := hshift.agree_alone halone (hjobs.group hgroup)
    (fun _ _ => Steady.fits_none) hcs
  rw [Steady.recorded, List.filterMap_flatMap, List.flatMap_map]
  exact List.flatMap_congr fun t ht => (hall t ht).2.2 key

theorem Ledger.recorded_alone (halone : h.Alone s alone) (hjobs : Uniform jobs)
    (hledger : Ledger s jobs shifts cs outcomes) (hcs : ∀ x ∈ cs, h.Gives x) (key : Target.Key) :
    h.recorded key cs =
      (jobs.filter (·.target.key = key)).flatMap fun job => h.recorded key (alone job).2 := by
  obtain ⟨keys, hkeys, hmem, hgroups⟩ := Batch.groups_eq_map jobs
  have horders (k : Target.Key) :
      ((Batch.number jobs).filter (·.2.target.key = k)).flatMap
          (fun e => h.recorded key (alone e.2).2) =
        if k = key
        then (jobs.filter (·.target.key = key)).flatMap fun job => h.recorded key (alone job).2
        else [] := by
    by_cases hk : k = key
    · subst hk
      rw [if_pos rfl, ← Batch.number_map_snd jobs, List.filter_map, List.flatMap_map,
        Batch.number_map_snd]
      rfl
    · rw [if_neg hk, List.flatMap_eq_nil_iff]
      intro e he
      have hkey : e.2.target.key = k := of_decide_eq_true (List.mem_filter.mp he).2
      exact halone.recorded_of_ne (hkey ▸ hk)
  have hshifts : (shifts.map (·.flatMap Turn.calls)).map (·.filterMap (h.record key)) =
      keys.map fun k => if k = key
        then (jobs.filter (·.target.key = key)).flatMap fun job => h.recorded key (alone job).2
        else [] := by
    have hgroup := map_eq_map (g := fun turns => h.recorded key (turns.flatMap Turn.calls))
      hledger.worked fun group hgroup turns hturns hshift =>
        (hshift.recorded_alone halone hjobs hgroup (hledger.gives_of_mem hcs hturns) key).symm
    rw [List.map_map, ← List.map_congr_left fun k _ => horders k]
    exact hgroup.symm.trans (by rw [hgroups, List.map_map]; rfl)
  -- one group at most has orders for the key, which leaves nothing to weave
  have hwoven := hledger.woven.filterMap (h.record key)
  rw [hshifts] at hwoven
  refine (hwoven.eq_of_single hkeys.nodup).trans ?_
  by_cases hkey : key ∈ keys
  · rw [if_pos hkey]
  · have hnone : jobs.filter (·.target.key = key) = [] := by
      refine List.filter_eq_nil_iff.mpr fun job hjob => ?_
      have hne : job.target.key ≠ key := fun heq => hkey (heq ▸ hmem job hjob)
      simpa using hne
    rw [if_neg hkey, hnone]
    rfl

end Ledger

end Turns

/-- Among remote hosts that answer the same request in the same way, a batch comes to what its jobs
come to by themselves, and every host is given the orders of its own jobs, one job after the other. -/
theorem Deployer.runBatch_eq_runs (s : Settings) (h : Steady ι) (w : World ι)
    (hw : ∀ past a, h.Gives ⟨a, w past a⟩) (jobs : List Job) (hjobs : Uniform jobs) :
    let batch := (s.deployer.runBatch jobs).play w []
    let alone := fun job => (s.deployer.run job).play w []
    (∃ outcomes, batch.1 = some outcomes ∧ outcomes.map (fun o => (o.job, some o.result)) =
        jobs.map fun job => (job.name, (alone job).1)) ∧
      ∀ key, h.recorded key batch.2 =
        (jobs.filter (·.target.key = key)).flatMap fun job => h.recorded key (alone job).2 := by
  intro batch alone
  have halone : h.Alone s alone := fun job => Steady.does_play hw (s.deployer.run job)
  obtain ⟨hdoes, hgives⟩ := Steady.does_play hw (s.deployer.runBatch jobs)
  obtain ⟨shifts, outcomes, ho, hledger⟩ := ledger_of_does_runBatch hdoes
  have hcs : ∀ x ∈ calls batch.2, h.Gives x := fun x hx => hgives x (List.mem_of_mem_filter hx)
  refine ⟨⟨outcomes, ho, hledger.outcomes_alone halone hjobs hcs⟩, fun key => ?_⟩
  rw [← h.recorded_calls]
  exact hledger.recorded_alone halone hjobs hcs key

def Job.onShard (shard : String) : Job where
  name := shard ++ "-deploy-lock"
  target := { name := "lab", host := "lab.example.net", user := some "epic" }
  credentials := ⟨[⟨.platformAgent, false⟩]⟩
  artifact := ⟨⟨"build/libs/lab-2.0.jar"⟩, "2.0"⟩
  remotePaths := ["/srv/" ++ shard ++ "/plugins"]
  mode := .symlinkSwap "lab-plugin"
  lock := some (.claim "lab" shard "jane" 15)

theorem Deployer.runBatch_eq_runs_on_two_shards :
    let s : Settings := { files := {}, operator := { hasPlatformAgent := true } }
    let jobs := [Job.onShard "lab1", Job.onShard "lab2"]
    (∀ past a, Steady.obliging.Gives ⟨a, World.obliging past a⟩) ∧ Uniform jobs ∧
      ∃ outcomes, ((s.deployer.runBatch jobs).play World.obliging []).1 = some outcomes ∧
        outcomes.map (fun o => (o.job, some o.result)) =
          jobs.map fun job => (job.name, ((s.deployer.run job).play World.obliging []).1) := by
  intro s jobs
  have hjobs : Uniform jobs := by
    unfold Uniform
    decide
  exact ⟨Steady.gives_obliging, hjobs,
    (runBatch_eq_runs s Steady.obliging World.obliging Steady.gives_obliging jobs hjobs).1⟩

end Rollout
