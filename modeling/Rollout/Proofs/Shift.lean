import Rollout.Proofs.Except
import Rollout.Proofs.Group
import Rollout.Proofs.Opening

/-!
The jobs of a group take turns over one session, group beside group. A turn may open the session,
use the one it finds, or do neither; what it makes of it is what the next turn finds.
-/

namespace Rollout

open Program

variable {ι : Type}

def Connection.left (c : Connection ι) (result : Except DeployError Report) :
    Option (Connection ι) :=
  if result matches .error (.connection _) then none else some c

/-- What a job does when its turn comes: the calls it makes, and its result with the session that is
left. Nothing is left of it when its worker stopped. -/
inductive Shares (s : Deployer.Settings) (slot : Option (Connection ι)) (job : Job) :
    List (Exchange ι) → Option (Except DeployError Report × Option (Connection ι)) → Prop
  | invalid {e} : job.validate = .error e → Shares s slot job [] (some (.error (.invalidJob e), slot))
  | refused {cs e} : job.validate = .ok () → slot = none →
      (s.deployer.connect job).Does cs (some (.error (.connection e))) →
      Shares s slot job cs (some (.error (.connection e), none))
  | adrift {cs} : job.validate = .ok () → slot = none → (s.deployer.connect job).Does cs none →
      Shares s slot job cs none
  | opened {cs cs' c r} : job.validate = .ok () → slot = none →
      (s.deployer.connect job).Does cs (some (.ok c)) → (s.deployer.runOn c job).Does cs' r →
      Shares s slot job (cs ++ cs') (r.map fun result => (result, c.left result))
  | reused {cs c r} : job.validate = .ok () → slot = some c → (s.deployer.runOn c job).Does cs r →
      Shares s slot job cs (r.map fun result => (result, c.left result))

/-- A job that was taken up. -/
structure Turn (ι : Type) where
  entry : Batch.Entry
  found : Option (Connection ι)
  calls : List (Exchange ι)
  /-- Nothing when the worker stopped. -/
  result : Option (Except DeployError Report)

namespace Turn

def isValid (t : Turn ι) : Bool := t.entry.2.validate matches .ok _

def broke (t : Turn ι) : Bool := t.result matches some (.error (.connection _))

def outcome (t : Turn ι) : Option (Nat × Outcome) :=
  t.result.map fun result => (t.entry.1, ⟨t.entry.2.name, result⟩)

def settle (reason : List Batch.Entry → String) (group : List Batch.Entry) (turns : List (Turn ι)) :
    List (Nat × Outcome) :=
  (turns.mapM outcome).getD (Batch.stopped reason group)

end Turn

inductive Shift (s : Deployer.Settings) :
    Option (Connection ι) → List Batch.Entry → List (Turn ι) → Prop
  | done {slot} : Shift s slot [] []
  | next {slot entry cs result left rest turns} : Shares s slot entry.2 cs (some (result, left)) →
      Shift s left rest turns → Shift s slot (entry :: rest) (⟨entry, slot, cs, some result⟩ :: turns)
  | lost {slot entry cs rest} : Shares s slot entry.2 cs none →
      Shift s slot (entry :: rest) [⟨entry, slot, cs, none⟩]

/-- How a batch went: every group had its shift, the calls of the shifts are woven into one another,
and an outcome is what became of the job in its turn. -/
structure Ledger (s : Deployer.Settings) (jobs : List Job) (shifts : List (List (Turn ι)))
    (cs : List (Exchange ι)) (outcomes : List Outcome) : Prop where
  worked : List.Forall₂ (Shift s none) (Batch.groups jobs) shifts
  woven : Weaves (shifts.map (·.flatMap Turn.calls)) cs
  settled : outcomes =
    Batch.collect jobs.length
      ((Batch.groups jobs).zipWith (Turn.settle s.stopReason) shifts).flatten

namespace Deployer

variable {s : Settings} {slot : Option (Connection ι)} {job : Job} {cs : List (Exchange ι)}

theorem shares_of_does_runShared
    {o : Option (Except DeployError Report × Option (Connection ι))}
    (h : (s.deployer.runShared slot job).Does cs o) : Shares s slot job cs o := by
  rw [runShared] at h
  cases hvalid : job.validate with
  | error e =>
    rw [hvalid] at h
    obtain ⟨rfl, rfl⟩ := does_pure.mp h
    exact .invalid hvalid
  | ok u =>
    cases u
    rw [hvalid] at h
    cases slot with
    | some c =>
      obtain ⟨r, hrun, rfl⟩ := (does_bind_quiet does_pure).mp ((does_bind_of_quiet does_pure).mp h)
      exact .reused hvalid rfl hrun
    | none =>
      obtain ⟨cs, opened, cs', rfl, hopen, hrest⟩ | ⟨hopen, rfl⟩ := does_bind.mp h
      · cases opened with
        | error e =>
          obtain ⟨rfl, rfl⟩ := does_pure.mp hrest
          obtain ⟨error, rfl⟩ := connection_of_does_connect hopen
          rw [List.append_nil]
          exact .refused hvalid rfl hopen
        | ok c =>
          obtain ⟨r, hrun, rfl⟩ := (does_bind_quiet does_pure).mp hrest
          exact .opened hvalid rfl hopen hrun
      · exact .adrift hvalid rfl hopen

theorem shares_of_does_run {o : Option (Except DeployError Report)}
    (h : (s.deployer.run job).Does cs o) : ∃ o', Shares s none job cs o' ∧ o = o'.map (·.1) := by
  rw [run] at h
  cases hvalid : job.validate with
  | error e =>
    rw [hvalid] at h
    obtain ⟨rfl, rfl⟩ := does_pure.mp h
    exact ⟨_, .invalid hvalid, rfl⟩
  | ok u =>
    cases u
    rw [hvalid] at h
    obtain ⟨cs, opened, cs', rfl, hopen, hrest⟩ | ⟨hopen, rfl⟩ := does_bind.mp h
    · cases opened with
      | error e =>
        obtain ⟨rfl, rfl⟩ := does_pure.mp hrest
        obtain ⟨error, rfl⟩ := connection_of_does_connect hopen
        rw [List.append_nil]
        exact ⟨_, .refused hvalid rfl hopen, rfl⟩
      | ok c => exact ⟨_, .opened hvalid rfl hopen hrest, by cases o <;> rfl⟩
    · exact ⟨_, .adrift hvalid rfl hopen, rfl⟩

theorem shift_of_does_runGroup {group : List Batch.Entry} {o : Option (List (Nat × Outcome))}
    (h : (s.deployer.runGroup slot group).Does cs o) :
    ∃ turns, Shift s slot group turns ∧ cs = turns.flatMap Turn.calls ∧
      o = turns.mapM Turn.outcome := by
  induction group generalizing slot cs o with
  | nil =>
    obtain ⟨rfl, rfl⟩ := does_pure.mp h
    exact ⟨[], .done, rfl, rfl⟩
  | cons entry rest ih =>
    rw [runGroup] at h
    obtain ⟨cs, ⟨result, left⟩, cs', rfl, hshared, hrest⟩ | ⟨hshared, rfl⟩ := does_bind.mp h
    · obtain ⟨r, hr, rfl⟩ : ∃ r, (s.deployer.runGroup left rest).Does cs' r ∧
          o = r.map ((entry.1, ⟨entry.2.name, result⟩) :: ·) := by
        cases result with
        | error e => exact (does_bind_quiet does_pure).mp (does_note_bind.mp hrest)
        | ok report => exact (does_bind_quiet does_pure).mp hrest
      obtain ⟨turns, hturns, rfl, rfl⟩ := ih hr
      refine ⟨_, .next (shares_of_does_runShared hshared) hturns, rfl, ?_⟩
      rw [List.mapM_cons]
      cases turns.mapM Turn.outcome <;> rfl
    · exact ⟨_, .lost (shares_of_does_runShared hshared), by simp, rfl⟩

theorem shifts_of_does_runGroup {groups : List (List Batch.Entry)}
    {rs : List (List (Exchange ι) × Option (List (Nat × Outcome)))}
    (h : List.Forall₂ (fun p r => p.Does r.1 r.2) (groups.map (s.deployer.runGroup none)) rs) :
    ∃ shifts : List (List (Turn ι)), List.Forall₂ (Shift s none) groups shifts ∧
      rs = shifts.map fun turns => (turns.flatMap Turn.calls, turns.mapM Turn.outcome) := by
  induction groups generalizing rs with
  | nil =>
    cases h
    exact ⟨[], .nil, rfl⟩
  | cons group groups ih =>
    obtain _ | ⟨hgroup, hrest⟩ := h
    obtain ⟨turns, hturns, hcalls, houtcomes⟩ := shift_of_does_runGroup hgroup
    obtain ⟨shifts, hshifts, rfl⟩ := ih hrest
    exact ⟨turns :: shifts, .cons hturns hshifts,
      congrArg (· :: _) (Prod.ext hcalls houtcomes)⟩

theorem ledger_of_does_runBatch {jobs : List Job} {o : Option (List Outcome)}
    (h : (s.deployer.runBatch jobs).Does cs o) :
    ∃ shifts outcomes, o = some outcomes ∧ Ledger s jobs shifts cs outcomes := by
  obtain ⟨_, hgroups, rfl⟩ := (does_bind_quiet does_pure).mp h
  obtain ⟨_, hgather, rfl⟩ := (does_bind_quiet does_pure).mp hgroups
  obtain ⟨rs, hrs, hweaves, rfl⟩ := does_gather.mp hgather
  obtain ⟨shifts, hworked, rfl⟩ := shifts_of_does_runGroup hrs
  refine ⟨shifts, _, rfl, hworked, ?_, ?_⟩
  · simpa [Function.comp_def] using hweaves
  · simp only [List.map_map, List.zipWith_map_right, Function.comp_def]
    rfl

end Deployer

theorem Shares.left_isSome {s : Deployer.Settings} {slot left : Option (Connection ι)}
    {entry : Batch.Entry} {cs : List (Exchange ι)} {result : Except DeployError Report}
    (h : Shares s slot entry.2 cs (some (result, left))) :
    left.isSome = bif Turn.isValid ⟨entry, slot, cs, some result⟩
      then !Turn.broke ⟨entry, slot, cs, some result⟩ else slot.isSome := by
  have hleft (c : Connection ι) (result : Except DeployError Report) :
      (c.left result).isSome = !Turn.broke ⟨entry, slot, cs, some result⟩ := by
    rcases result with e | report
    · cases e <;> rfl
    · rfl
  generalize ho : some (result, left) = o at h
  cases h with
  | invalid hvalid =>
    cases ho
    simp [Turn.isValid, hvalid]
  | refused hvalid =>
    cases ho
    simp [Turn.isValid, Turn.broke, hvalid]
  | adrift => cases ho
  | @opened cs cs' c r hvalid =>
    obtain ⟨_, rfl, h⟩ := Option.map_eq_some_iff.mp ho.symm
    cases h
    simp [Turn.isValid, hvalid, hleft]
  | reused hvalid =>
    obtain ⟨_, rfl, h⟩ := Option.map_eq_some_iff.mp ho.symm
    cases h
    simp [Turn.isValid, hvalid, hleft]

namespace Shift

variable {s : Deployer.Settings} {slot : Option (Connection ι)} {group : List Batch.Entry}
  {earlier later : List (Turn ι)} {turn : Turn ι}

theorem shares (h : Shift s slot group (earlier ++ turn :: later)) :
    ∃ o, Shares s turn.found turn.entry.2 turn.calls o ∧ turn.result = o.map (·.1) := by
  generalize hturns : earlier ++ turn :: later = turns at h
  induction h generalizing earlier with
  | done => simp at hturns
  | next hshares _ ih =>
    cases earlier with
    | nil =>
      obtain ⟨rfl, -⟩ := List.cons.inj hturns
      exact ⟨_, hshares, rfl⟩
    | cons t earlier => exact ih (List.cons.inj hturns).2
  | lost hshares =>
    obtain ⟨rfl, hturn⟩ := (List.append_eq_singleton_iff.mp hturns).resolve_right (by simp)
    obtain ⟨rfl, -⟩ := List.cons.inj hturn
    exact ⟨none, hshares, rfl⟩

theorem found_isSome (h : Shift s slot group (earlier ++ turn :: later)) :
    turn.found.isSome = match (earlier.filter Turn.isValid).getLast? with
      | some last => !last.broke
      | none => slot.isSome := by
  generalize hturns : earlier ++ turn :: later = turns at h
  induction h generalizing earlier with
  | done => simp at hturns
  | @next slot entry cs result left rest turns hshares _ ih =>
    cases earlier with
    | nil =>
      obtain ⟨rfl, -⟩ := List.cons.inj hturns
      rfl
    | cons t earlier =>
      obtain ⟨rfl, hrest⟩ := List.cons.inj hturns
      rw [ih hrest, hshares.left_isSome]
      -- an invalid job leaves the session as it is; a valid one is the last one if no other follows
      cases hvalid : Turn.isValid ⟨entry, slot, cs, some result⟩ with
      | false => simp [hvalid]
      | true =>
        rw [List.filter_cons_of_pos hvalid, List.getLast?_cons]
        cases (earlier.filter Turn.isValid).getLast? <;> rfl
  | lost _ =>
    obtain ⟨rfl, hturn⟩ := (List.append_eq_singleton_iff.mp hturns).resolve_right (by simp)
    obtain ⟨rfl, -⟩ := List.cons.inj hturn
    rfl

end Shift

theorem Shift.settle_cases {s : Deployer.Settings} {slot : Option (Connection ι)}
    {group : List Batch.Entry} {turns : List (Turn ι)} (h : Shift s slot group turns) :
    ((∃ t ∈ turns, t.result = none) ∧
        Turn.settle s.stopReason group turns = Batch.stopped s.stopReason group) ∨
      ∃ os, turns.map Turn.entry = group ∧ Turn.settle s.stopReason group turns = os ∧
        List.Forall₂ (fun t o => t.outcome = some o) turns os := by
  have hmap : ((∃ t ∈ turns, t.result = none) ∧ turns.mapM Turn.outcome = none) ∨
      ∃ os, turns.map Turn.entry = group ∧ turns.mapM Turn.outcome = some os ∧
        List.Forall₂ (fun t o => t.outcome = some o) turns os := by
    induction h with
    | done => exact .inr ⟨[], rfl, rfl, .nil⟩
    | next _ _ ih =>
      rw [List.mapM_cons]
      obtain ⟨⟨t, ht, hresult⟩, hnone⟩ | ⟨os, rfl, hos, hall⟩ := ih
      · exact .inl ⟨⟨t, .tail _ ht, hresult⟩, by rw [hnone]; rfl⟩
      · exact .inr ⟨_ :: os, rfl, by rw [hos]; rfl, .cons rfl hall⟩
    | lost _ => exact .inl ⟨⟨_, .head _, rfl⟩, rfl⟩
  obtain ⟨ht, hnone⟩ | ⟨os, hentry, hos, hall⟩ := hmap
  · exact .inl ⟨ht, by rw [Turn.settle, hnone]; rfl⟩
  · exact .inr ⟨os, hentry, by rw [Turn.settle, hos]; rfl, hall⟩

theorem Shift.settle_map_fst {s : Deployer.Settings} {slot : Option (Connection ι)}
    {group : List Batch.Entry} {turns : List (Turn ι)} (h : Shift s slot group turns) :
    (Turn.settle s.stopReason group turns).map (·.1) = group.map (·.1) := by
  obtain ⟨-, hstopped⟩ | ⟨os, rfl, hos, hall⟩ := h.settle_cases
  · simp [hstopped, Batch.stopped]
  · rw [hos]
    clear h hos
    induction hall with
    | nil => rfl
    | @cons t o _ _ hto _ ih =>
      obtain ⟨r, -, rfl⟩ := Option.map_eq_some_iff.mp hto
      exact congrArg (t.entry.1 :: ·) ih

namespace Ledger

variable {s : Deployer.Settings} {jobs : List Job} {shifts : List (List (Turn ι))}
  {cs : List (Exchange ι)} {outcomes : List Outcome}

theorem settle_perm (h : Ledger s jobs shifts cs outcomes) :
    (((Batch.groups jobs).zipWith (Turn.settle s.stopReason) shifts).flatten.map (·.1)).Perm
      (List.range jobs.length) := by
  have heq {groups : List (List Batch.Entry)} {shifts : List (List (Turn ι))}
      (h : List.Forall₂ (Shift s none) groups shifts) :
      (groups.zipWith (Turn.settle s.stopReason) shifts).flatten.map (·.1) = groups.flatten.map (·.1) := by
    induction h with
    | nil => rfl
    | cons hshift _ ih => simp [hshift.settle_map_fst, ih]
  rw [heq h.worked, ← Batch.number_map_fst]
  exact (Batch.groups_flatten_perm jobs).map _

theorem length_outcomes (h : Ledger s jobs shifts cs outcomes) : outcomes.length = jobs.length :=
  h.settled ▸ (Batch.collect_getElem? h.settle_perm).1

theorem outcome_cases (h : Ledger s jobs shifts cs outcomes) {i : Nat} {job : Job}
    (hi : jobs[i]? = some job) : ∃ group ∈ Batch.groups jobs, ∃ turns ∈ shifts,
      Shift s none group turns ∧
      (((∃ t ∈ turns, t.result = none) ∧
          outcomes[i]? = some ⟨job.name, .error (.workerStopped job.name (s.stopReason group))⟩) ∨
        ∃ earlier turn later result, turns = earlier ++ turn :: later ∧
          earlier.map Turn.entry =
            (Batch.number (jobs.take i)).filter (·.2.target.key = job.target.key) ∧
          turn.entry = (i, job) ∧ turn.result = some result ∧
          outcomes[i]? = some ⟨job.name, result⟩) := by
  have hmem : (i, job) ∈ (Batch.groups jobs).flatten :=
    (Batch.groups_flatten_perm jobs).mem_iff.mpr (Batch.mem_number.mpr hi)
  obtain ⟨group, hgroup, hjob⟩ := List.mem_flatten.mp hmem
  obtain ⟨turns, hzip, hshift⟩ := exists_mem_zip h.worked hgroup
  have hsettle : Turn.settle s.stopReason group turns ∈
      (Batch.groups jobs).zipWith (Turn.settle s.stopReason) shifts := by
    rw [← List.map_uncurry_zip_eq_zipWith]
    exact List.mem_map_of_mem (f := Function.uncurry (Turn.settle s.stopReason)) hzip
  have hget {o : Outcome} (ho : (i, o) ∈ Turn.settle s.stopReason group turns) : outcomes[i]? = some o :=
    h.settled ▸ (Batch.collect_getElem? h.settle_perm).2 (List.mem_flatten.mpr ⟨_, hsettle, ho⟩)
  refine ⟨group, hgroup, turns, (List.of_mem_zip hzip).2, hshift, ?_⟩
  obtain ⟨hlost, hstopped⟩ | ⟨os, hentries, hos, hall⟩ := hshift.settle_cases
  · refine .inl ⟨hlost, hget ?_⟩
    rw [hstopped]
    exact List.mem_map.mpr ⟨(i, job), hjob, rfl⟩
  · obtain ⟨turn, hturn, hentry⟩ := List.mem_map.mp (hentries ▸ hjob)
    obtain ⟨o, ho, hto⟩ := exists_mem_zip hall hturn
    obtain ⟨result, hresult, rfl⟩ := Option.map_eq_some_iff.mp hto
    obtain ⟨earlier, later, rfl⟩ := List.append_of_mem hturn
    rw [List.map_append, List.map_cons, hentry] at hentries
    refine .inr ⟨earlier, turn, later, result, rfl,
      Batch.before_in_group hgroup hentries.symm, hentry, hresult, hget ?_⟩
    rw [hos]
    simpa [hentry] using (List.of_mem_zip ho).2

end Ledger

end Rollout
