import Rollout.Proofs.Custody
import Rollout.Proofs.HostKey

/-!
Jobs that were carried out in full. A batch counts no job as a success of which a step was not
carried out on the target of the job, and counts every other one.
-/

namespace Rollout

open Program

variable {ι : Type} {s : Deployer.Settings} {job : Job} {cs : List (Exchange ι)}

def Exchange.isConnect (x : Exchange ι) : Bool := x.1 matches .connect _

def Step.CarriedOut (l : Lockout) (session : ι) : Step → Exchange ι → Prop
  | .lockCheck request, x => ∃ polling result,
    x = ⟨.exec polling session (l.commandFor request), some (.ok result)⟩ ∧ result.exitCode = 0
  | .clean _ command, x => ∃ polling result,
    x = ⟨.exec polling session command, some (.ok result)⟩
  | .transfer source destination, x => ∃ bytes,
    x = ⟨.upload session source destination, some (.ok bytes)⟩
  | .relink _ command, x => ∃ polling result,
    x = ⟨.exec polling session command, some (.ok result)⟩ ∧ result.exitCode = 0

namespace Step

variable {l : Lockout} {c : Connection ι} {step : Step} {session : ι} {x : Exchange ι}

theorem isConnect_order {r : (step.order l c).Reply} :
    Exchange.isConnect ⟨step.order l c, r⟩ = false := by
  cases step <;> rfl

theorem CarriedOut.isConnect (h : step.CarriedOut l session x) : x.isConnect = false := by
  cases step with
  | lockCheck _ =>
    obtain ⟨_, _, rfl, -⟩ := h
    rfl
  | clean _ _ =>
    obtain ⟨_, _, rfl⟩ := h
    rfl
  | transfer _ _ =>
    obtain ⟨_, rfl⟩ := h
    rfl
  | relink _ _ =>
    obtain ⟨_, _, rfl, -⟩ := h
    rfl

theorem exec_answered_iff {polling : Polling} {command : String}
    {r : Option (Except Failure CommandResult)} {P : CommandResult → Prop} :
    (∃ polling' result, (⟨.exec polling session command, r⟩ : Exchange ι) =
      ⟨.exec polling' session command, some (.ok result)⟩ ∧ P result) ↔
      ∃ result, r = some (.ok result) ∧ P result := by
  constructor
  · rintro ⟨polling, result, heq, hresult⟩
    cases heq
    exact ⟨result, rfl, hresult⟩
  · rintro ⟨result, rfl, hresult⟩
    exact ⟨polling, result, rfl, hresult⟩

theorem carriedOut_iff (job : Job) {r : (step.order l c).Reply} :
    step.CarriedOut l c.session ⟨step.order l c, r⟩ ↔ ∃ n, step.verdict l c job r = some (.ok n) := by
  cases step with
  | lockCheck request =>
    refine exec_answered_iff.trans ?_
    rcases r with _ | _ | result
    · simp [verdict]
    · simp [verdict]
    · by_cases hexit : result.exitCode = 0 <;> simp [verdict, hexit]
  | clean directory command =>
    constructor
    · rintro ⟨polling, result, heq⟩
      cases heq
      exact ⟨0, rfl⟩
    · rintro ⟨n, h⟩
      rcases r with _ | _ | result
      · cases h
      · cases h
      · exact ⟨c.polling, result, rfl⟩
  | transfer source destination =>
    constructor
    · rintro ⟨bytes, heq⟩
      cases heq
      exact ⟨bytes, rfl⟩
    · rintro ⟨n, h⟩
      rcases r with _ | _ | bytes
      · cases h
      · cases h
      · exact ⟨bytes, rfl⟩
  | relink directory command =>
    refine exec_answered_iff.trans ?_
    rcases r with _ | _ | result
    · simp [verdict]
    · simp [verdict]
    · by_cases hexit : result.exitCode = 0 <;> simp [verdict, hexit]

end Step

theorem Course.carriedOut_iff {l : Lockout} {c : Connection ι} {steps : List Step}
    {o : Option (Except DeployError Nat)} (h : Course l c job steps cs o) :
    List.Forall₂ (Step.CarriedOut l c.session) steps cs ↔ ∃ n, o = some (.ok n) := by
  induction h with
  | done => simp
  | @pass step r n rest cs o hr _ ih =>
    rw [List.forall₂_cons, ih, Step.carriedOut_iff job]
    constructor
    · rintro ⟨-, m, rfl⟩
      exact ⟨n + m, rfl⟩
    · rintro ⟨m, ho⟩
      refine ⟨⟨n, hr⟩, ?_⟩
      rcases o with _ | _ | m
      · cases ho
      · cases ho
      · exact ⟨m, rfl⟩
  | @fail step r e rest hr =>
    rw [List.forall₂_cons, Step.carriedOut_iff job, hr]
    simp
  | @lost step r rest hr =>
    rw [List.forall₂_cons, Step.carriedOut_iff job, hr]
    simp

theorem Course.isConnect {l : Lockout} {c : Connection ι} {steps : List Step}
    {o : Option (Except DeployError Nat)} (h : Course l c job steps cs o) :
    ∀ x ∈ cs, x.isConnect = false := by
  induction h with
  | done => simp
  | pass _ _ ih => exact List.forall_mem_cons.mpr ⟨Step.isConnect_order, ih⟩
  | fail _ => exact List.forall_mem_singleton.mpr Step.isConnect_order
  | lost _ => exact List.forall_mem_singleton.mpr Step.isConnect_order

theorem Deployer.isConnect_of_does_connect {o : Option (Except DeployError (Connection ι))}
    (h : (s.deployer.connect job).Does cs o) :
    ∀ x ∈ cs, x.isConnect ∧ ∀ request, x.1 = .connect request → request.target = job.target := by
  rw [does_connect] at h
  cases hvet : Connection.vet s.files s.operator job.target job.credentials with
  | error e =>
    rw [hvet] at h
    obtain ⟨rfl, -⟩ := h
    simp
  | ok request =>
    rw [hvet] at h
    obtain ⟨r, rfl, -⟩ := h
    refine List.forall_mem_singleton.mpr ⟨rfl, fun request' heq => ?_⟩
    cases heq
    exact Connection.target_of_vet hvet

/-- All steps of a job were carried out in order, on the session in hand or else on one that was
opened first. -/
def Completes (l : Lockout) (held : Option (Held ι)) (job : Job) (cs : List (Exchange ι))
    (h : Held ι) : Prop :=
  held = some h ∧ List.Forall₂ (Step.CarriedOut l h.session) job.steps cs ∨
    held = none ∧ ∃ done, cs = ⟨.connect h.request, some (.ok h.session)⟩ :: done ∧
      List.Forall₂ (Step.CarriedOut l h.session) job.steps done

theorem Completes.exists_call {l : Lockout} {held : Option (Held ι)} {h : Held ι}
    (hcompletes : Completes l held job cs h) (hsteps : job.steps ≠ []) :
    ∃ x ∈ cs, x.isConnect = false := by
  obtain ⟨step, steps, hcons⟩ := List.exists_cons_of_ne_nil hsteps
  rw [Completes, hcons] at hcompletes
  obtain ⟨-, hdone⟩ | ⟨-, done, rfl, hdone⟩ := hcompletes
  · obtain ⟨x, _, hx, -, rfl⟩ := List.forall₂_cons_left_iff.mp hdone
    exact ⟨x, .head _, hx.isConnect⟩
  · obtain ⟨x, _, hx, -, rfl⟩ := List.forall₂_cons_left_iff.mp hdone
    exact ⟨x, .tail _ (.head _), hx.isConnect⟩

theorem Deployer.carriedOut_iff {c : Connection ι} {r : Option (Except DeployError Report)}
    (hvalid : job.validate = .ok ()) (hrun : (s.deployer.runOn c job).Does cs r) :
    List.Forall₂ (Step.CarriedOut s.lockout c.session) job.steps cs ↔
      ∃ report, (r.map fun result => (result, c.left result)).map (·.1) = some (.ok report) := by
  obtain ⟨o, hcourse, rfl⟩ := (does_runOn hvalid).mp hrun
  rw [hcourse.carriedOut_iff]
  rcases o with _ | _ | n <;> simp [Except.map]

theorem Shares.completes_iff {slot : Option (Connection ι)} {held : Option (Held ι)}
    {o : Option (Except DeployError Report × Option (Connection ι))} (h : Shares s slot job cs o)
    (hfit : held.map (·.session) = slot.map (·.session)) (hvalid : job.validate = .ok ()) :
    (∃ h, Completes s.lockout held job cs h) ↔ ∃ report, o.map (·.1) = some (.ok report) := by
  have hunopened {o : Option (Except DeployError (Connection ι))}
      (hopen : (s.deployer.connect job).Does cs o) : ¬ ∃ h, Completes s.lockout held job cs h := by
    rintro ⟨h, hcompletes⟩
    obtain ⟨x, hx, hconnect⟩ := hcompletes.exists_call (Job.steps_ne_nil hvalid)
    simp [(Deployer.isConnect_of_does_connect hopen x hx).1] at hconnect
  cases h with
  | invalid he => simp [hvalid] at he
  | refused _ _ hopen => exact iff_of_false (hunopened hopen) (by simp)
  | adrift _ _ hopen => exact iff_of_false (hunopened hopen) (by simp)
  | @opened cs cs' c r _ hslot hopen hrun =>
    subst hslot
    obtain rfl : held = none := by simpa using hfit
    obtain ⟨-, request, rfl⟩ := Deployer.custody_connect hopen
    rw [← Deployer.carriedOut_iff hvalid hrun]
    constructor
    · rintro ⟨h, ⟨hheld, -⟩ | ⟨-, done, heq, hdone⟩⟩
      · cases hheld
      · obtain ⟨hopener, rfl⟩ := List.cons.inj heq
        have hsession : c.session = h.session := by simpa using (Sigma.mk.inj hopener).2
        rw [hsession]
        exact hdone
    · exact fun hdone => ⟨⟨request, c.session⟩, .inr ⟨rfl, cs', rfl, hdone⟩⟩
  | @reused cs c r _ hslot hrun =>
    subst hslot
    obtain ⟨h, rfl, (hsession : h.session = c.session)⟩ := Option.map_eq_some_iff.mp hfit
    rw [← Deployer.carriedOut_iff hvalid hrun, ← hsession]
    constructor
    · rintro ⟨h', ⟨hheld, hdone⟩ | ⟨hheld, -⟩⟩
      · cases hheld
        exact hdone
      · cases hheld
    · exact fun hdone => ⟨h, .inl ⟨rfl, hdone⟩⟩

theorem Shares.target_of_connect {slot : Option (Connection ι)}
    {o : Option (Except DeployError Report × Option (Connection ι))} (h : Shares s slot job cs o)
    {request : ConnectRequest} {r : Option (Except Failure ι)}
    (hmem : ⟨.connect request, r⟩ ∈ cs) : request.target = job.target := by
  have hrun {c : Connection ι} {cs : List (Exchange ι)} {r' : Option (Except DeployError Report)}
      (hvalid : job.validate = .ok ()) (hrun : (s.deployer.runOn c job).Does cs r')
      (hmem : ⟨.connect request, r⟩ ∈ cs) : False := by
    obtain ⟨o, hcourse, -⟩ := (Deployer.does_runOn hvalid).mp hrun
    cases hcourse.isConnect _ hmem
  cases h with
  | invalid => cases hmem
  | refused _ _ hopen => exact (Deployer.isConnect_of_does_connect hopen _ hmem).2 _ rfl
  | adrift _ _ hopen => exact (Deployer.isConnect_of_does_connect hopen _ hmem).2 _ rfl
  | opened hvalid _ hopen hdoes =>
    rcases List.mem_append.mp hmem with hmem | hmem
    · exact (Deployer.isConnect_of_does_connect hopen _ hmem).2 _ rfl
    · exact (hrun hvalid hdoes hmem).elim
  | reused hvalid _ hdoes => exact (hrun hvalid hdoes hmem).elim

def Turn.Complete (l : Lockout) (earlier : List (Turn ι)) (turn : Turn ι) : Prop :=
  ∃ h : Held ι, h.request.target.key = turn.entry.2.target.key ∧
    Completes l (hand none (earlier.flatMap Turn.calls)) turn.entry.2 turn.calls h

def Completed (l : Lockout) (shifts : List (List (Turn ι))) (entry : Batch.Entry) : Prop :=
  ∃ turns ∈ shifts, ∃ earlier turn later, turns = earlier ++ turn :: later ∧ turn.entry = entry ∧
    turn.Complete l earlier

section Shift

variable {group : List Batch.Entry} {turns earlier later : List (Turn ι)} {turn : Turn ι}

theorem Shift.entries_prefix {slot : Option (Connection ι)} (h : Shift s slot group turns) :
    turns.map Turn.entry <+: group := by
  induction h with
  | done => exact List.prefix_refl _
  | next _ _ ih => exact List.prefix_cons_inj _ |>.mpr ih
  | lost _ => exact ⟨_, rfl⟩

theorem Shift.target_of_connect {slot : Option (Connection ι)} (h : Shift s slot group turns)
    {request : ConnectRequest} {r : Option (Except Failure ι)}
    (hmem : ⟨.connect request, r⟩ ∈ turns.flatMap Turn.calls) :
    ∃ entry ∈ group, request.target = entry.2.target := by
  induction h with
  | done => cases hmem
  | @next _ entry _ _ _ _ _ hshares _ ih =>
    rw [List.flatMap_cons] at hmem
    rcases List.mem_append.mp hmem with hmem | hmem
    · exact ⟨entry, .head _, hshares.target_of_connect hmem⟩
    · obtain ⟨entry, hentry, htarget⟩ := ih hmem
      exact ⟨entry, .tail _ hentry, htarget⟩
  | @lost _ entry _ _ hshares =>
    rw [List.flatMap_singleton] at hmem
    exact ⟨entry, .head _, hshares.target_of_connect hmem⟩

theorem Shift.complete_iff (h : Shift s none group (earlier ++ turn :: later))
    (hgroup : ∀ a ∈ group, ∀ b ∈ group, a.2.target.key = b.2.target.key)
    (hvalid : turn.entry.2.validate = .ok ()) (hentry : turn.entry ∈ group) :
    turn.Complete s.lockout earlier ↔ ∃ report, turn.result = some (.ok report) := by
  obtain ⟨o, hshares, hresult⟩ := h.shares
  rw [hresult, ← hshares.completes_iff (h.hand_found Shift.fit_none) hvalid]
  refine exists_congr fun held => and_iff_right_of_imp fun hcompletes => ?_
  have hmem : ⟨.connect held.request, some (.ok held.session)⟩ ∈
      (earlier ++ turn :: later).flatMap Turn.calls := by
    rw [List.flatMap_append, List.flatMap_cons]
    obtain ⟨hheld, -⟩ | ⟨-, done, hcalls, -⟩ := hcompletes
    · exact List.mem_append_left _ (connect_of_hand hheld)
    · rw [hcalls]
      exact List.mem_append_right _ (.head _)
  obtain ⟨entry, hentry', htarget⟩ := h.target_of_connect hmem
  rw [htarget]
  exact hgroup entry hentry' turn.entry hentry

end Shift

theorem Batch.key_of_mem_groups {jobs : List Job} {group : List Entry} (h : group ∈ groups jobs) :
    ∀ a ∈ group, ∀ b ∈ group, a.2.target.key = b.2.target.key := by
  obtain ⟨keys, -, -, hgroups⟩ := groups_eq_map jobs
  rw [hgroups] at h
  obtain ⟨key, -, rfl⟩ := List.mem_map.mp h
  intro a ha b hb
  rw [of_decide_eq_true (List.mem_filter.mp ha).2, of_decide_eq_true (List.mem_filter.mp hb).2]

namespace Ledger

variable {jobs : List Job} {shifts : List (List (Turn ι))} {outcomes : List Outcome}

theorem entries_nodup (h : Ledger s jobs shifts cs outcomes) :
    (shifts.flatten.map Turn.entry).Nodup := by
  have hsub {groups : List (List Batch.Entry)} {shifts : List (List (Turn ι))}
      (h : List.Forall₂ (Shift s none) groups shifts) :
      (shifts.flatten.map Turn.entry).Sublist groups.flatten := by
    induction h with
    | nil => exact .refl _
    | cons hshift _ ih =>
      rw [List.flatten_cons, List.flatten_cons, List.map_append]
      exact hshift.entries_prefix.sublist.append ih
  have hnumber : (Batch.number jobs).Nodup := by
    apply List.Nodup.of_map (·.1)
    rw [Batch.number_map_fst]
    exact List.nodup_range
  exact ((Batch.groups_flatten_perm jobs).nodup_iff.mpr hnumber).sublist (hsub h.worked)

theorem turn_unique (h : Ledger s jobs shifts cs outcomes) {t t' : Turn ι}
    (ht : t ∈ shifts.flatten) (ht' : t' ∈ shifts.flatten) (heq : t.entry = t'.entry) : t = t' :=
  List.inj_on_of_nodup_map h.entries_nodup ht ht' heq

theorem shift_of_mem (h : Ledger s jobs shifts cs outcomes) {turns : List (Turn ι)}
    (hturns : turns ∈ shifts) : ∃ group ∈ Batch.groups jobs, Shift s none group turns := by
  obtain ⟨group, hzip, hshift⟩ := exists_mem_zip h.worked.flip hturns
  exact ⟨group, (List.of_mem_zip hzip).2, hshift⟩

theorem job_of_mem (h : Ledger s jobs shifts cs outcomes) {t : Turn ι} (ht : t ∈ shifts.flatten) :
    jobs[t.entry.1]? = some t.entry.2 := by
  obtain ⟨turns, hturns, ht⟩ := List.mem_flatten.mp ht
  obtain ⟨group, hgroup, hshift⟩ := h.shift_of_mem hturns
  have hentry := hshift.entries_prefix.subset (List.mem_map_of_mem ht)
  apply Batch.mem_number.mp
  exact (Batch.groups_flatten_perm jobs).mem_iff.mp (List.mem_flatten.mpr ⟨group, hgroup, hentry⟩)

theorem completed_iff (h : Ledger s jobs shifts cs outcomes)
    (hvalid : ∀ job ∈ jobs, job.validate = .ok ()) {t : Turn ι} (ht : t ∈ shifts.flatten) :
    Completed s.lockout shifts t.entry ↔ ∃ report, t.result = some (.ok report) := by
  have hcomplete {turns earlier later : List (Turn ι)} (hturns : turns ∈ shifts)
      (hsplit : turns = earlier ++ t :: later) :
      t.Complete s.lockout earlier ↔ ∃ report, t.result = some (.ok report) := by
    obtain ⟨group, hgroup, hshift⟩ := h.shift_of_mem hturns
    have hentry : t.entry ∈ group :=
      hshift.entries_prefix.subset (List.mem_map_of_mem (hsplit ▸ by simp))
    rw [hsplit] at hshift
    apply hshift.complete_iff (Batch.key_of_mem_groups hgroup) _ hentry
    exact hvalid _ (List.mem_of_getElem? (h.job_of_mem ht))
  constructor
  · rintro ⟨turns, hturns, earlier, turn, later, hsplit, hentry, hturn⟩
    have hmem : turn ∈ shifts.flatten := List.mem_flatten.mpr ⟨turns, hturns, hsplit ▸ by simp⟩
    obtain rfl := h.turn_unique hmem ht hentry
    exact (hcomplete hturns hsplit).mp hturn
  · intro hresult
    obtain ⟨turns, hturns, hmem⟩ := List.mem_flatten.mp ht
    obtain ⟨earlier, later, hsplit⟩ := List.append_of_mem hmem
    exact ⟨turns, hturns, earlier, t, later, hsplit, rfl, (hcomplete hturns hsplit).mpr hresult⟩

theorem result_of_completed (h : Ledger s jobs shifts cs outcomes)
    (hvalid : ∀ job ∈ jobs, job.validate = .ok ())
    (hall : ∀ i job, jobs[i]? = some job → Completed s.lockout shifts (i, job)) {t : Turn ι}
    (ht : t ∈ shifts.flatten) : ∃ report, t.result = some (.ok report) :=
  (h.completed_iff hvalid ht).mp (hall _ _ (h.job_of_mem ht))

theorem all_success_iff (h : Ledger s jobs shifts cs outcomes)
    (hvalid : ∀ job ∈ jobs, job.validate = .ok ()) :
    (∀ o ∈ outcomes, o.isSuccess) ↔
      ∀ i job, jobs[i]? = some job → Completed s.lockout shifts (i, job) := by
  constructor
  · intro hall i job hi
    obtain ⟨_, -, turns, hturns, -, hcases⟩ := h.outcome_cases hi
    obtain ⟨-, hout⟩ | ⟨earlier, turn, later, result, rfl, -, hentry, hresult, hout⟩ := hcases
    · cases hall _ (List.mem_of_getElem? hout)
    · have hmem : turn ∈ shifts.flatten := List.mem_flatten.mpr ⟨_, hturns, by simp⟩
      rw [← hentry, h.completed_iff hvalid hmem, hresult]
      cases result with
      | ok report => exact ⟨report, rfl⟩
      | error e => cases hall _ (List.mem_of_getElem? hout)
  · intro hall o ho
    obtain ⟨i, hi, rfl⟩ := List.getElem_of_mem ho
    obtain ⟨job, hjob⟩ : ∃ job, jobs[i]? = some job :=
      ⟨_, List.getElem?_eq_getElem (h.length_outcomes ▸ hi)⟩
    have hresult {turns : List (Turn ι)} {t : Turn ι} (hturns : turns ∈ shifts) (ht : t ∈ turns) :=
      h.result_of_completed hvalid hall (List.mem_flatten.mpr ⟨turns, hturns, ht⟩)
    obtain ⟨_, -, turns, hturns, -, hcases⟩ := h.outcome_cases hjob
    obtain ⟨⟨t, ht, hlost⟩, -⟩ | ⟨_, turn, _, result, rfl, -, -, hturn, hout⟩ := hcases
    · obtain ⟨report, hreport⟩ := hresult hturns ht
      simp [hlost] at hreport
    · obtain ⟨report, hreport⟩ := hresult (t := turn) hturns (by simp)
      rw [hturn] at hreport
      cases hreport
      rw [List.getElem?_eq_getElem hi] at hout
      rw [Option.some.inj hout]
      rfl

end Ledger

end Rollout
