import Rollout.Proofs.Course

/-!
Opening a connection. The target and the credentials are looked at without asking anybody; when
nothing speaks against it, one connect is asked for.
-/

namespace Rollout

open Program

variable {ι : Type} {cs : List (Exchange ι)} {files : FileSystem} {operator : Operator}

namespace Credential

theorem Provider.does_attempt {p : Provider} {o : Option Outcome} :
    (p.attempt files operator : Program ι Outcome).Does cs o ↔
      cs = [] ∧ o = some (p.outcome files operator) := by
  rw [attempt]
  cases h : p.outcome files operator with
  | accepted identity => exact does_pure
  | skipped why =>
    cases hevent : why.event? with
    | none => simp [hevent]
    | some event => simp [hevent, does_note_bind]

namespace Chain

def yield (files : FileSystem) (operator : Operator) : List Provider → List Resolved
  | [] => []
  | p :: rest =>
    match p.outcome files operator with
    | .skipped _ => yield files operator rest
    | .accepted identity =>
      if p.continueOnSuccess then ⟨p.name, identity⟩ :: yield files operator rest
      else [⟨p.name, identity⟩]

theorem does_collect {providers : List Provider} {o : Option (List Resolved)} :
    (collect files operator providers : Program ι (List Resolved)).Does cs o ↔
      cs = [] ∧ o = some (yield files operator providers) := by
  induction providers generalizing cs o with
  | nil => exact does_pure
  | cons p rest ih =>
    rw [collect, yield, does_bind_of_quiet Provider.does_attempt]
    cases p.outcome files operator with
    | skipped why => exact does_note_bind.trans ih
    | accepted identity =>
      refine does_note_bind.trans ?_
      cases p.continueOnSuccess with
      | true => exact (does_bind_of_quiet ih).trans does_pure
      | false => exact does_pure

theorem does_resolve {chain : Chain} {o : Option (List Resolved)} :
    (chain.resolve files operator : Program ι (List Resolved)).Does cs o ↔
      cs = [] ∧ o = some (yield files operator chain.providers) := by
  rw [resolve, Stage.info, does_note_bind]
  exact does_collect

end Chain

end Credential

namespace Connection

theorem does_noteRejected {identities : List Credential.Resolved} {o : Option Unit} :
    (noteRejected identities : Program ι Unit).Does cs o ↔ cs = [] ∧ o = some () := by
  induction identities with
  | nil => exact does_pure
  | cons r rest ih =>
    rw [noteRejected, Stage.info, does_note_bind]
    exact ih

/-- What is asked of the remote host to open a connection, or why nothing is asked. -/
def vet (files : FileSystem) (operator : Operator) (target : Target) (chain : Credential.Chain) :
    Except Error ConnectRequest :=
  if target.hostKeyPolicy = .allowAny then
    let identities := Credential.Chain.yield files operator chain.providers
    if identities.isEmpty then .error (.authExhausted (toString target))
    else match target.user.orElse fun _ => operator.login with
      | none => .error (.missingUser (toString target))
      | some user => .ok { target, user, identities }
  else .error (.unsupportedHostKeyPolicy (toString target) target.hostKeyPolicy.label)

theorem target_of_vet {target : Target} {chain : Credential.Chain} {request : ConnectRequest}
    (h : vet files operator target chain = .ok request) : request.target = target := by
  unfold vet at h
  split at h
  · dsimp only at h
    split at h
    · cases h
    · split at h <;> cases h
      rfl
  · cases h

def opened (polling : Polling) (request : ConnectRequest) :
    Except Failure ι → Except Error (Connection ι)
  | .error failure => .error (.connectionFailed (toString request.target) failure)
  | .ok session => .ok ⟨request.target, request.user, session, polling⟩

theorem does_establish {polling : Polling} {target : Target} {chain : Credential.Chain}
    {o : Option (Except Error (Connection ι))} :
    (establish transport files operator polling target chain).Does cs o ↔
      match vet files operator target chain with
      | .error e => cs = [] ∧ o = some (.error e)
      | .ok request => ∃ r, cs = [⟨.connect request, r⟩] ∧ o = r.map (opened polling request) := by
  rw [establish, Stage.info, does_note_bind]
  cases hpolicy : target.hostKeyPolicy with
  | allowAny =>
    have hcheck {cs o} : (checkHostKeyPolicy target : Program ι _).Does cs o ↔
        cs = [] ∧ o = some (.ok ()) := by
      rw [checkHostKeyPolicy, hpolicy]
      exact does_note_bind.trans does_pure
    refine (does_bind_of_quiet hcheck).trans ((does_bind_of_quiet Credential.Chain.does_resolve).trans ?_)
    rw [vet, if_pos hpolicy]
    by_cases hempty : (Credential.Chain.yield files operator chain.providers).isEmpty
    · simp only [hempty, if_true]
      exact does_note_bind.trans does_pure
    · simp only [hempty, Bool.false_eq_true, if_false]
      cases target.user.orElse fun _ => operator.login with
      | none => exact does_pure
      | some user =>
        refine does_call_bind.trans (exists_congr fun r => ?_)
        rcases r with _ | failure | session
        · simp [calls_cons, Ask.isCall]
        · cases failure with
          | authRejected user' =>
            simp [calls_cons, Ask.isCall, opened, does_bind_of_quiet does_noteRejected]
          | _ => simp [calls_cons, Ask.isCall, opened]
        · simp [calls_cons, Ask.isCall, opened, Stage.info, does_note_bind]
  | _ =>
    rw [vet, if_neg (by simp [hpolicy]), checkHostKeyPolicy, hpolicy]
    exact (does_bind_of_quiet does_pure).trans does_pure

def Names (target : Target) (operator : Operator) (user : String) : Prop :=
  target.user = some user ∨ target.user = none ∧ operator.login = some user

/-- How an opening goes. The gates are the host key policy, the identities and the user, in this
order; past the last one a connect is asked for, and its answer ends the opening. -/
inductive Opens (operator : Operator) (polling : Polling) (target : Target)
    (identities : List Credential.Resolved) :
    List (Exchange ι) → Option (Except Error (Connection ι)) → Prop
  | policy : target.hostKeyPolicy ≠ .allowAny →
      Opens operator polling target identities []
        (some (.error (.unsupportedHostKeyPolicy (toString target) target.hostKeyPolicy.label)))
  | identities : target.hostKeyPolicy = .allowAny → identities = [] →
      Opens operator polling target identities [] (some (.error (.authExhausted (toString target))))
  | user : target.hostKeyPolicy = .allowAny → identities ≠ [] →
      target.user = none → operator.login = none →
      Opens operator polling target identities [] (some (.error (.missingUser (toString target))))
  | stopped {user} : target.hostKeyPolicy = .allowAny → identities ≠ [] → Names target operator user →
      Opens operator polling target identities [⟨.connect ⟨target, user, identities, false⟩, none⟩] none
  | failed {user failure} : target.hostKeyPolicy = .allowAny → identities ≠ [] →
      Names target operator user →
      Opens operator polling target identities
        [⟨.connect ⟨target, user, identities, false⟩, some (.error failure)⟩]
        (some (.error (.connectionFailed (toString target) failure)))
  | opened {user session} : target.hostKeyPolicy = .allowAny → identities ≠ [] →
      Names target operator user →
      Opens operator polling target identities
        [⟨.connect ⟨target, user, identities, false⟩, some (.ok session)⟩]
        (some (.ok ⟨target, user, session, polling⟩))

theorem names_of_orElse {target : Target} {user : String}
    (h : (target.user.orElse fun _ => operator.login) = some user) : Names target operator user :=
  (Option.orElse_eq_some ..).mp h

theorem opens_of_does {polling : Polling} {target : Target} {chain : Credential.Chain}
    {o : Option (Except Error (Connection ι))}
    (h : (establish transport files operator polling target chain).Does cs o) :
    Opens operator polling target (Credential.Chain.yield files operator chain.providers) cs o := by
  rw [does_establish, vet] at h
  by_cases hpolicy : target.hostKeyPolicy = .allowAny
  · rw [if_pos hpolicy] at h
    by_cases hnone : (Credential.Chain.yield files operator chain.providers).isEmpty
    · simp only [hnone, if_true] at h
      obtain ⟨rfl, rfl⟩ := h
      exact .identities hpolicy (List.isEmpty_iff.mp hnone)
    · have hsome := mt List.isEmpty_iff.mpr hnone
      simp only [hnone] at h
      cases huser : target.user.orElse fun _ => operator.login with
      | none =>
        rw [huser] at h
        obtain ⟨rfl, rfl⟩ := h
        obtain ⟨htarget, hlogin⟩ := (Option.orElse_eq_none ..).mp huser
        exact .user hpolicy hsome htarget hlogin
      | some user =>
        rw [huser] at h
        obtain ⟨_ | failure | session, rfl, rfl⟩ := h
        · exact .stopped hpolicy hsome (names_of_orElse huser)
        · exact .failed hpolicy hsome (names_of_orElse huser)
        · exact .opened hpolicy hsome (names_of_orElse huser)
  · rw [if_neg hpolicy] at h
    obtain ⟨rfl, rfl⟩ := h
    exact .policy hpolicy

theorem Opens.calls_ne_nil_iff {polling : Polling} {target : Target}
    {identities : List Credential.Resolved} {o : Option (Except Error (Connection ι))}
    (h : Opens operator polling target identities cs o) :
    cs ≠ [] ↔ target.hostKeyPolicy = .allowAny ∧ identities ≠ [] ∧ ∃ user, Names target operator user := by
  cases h with
  | policy hpolicy => simp [hpolicy]
  | identities _ hnone => simp [hnone]
  | user _ _ htarget hlogin => simp [Names, htarget, hlogin]
  | stopped hpolicy hsome huser => simpa [hpolicy, hsome] using ⟨_, huser⟩
  | failed hpolicy hsome huser => simpa [hpolicy, hsome] using ⟨_, huser⟩
  | opened hpolicy hsome huser => simpa [hpolicy, hsome] using ⟨_, huser⟩

theorem establish_of_verified {polling : Polling} {target : Target} (chain : Credential.Chain)
    (h : target.hostKeyPolicy ≠ .allowAny) :
    (establish transport files operator polling target chain : Program ι _) = do
      Stage.info ("Connecting to " ++ toString target ++ " (shardeploy " ++ version ++ ")")
      return .error (.unsupportedHostKeyPolicy (toString target) target.hostKeyPolicy.label) := by
  rw [establish, checkHostKeyPolicy]
  cases hpolicy : target.hostKeyPolicy with
  | allowAny => exact absurd hpolicy h
  | trustOnFirstUse => rfl
  | strict knownHosts => rfl

/-- A connect is asked for once at most, and just when the host key need not be checked, the chain
resolves to some identity, and somebody is named to log in. Otherwise the first gate that is shut
gives the error; the policy is looked at before any credential is. -/
theorem establish_gates (files : FileSystem) (operator : Operator) (polling : Polling)
    (target : Target) (chain : Credential.Chain) (w : World ι) (past : List (Exchange ι)) :
    let identities := Credential.Chain.yield files operator chain.providers
    let opening := (establish transport files operator polling target chain).play w past
    (∀ cs o, (chain.resolve files operator : Program ι _).Does cs o ↔ cs = [] ∧ o = some identities) ∧
      (∃ t, opening.2 = past ++ t ∧ (∀ x ∈ t, ∃ before, x.2 = w before x.1) ∧
        Opens operator polling target identities (calls t) opening.1 ∧
        (calls t ≠ [] ↔ target.hostKeyPolicy = .allowAny ∧ identities ≠ [] ∧
          ∃ user, Names target operator user)) ∧
      (target.hostKeyPolicy ≠ .allowAny → ∀ files' operator' chain',
        (establish transport files' operator' polling target chain').play w past = opening) := by
  intro identities opening
  refine ⟨fun _ _ => Credential.Chain.does_resolve, ?_, fun hpolicy files' operator' chain' => ?_⟩
  · obtain ⟨t, ht, hdoes, hw⟩ :=
      does_play w (establish transport files operator polling target chain) past
    have hopens := opens_of_does hdoes
    exact ⟨t, ht, hw, hopens, hopens.calls_ne_nil_iff⟩
  · rw [establish_of_verified chain' hpolicy, ← establish_of_verified chain hpolicy]

end Connection

theorem Deployer.does_connect {s : Settings} {job : Job}
    {o : Option (Except DeployError (Connection ι))} :
    (s.deployer.connect job).Does cs o ↔
      match Connection.vet s.files s.operator job.target job.credentials with
      | .error e => cs = [] ∧ o = some (.error (.connection e))
      | .ok request => ∃ r, cs = [⟨.connect request, r⟩] ∧
        o = (r.map (Connection.opened s.polling request)).map (·.mapError .connection) := by
  refine (does_bind_quiet does_pure).trans ?_
  simp only [Settings.deployer, Connection.does_establish]
  cases Connection.vet s.files s.operator job.target job.credentials with
  | error e => simp [Except.mapError]
  | ok request => simp

theorem Deployer.connection_of_does_connect {s : Settings} {job : Job} {e : DeployError}
    (h : (s.deployer.connect job : Program ι _).Does cs (some (.error e))) :
    ∃ error, e = .connection error := by
  rw [does_connect] at h
  cases hvet : Connection.vet s.files s.operator job.target job.credentials with
  | error error =>
    rw [hvet] at h
    cases h.2
    exact ⟨error, rfl⟩
  | ok request =>
    rw [hvet] at h
    obtain ⟨_ | failure | session, -, ho⟩ := h <;> cases ho
    exact ⟨_, rfl⟩

end Rollout
