import Mathlib.Data.List.DropRight
import Rollout.Proofs.Rehearsal
import Rollout.Proofs.Resolution
import Rollout.Rehearsal.World

/-!
A request for tasks by name, as a whole: what it is answered with, and when git is asked for the name
of the operator. There are jobs for all the names or for none of them, and of all that is wrong with
a request the answer names the first thing, in an order that does not hang on the names.
-/

namespace Rollout

namespace Text

@[simp] theorem trimChars_trimChars (cs : List Char) : trimChars (trimChars cs) = trimChars cs := by
  have hleft : (trimChars cs).dropWhile isBlank = trimChars cs := by
    rw [List.dropWhile_eq_self_iff]
    intro hl
    have hpre : trimChars cs <+: cs.dropWhile isBlank := List.rdropWhile_prefix ..
    have hl' := hl.trans_le hpre.length_le
    rw [hpre.getElem hl]
    exact List.dropWhile_get_zero_not _ _ hl'
  change ((trimChars cs).dropWhile isBlank).rdropWhile isBlank = _
  rw [hleft]
  exact List.rdropWhile_idempotent ..

@[simp] theorem trim_trim (s : String) : trim (trim s) = trim s := by
  simp [trim]

theorem withoutEnding?_eq_some {ending cs before : List Char}
    (h : withoutEnding? ending cs = some before) : before ++ ending = cs := by
  rw [withoutEnding?] at h
  split at h
  · next hsuffix =>
    obtain ⟨start, rfl⟩ := List.isSuffixOf_iff_suffix.mp hsuffix
    cases h
    simp
  · cases h

end Text

open Rehearsal

def LocalCommand.recorder (answers : List Invocation → Answers) :
    Runner (Rehearsal (List Invocation)) where
  run program args := step fun log => (answers log program args, log ++ [⟨program, args⟩])

theorem LocalCommand.comes_run {answers : List Invocation → Answers}
    {scene : Scene (List Invocation)} (program : String) (args : List String) :
    Comes ((recorder answers).run program args) scene (answers scene.world program args)
      (scene.world ++ [⟨program, args⟩]) :=
  ⟨scene.events, rfl⟩

def Operator.inquiry : Invocation := ⟨"git", ["config", "user.name"]⟩

theorem Operator.comes_holderName {o : Operator} {answers : List Invocation → LocalCommand.Answers}
    {scene : Scene (List Invocation)} :
    Comes (o.holderName (LocalCommand.recorder answers)) scene (o.holder (answers scene.world))
      (if o.lockoutName = none then scene.world ++ [inquiry] else scene.world) := by
  rw [holder, holderName, holderName]
  cases o.lockoutName with
  | some name => exact comes_pure ..
  | none =>
    refine (LocalCommand.comes_run "git" ["config", "user.name"]).bind fun events => ?_
    dsimp only [Bind.bind]
    cases answers scene.world "git" ["config", "user.name"] with
    | error fault => exact comes_pure ..
    | ok output => exact comes_pure ..

namespace Task

variable {plan : Plan} {project holder : String} {inputs : Inputs} {operator : Operator}
  {answers : List Invocation → LocalCommand.Answers} {scene : Scene (List Invocation)}
  {tasks : List (Task × Plan.Destination)}

theorem comes_holderFor :
    Comes (holderFor tasks operator (LocalCommand.recorder answers)) scene
      (holderOf tasks operator (answers scene.world))
      (if (tasks.any fun (t, d) => t.claims d) ∧ operator.lockoutName = none
        then scene.world ++ [Operator.inquiry] else scene.world) := by
  rw [holderFor, holderOf]
  cases tasks.any fun (t, d) => t.claims d with
  | true =>
    simp only [if_true, true_and]
    exact Operator.comes_holderName.bind fun events => comes_pure ..
  | false => exact comes_pure ..

theorem comes_build :
    Comes (build plan project holder inputs tasks) scene
      (tasks.mapM (jobOf plan project holder inputs)) scene.world := by
  induction tasks generalizing scene with
  | nil => exact comes_pure ..
  | cons found rest ih =>
    obtain ⟨t, d⟩ := found
    rw [build, List.mapM_cons, jobOf]
    cases plan.remote? d.remote with
    | none => exact comes_pure ..
    | some remote =>
      refine (comes_note _ scene).bind fun events => ?_
      dsimp only
      cases (t.draft d remote project holder inputs).build with
      | error e => exact comes_pure ..
      | ok job =>
        refine ih.bind fun events => ?_
        cases rest.mapM (jobOf plan project holder inputs) <;> exact comes_pure ..

def Known (plan : Plan) (name : String) : Prop :=
  ∃ t d, parse? name = some t ∧ plan.destination? t.destination = some d

/-- A name that stands for a task whose lock is claimed. -/
def Claims (plan : Plan) (name : String) : Prop :=
  ∃ t d l, parse? name = some t ∧ plan.destination? t.destination = some d ∧
    t.variant = .locking ∧ d.lock = some l ∧ l.checkOnly = false

def Inputs.Nameless (inputs : Inputs) : Prop :=
  (∀ name, inputs.projectName = some name → Text.isVoid name = true) ∧
    projectName? inputs.artifact.path inputs.artifact.version = none

def jobFor (plan : Plan) (inputs : Inputs) (holder name : String) : Except Error Job := do
  let found ← find plan name
  let project ← inputs.project
  jobOf plan project holder inputs found

/-- What must be known before any job is put together. -/
structure Ready (plan : Plan) (names : List String) (inputs : Inputs) (operator : Operator)
    (answers : LocalCommand.Answers) (holder : String) : Prop where
  known : ∀ name ∈ names, Known plan name
  named : ¬ inputs.Nameless
  held : (∃ name ∈ names, Claims plan name) → operator.holder answers = .ok holder
  unheld : (¬ ∃ name ∈ names, Claims plan name) → holder = ""

/-- What a request is answered with. -/
inductive Settles (plan : Plan) (names : List String) (inputs : Inputs) (operator : Operator)
    (answers : LocalCommand.Answers) : Except Error (List Job) → Prop
  | unknown {before name after} : names = before ++ name :: after →
      (∀ other ∈ before, Known plan other) → ¬ Known plan name →
      Settles plan names inputs operator answers (.error (.unknownTask name))
  | nameless : (∀ name ∈ names, Known plan name) → inputs.Nameless →
      Settles plan names inputs operator answers (.error (.projectName inputs.artifact.path))
  | holderless {fault} : (∀ name ∈ names, Known plan name) → ¬ inputs.Nameless →
      (∃ name ∈ names, Claims plan name) → operator.holder answers = .error fault →
      Settles plan names inputs operator answers (.error (.holder fault))
  | unbuilt {holder before name after e} : Ready plan names inputs operator answers holder →
      names = before ++ name :: after →
      (∀ other ∈ before, ∃ job, jobFor plan inputs holder other = .ok job) →
      jobFor plan inputs holder name = .error e →
      Settles plan names inputs operator answers (.error e)
  | built {holder jobs} : Ready plan names inputs operator answers holder →
      List.Forall₂ (fun name job => jobFor plan inputs holder name = .ok job ∧
        job.name = Text.trim name) names jobs →
      Settles plan names inputs operator answers (.ok jobs)

def Inquires (plan : Plan) (names : List String) (operator : Operator)
    (result : Except Error (List Job)) : Prop :=
  (∀ name, result ≠ .error (.unknownTask name)) ∧
    (∀ artifact, result ≠ .error (.projectName artifact)) ∧
    (∃ name ∈ names, Claims plan name) ∧ operator.lockoutName = none

theorem find_eq_ok {name : String} {t : Task} {d : Plan.Destination} :
    find plan name = .ok (t, d) ↔
      parse? name = some t ∧ plan.destination? t.destination = some d := by
  rw [find]
  cases parse? name with
  | none => simp
  | some t' =>
    cases hd : plan.destination? t'.destination with
    | none =>
      simp only [Option.bind_some, hd, Option.map_none, reduceCtorEq, Option.some.injEq, false_iff]
      rintro ⟨rfl, h⟩
      simp [hd] at h
    | some d' =>
      simp only [Option.bind_some, hd, Option.map_some, Except.ok.injEq, Prod.mk.injEq,
        Option.some.injEq]
      constructor
      · rintro ⟨rfl, rfl⟩
        exact ⟨rfl, hd⟩
      · rintro ⟨rfl, h⟩
        exact ⟨rfl, by simpa [hd] using h⟩

theorem known_iff {name : String} : Known plan name ↔ ∃ found, find plan name = .ok found := by
  simp [Known, Prod.exists, find_eq_ok]

theorem find_eq_error {name : String} {e : Error} (h : find plan name = .error e) :
    ¬ Known plan name ∧ e = .unknownTask name := by
  refine ⟨fun hknown => ?_, ?_⟩
  · obtain ⟨found, hfound⟩ := known_iff.mp hknown
    rw [h] at hfound
    cases hfound
  · rw [find] at h
    split at h <;> cases h
    rfl

theorem claims_iff {name : String} {t : Task} {d : Plan.Destination}
    (h : find plan name = .ok (t, d)) : Claims plan name ↔ t.claims d = true := by
  obtain ⟨ht, hd⟩ := find_eq_ok.mp h
  simp only [Claims, ht, Option.some.injEq, claims, lockOf]
  cases hv : t.variant with
  | locking =>
    simp [hd, hv, Option.any_eq_true]
  | plain => simp [hv]

theorem known_of_found {names : List String}
    (h : List.Forall₂ (fun name found => find plan name = .ok found) names tasks) :
    ∀ name ∈ names, Known plan name := by
  induction h with
  | nil => simp
  | cons hfirst _ ih => exact List.forall_mem_cons.mpr ⟨known_iff.mpr ⟨_, hfirst⟩, ih⟩

theorem any_claims_iff {names : List String}
    (h : List.Forall₂ (fun name found => find plan name = .ok found) names tasks) :
    (tasks.any fun (t, d) => t.claims d) = true ↔ ∃ name ∈ names, Claims plan name := by
  induction h with
  | nil => simp
  | cons hfirst _ ih =>
    rw [List.any_cons, Bool.or_eq_true, ← claims_iff hfirst, ih]
    simp

theorem project_eq_error {e : Error} (h : inputs.project = .error e) :
    inputs.Nameless ∧ e = .projectName inputs.artifact.path := by
  rw [Inputs.project] at h
  split at h
  · cases h
  · next hgiven =>
    split at h
    · cases h
    · next hderived =>
      cases h
      refine ⟨⟨fun name hname => ?_, hderived⟩, rfl⟩
      simpa [hname] using hgiven

theorem not_nameless {project : String} (h : inputs.project = .ok project) : ¬ inputs.Nameless := by
  rintro ⟨hgiven, hderived⟩
  have hnone : (inputs.projectName.filter fun name => !Text.isVoid name) = none := by
    simpa [Option.filter_eq_none_iff] using hgiven
  rw [Inputs.project, hnone, hderived] at h
  cases h

theorem name_of_parse {name : String} {t : Task} (h : parse? name = some t) :
    t.name = Text.trim name := by
  have named {variant : Variant} {cs : List Char} {t : Task} (h : ofVariant? variant cs = some t) :
      t.name = .ofList cs := by
    obtain ⟨before, hbefore, rfl⟩ := Option.map_eq_some_iff.mp h
    have hcs := Text.withoutEnding?_eq_some hbefore
    rw [← hcs, String.ofList_append, String.ofList_toList]
    rfl
  rw [parse?, Option.filter_eq_some_iff] at h
  obtain ⟨h, -⟩ := h
  cases hlocking : ofVariant? .locking (Text.trimChars name.toList) with
  | some t' =>
    rw [hlocking] at h
    cases h
    exact named hlocking
  | none =>
    rw [hlocking] at h
    exact named h

theorem name_of_jobFor {name : String} {job : Job} (h : jobFor plan inputs holder name = .ok job) :
    job.name = Text.trim name := by
  obtain ⟨⟨t, d⟩, hfound, h⟩ := ok_of_bind h
  obtain ⟨project, -, h⟩ := ok_of_bind h
  rw [jobOf] at h
  split at h
  · cases h
  · obtain ⟨_, -, rfl⟩ := ok_of_map (ok_of_mapError h)
    change Text.trim t.name = _
    rw [name_of_parse (find_eq_ok.mp hfound).1, Text.trim_trim]

theorem jobOf_eq_error {found : Task × Plan.Destination} {e : Error}
    (h : jobOf plan project holder inputs found = .error e) :
    (∀ name, e ≠ .unknownTask name) ∧ ∀ artifact, e ≠ .projectName artifact := by
  rw [jobOf] at h
  split at h
  · cases h
    simp
  · next remote _ =>
    cases hbuild : (found.1.draft found.2 remote project holder inputs).build with
    | error invalid =>
      rw [hbuild] at h
      cases h
      simp
    | ok job =>
      rw [hbuild] at h
      cases h

theorem jobFor_eq {project : String} (h : inputs.project = .ok project) :
    jobFor plan inputs holder = fun name => find plan name >>= jobOf plan project holder inputs := by
  funext name
  rw [jobFor, h]
  rfl

theorem settles_of_ready {names : List String} {answers : LocalCommand.Answers} {project : String}
    (hready : Ready plan names inputs operator answers holder) (hproject : inputs.project = .ok project)
    (hfound : List.Forall₂ (fun name found => find plan name = .ok found) names tasks) :
    Settles plan names inputs operator answers (tasks.mapM (jobOf plan project holder inputs)) := by
  rw [← mapM_bind_of_forall₂ hfound, ← jobFor_eq hproject]
  cases hjobs : names.mapM (jobFor plan inputs holder) with
  | error e =>
    obtain ⟨before, name, after, hnames, hbefore, hname⟩ := error_of_mapM hjobs
    exact .unbuilt hready hnames hbefore hname
  | ok jobs =>
    exact .built hready ((forall₂_of_mapM hjobs).imp fun _ _ h => ⟨h, name_of_jobFor h⟩)

def settle (plan : Plan) (project : String) (inputs : Inputs) (operator : Operator)
    (answers : LocalCommand.Answers) (tasks : List (Task × Plan.Destination)) :
    Except Error (List Job) := do
  let holder ← holderOf tasks operator answers
  tasks.mapM (jobOf plan project holder inputs)

theorem settles_of_found {names : List String} {answers : LocalCommand.Answers} {project : String}
    (hproject : inputs.project = .ok project)
    (hfound : List.Forall₂ (fun name found => find plan name = .ok found) names tasks) :
    Settles plan names inputs operator answers (settle plan project inputs operator answers tasks) := by
  have hknown := known_of_found hfound
  have hnamed := not_nameless hproject
  have hclaims := any_claims_iff hfound
  rw [settle, holderOf]
  by_cases hany : (tasks.any fun (t, d) => t.claims d) = true
  · rw [if_pos hany]
    have hclaimed := hclaims.mp hany
    cases hheld : operator.holder answers with
    | error fault => exact .holderless hknown hnamed hclaimed hheld
    | ok holder =>
      exact settles_of_ready ⟨hknown, hnamed, fun _ => hheld, fun h => absurd hclaimed h⟩ hproject hfound
  · rw [if_neg hany]
    have hunclaimed := mt hclaims.mpr hany
    exact settles_of_ready ⟨hknown, hnamed, fun h => absurd h hunclaimed, fun _ => rfl⟩ hproject hfound

theorem settle_ne {answers : LocalCommand.Answers} :
    (∀ name, settle plan project inputs operator answers tasks ≠ .error (.unknownTask name)) ∧
      ∀ artifact, settle plan project inputs operator answers tasks ≠ .error (.projectName artifact) := by
  rw [settle]
  cases hholder : holderOf tasks operator answers with
  | error e =>
    rw [holderOf] at hholder
    split at hholder
    · cases hheld : operator.holder answers with
      | error fault =>
        rw [hheld] at hholder
        cases hholder
        simp [Bind.bind, Except.bind]
      | ok holder =>
        rw [hheld] at hholder
        cases hholder
    · cases hholder
  | ok holder =>
    change (∀ name, tasks.mapM (jobOf plan project holder inputs) ≠ _) ∧
      ∀ artifact, tasks.mapM (jobOf plan project holder inputs) ≠ _
    cases hjobs : tasks.mapM (jobOf plan project holder inputs) with
    | error e =>
      obtain ⟨_, found, _, -, -, hfound⟩ := error_of_mapM hjobs
      simpa using jobOf_eq_error hfound
    | ok jobs => simp

theorem comes_settle :
    Comes (do
      match ← holderFor tasks operator (LocalCommand.recorder answers) with
      | .error e => return .error e
      | .ok holder => build plan project holder inputs tasks) scene
      (settle plan project inputs operator (answers scene.world) tasks)
      (if (tasks.any fun (t, d) => t.claims d) ∧ operator.lockoutName = none
        then scene.world ++ [Operator.inquiry] else scene.world) := by
  refine comes_holderFor.bind fun events => ?_
  rw [settle]
  cases holderOf tasks operator (answers scene.world) with
  | error e => exact comes_pure ..
  | ok holder => exact comes_build

theorem comes_resolve_iff {names : List String} {result : Except Error (List Job)} :
    (∃ log, Comes (resolve plan names inputs operator (LocalCommand.recorder answers)) scene result log) ↔
      jobsOf plan names inputs operator (answers scene.world) = result := by
  have hcomes : ∃ log, Comes (resolve plan names inputs operator (LocalCommand.recorder answers)) scene
      (jobsOf plan names inputs operator (answers scene.world)) log := by
    rw [resolve, jobsOf]
    cases names.mapM (find plan) with
    | error e => exact ⟨_, comes_pure ..⟩
    | ok tasks =>
      cases inputs.project with
      | error e => exact ⟨_, comes_pure ..⟩
      | ok project => exact ⟨_, comes_settle⟩
  constructor
  · rintro ⟨log, h⟩
    obtain ⟨log', h'⟩ := hcomes
    exact (h'.unique h).1
  · rintro rfl
    exact hcomes

theorem job_of_jobOf {t : Task} {d : Plan.Destination} {job : Job}
    (h : jobOf plan project holder inputs (t, d) = .ok job) :
    ∃ remote, plan.remote? d.remote = some remote ∧
      job = ⟨Text.trim t.name, remote.target, remote.credentials, inputs.artifact, d.paths,
        modeOf d project, (lockOf t.variant d).map (·.request holder inputs.lockNote)⟩ := by
  rw [jobOf] at h
  split at h
  · cases h
  · next remote hremote =>
    obtain ⟨_, -, rfl⟩ := ok_of_map (ok_of_mapError h)
    exact ⟨remote, hremote, rfl⟩

/-- Every request is settled: it is answered with one job for each name, or with the first thing that
is wrong. Git is asked who the operator is once, and only when that has to be known. -/
theorem resolve_settles (plan : Plan) (names : List String) (inputs : Inputs) (operator : Operator)
    (answers : List Invocation → LocalCommand.Answers) (scene : Scene (List Invocation)) :
    ∃ result log,
      Comes (resolve plan names inputs operator (LocalCommand.recorder answers)) scene result log ∧
        Settles plan names inputs operator (answers scene.world) result ∧
        (Inquires plan names operator result →
          log = scene.world ++ [⟨"git", ["config", "user.name"]⟩]) ∧
        (¬ Inquires plan names operator result → log = scene.world) := by
  rw [resolve]
  cases hfind : names.mapM (find plan) with
  | error e =>
    obtain ⟨before, name, after, hnames, hbefore, hname⟩ := error_of_mapM hfind
    obtain ⟨hunknown, rfl⟩ := find_eq_error hname
    exact ⟨_, _, comes_pure .., .unknown hnames (fun other ho => known_iff.mpr (hbefore other ho)) hunknown,
      fun h => absurd rfl (h.1 name), fun _ => rfl⟩
  | ok tasks =>
    have hfound := forall₂_of_mapM hfind
    have hknown := known_of_found hfound
    cases hproject : inputs.project with
    | error e =>
      obtain ⟨hnameless, rfl⟩ := project_eq_error hproject
      exact ⟨_, _, comes_pure .., .nameless hknown hnameless, fun h => absurd rfl (h.2.1 _), fun _ => rfl⟩
    | ok project =>
      refine ⟨_, _, comes_settle, settles_of_found hproject hfound, fun h => ?_, fun h => ?_⟩
      · rw [if_pos ⟨(any_claims_iff hfound).mpr h.2.2.1, h.2.2.2⟩]
        rfl
      · rw [if_neg]
        rintro ⟨hany, hunset⟩
        exact h ⟨settle_ne.1, settle_ne.2, (any_claims_iff hfound).mp hany, hunset⟩

end Task

end Rollout
