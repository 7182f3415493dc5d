import Rollout.Proofs.Listing

/-!
What can still be wrong with the jobs of a plan that was accepted. The plan answers for the name, the
remote and the directories of every job, so that a job is only ever refused for what the request
itself brings: the version, the archive, and the name of the project.
-/

namespace Rollout

open Rehearsal

namespace Task

variable {plan : Plan} {project holder : String} {inputs : Inputs} {operator : Operator}
  {answers : LocalCommand.Answers} {t : Task} {d : Plan.Destination} {remote : Plan.Remote}

/-- A destination where the project gives its name to the archives or to the link. -/
def NamedByProject (d : Plan.Destination) : Prop := d.mode = .overwrite ∨ d.linkName = none

/-- What a request spoils the job of a destination with. Each cause counts when those before it do
not hold. -/
inductive Spoils (inputs : Inputs) (project : String) (d : Plan.Destination) : Job.Flaw → Prop
  | version : Text.isVoid inputs.artifact.version = true → Spoils inputs project d .emptyVersion
  | archive : Text.isVoid inputs.artifact.version = false → inputs.artifact.fileName = none →
      Spoils inputs project d .namelessArtifact
  | project : Text.isVoid inputs.artifact.version = false → inputs.artifact.fileName ≠ none →
      NamedByProject d → Text.isVoid project = true → Spoils inputs project d .emptyBase
  | link : Text.isVoid inputs.artifact.version = false →
      (NamedByProject d → Text.isVoid project = false) → d.mode = .symlinkSwap →
      inputs.artifact.fileName = some (d.linkName.getD project ++ ".jar") →
      Spoils inputs project d .linkCollides

theorem exists_spoils_iff : (∃ flaw, Spoils inputs project d flaw) ↔
    Text.isVoid inputs.artifact.version = true ∨ inputs.artifact.fileName = none ∨
      (NamedByProject d ∧ Text.isVoid project = true) ∨
      (d.mode = .symlinkSwap ∧
        inputs.artifact.fileName = some (d.linkName.getD project ++ ".jar")) := by
  constructor
  · rintro ⟨flaw, h⟩
    cases h with
    | version hversion => exact .inl hversion
    | archive _ hfile => exact .inr (.inl hfile)
    | project _ _ hnamed hvoid => exact .inr (.inr (.inl ⟨hnamed, hvoid⟩))
    | link _ _ hmode hfile => exact .inr (.inr (.inr ⟨hmode, hfile⟩))
  · intro h
    cases hversion : Text.isVoid inputs.artifact.version with
    | true => exact ⟨_, .version hversion⟩
    | false =>
      by_cases hfile : inputs.artifact.fileName = none
      · exact ⟨_, .archive hversion hfile⟩
      by_cases hproject : NamedByProject d ∧ Text.isVoid project = true
      · exact ⟨_, .project hversion hfile hproject.1 hproject.2⟩
      have hlink : d.mode = .symlinkSwap ∧ _ :=
        ((h.resolve_left (by simp [hversion])).resolve_left hfile).resolve_left hproject
      refine ⟨_, .link hversion (fun hnamed => ?_) hlink.1 hlink.2⟩
      exact Bool.eq_false_iff.mpr fun hvoid => hproject ⟨hnamed, hvoid⟩

def asked (t : Task) (d : Plan.Destination) (remote : Plan.Remote) (project holder : String)
    (inputs : Inputs) : Job :=
  ⟨Text.trim t.name, remote.target, remote.credentials, inputs.artifact, d.paths, modeOf d project,
    (lockOf t.variant d).map (·.request holder inputs.lockNote)⟩

theorem jobOf_eq (h : plan.remote? d.remote = some remote) :
    jobOf plan project holder inputs (t, d) =
      ((asked t d remote project holder inputs).validate.map fun _ =>
        asked t d remote project holder inputs).mapError .job := by
  rw [jobOf, h]
  rfl

theorem isVoid_name (t : Task) : Text.isVoid (Text.trim t.name) = false := by
  obtain ⟨middle, last, hsuffix, -⟩ := t.variant.suffix_eq
  have hdash : Text.isBlank '-' = false := by decide
  rw [Text.isVoid, Text.trim, String.toList_ofList, trimChars_name, hsuffix]
  simp [hdash]

theorem isVoid_base_iff (project : String)
    (hlink : ∀ link, d.linkName = some link → Text.isVoid link = false) :
    Text.isVoid (modeOf d project).base = true ↔ NamedByProject d ∧ Text.isVoid project = true := by
  rw [modeOf, NamedByProject]
  cases d.mode with
  | overwrite => simp [DeployMode.base]
  | symlinkSwap =>
    cases hname : d.linkName with
    | none => simp [DeployMode.base]
    | some link => simp [DeployMode.base, hlink link hname]

theorem linkShadowsArtifact_iff (t : Task) (d : Plan.Destination) (remote : Plan.Remote)
    (project holder : String) (inputs : Inputs) :
    (asked t d remote project holder inputs).linkShadowsArtifact = true ↔
      d.mode = .symlinkSwap ∧
        inputs.artifact.fileName = some (d.linkName.getD project ++ ".jar") := by
  rw [Job.linkShadowsArtifact, asked, modeOf]
  cases d.mode with
  | overwrite => simp
  | symlinkSwap => simp

theorem flaw?_asked (t : Task) (remote : Plan.Remote) (project holder : String) (inputs : Inputs)
    (hcoherent : plan.Coherent) (hd : d ∈ plan.destinations) (flaw : Job.Flaw) :
    (asked t d remote project holder inputs).flaw? = some flaw ↔ Spoils inputs project d flaw := by
  have hname : ¬ Text.isVoid (asked t d remote project holder inputs).name = true := by
    simpa [asked] using isVoid_name t
  have hsomewhere : ¬ (asked t d remote project holder inputs).remotePaths.isEmpty = true := by
    simpa [asked] using hcoherent.somewhere d hd
  have hpaths : ¬ (asked t d remote project holder inputs).remotePaths.any Text.isVoid = true := by
    simpa [asked] using hcoherent.paths d hd
  have hbase := isVoid_base_iff project (hcoherent.links d hd)
  have hshadows := linkShadowsArtifact_iff t d remote project holder inputs
  rw [Job.flaw?, if_neg hname, if_neg hsomewhere, if_neg hpaths]
  change (if Text.isVoid inputs.artifact.version = true then some Job.Flaw.emptyVersion
    else if inputs.artifact.fileName.isNone = true then some .namelessArtifact
    else if Text.isVoid (modeOf d project).base = true then some .emptyBase
    else if (asked t d remote project holder inputs).linkShadowsArtifact = true then some .linkCollides
    else none) = some flaw ↔ _
  constructor
  · intro h
    split_ifs at h with hversion hfile hproject hlink
    · cases h
      exact .version hversion
    · cases h
      exact .archive (Bool.eq_false_iff.mpr hversion) (Option.isNone_iff_eq_none.mp hfile)
    · cases h
      obtain ⟨hnamed, hvoid⟩ := hbase.mp hproject
      exact .project (Bool.eq_false_iff.mpr hversion) (mt Option.isNone_iff_eq_none.mpr hfile) hnamed hvoid
    · cases h
      obtain ⟨hmode, hfile⟩ := hshadows.mp hlink
      refine .link (Bool.eq_false_iff.mpr hversion) (fun hnamed => ?_) hmode hfile
      exact Bool.eq_false_iff.mpr fun hvoid => hproject (hbase.mpr ⟨hnamed, hvoid⟩)
  · intro h
    cases h with
    | version hversion => simp [hversion]
    | archive hversion hfile => simp [hversion, hfile]
    | project hversion hfile hnamed hvoid => simp [hversion, hfile, hbase.mpr ⟨hnamed, hvoid⟩]
    | link hversion hnamed hmode hfile =>
      have hproject : ¬ Text.isVoid (modeOf d project).base = true := by
        intro hvoid
        obtain ⟨h, hvoid⟩ := hbase.mp hvoid
        rw [hnamed h] at hvoid
        cases hvoid
      simp [hversion, hfile, hproject, hshadows.mpr ⟨hmode, hfile⟩]

theorem jobOf_settles (project holder : String) (inputs : Inputs) (hcoherent : plan.Coherent)
    {name : String} (hname : find plan name = .ok (t, d)) :
    ∃ remote, plan.remote? d.remote = some remote ∧
      ((jobOf plan project holder inputs (t, d) = .ok (asked t d remote project holder inputs) ∧
        (asked t d remote project holder inputs).validate = .ok () ∧
        ∀ flaw, ¬ Spoils inputs project d flaw) ∨
      ∃ flaw, jobOf plan project holder inputs (t, d) = .error (.job ⟨Text.trim name, flaw⟩) ∧
        (asked t d remote project holder inputs).validate = .error ⟨Text.trim name, flaw⟩ ∧
        Spoils inputs project d flaw) := by
  obtain ⟨ht, hd⟩ := find_eq_ok.mp hname
  have hmem := (hcoherent.destination?_eq_some.mp hd).1
  obtain ⟨remote, hremote⟩ := hcoherent.hosted d hmem
  refine ⟨remote, hremote, ?_⟩
  have hspoils := flaw?_asked t remote project holder inputs hcoherent hmem
  have htrim : Text.trim t.name = Text.trim name := by rw [name_of_parse ht, Text.trim_trim]
  rw [jobOf_eq hremote, Job.validate]
  cases hflaw : (asked t d remote project holder inputs).flaw? with
  | none =>
    refine .inl ⟨rfl, rfl, fun flaw h => ?_⟩
    rw [hflaw] at hspoils
    cases (hspoils flaw).mpr h
  | some flaw =>
    dsimp only
    refine .inr ⟨flaw, ?_, ?_, (hspoils flaw).mp hflaw⟩
    · rw [asked, htrim]
      rfl
    · rw [asked, htrim]

theorem jobsOf_of_ready {names : List String} (hready : Ready plan names inputs operator answers holder)
    (hproject : inputs.project = .ok project) :
    jobsOf plan names inputs operator answers =
      names.mapM fun name => find plan name >>= jobOf plan project holder inputs := by
  have hfound : ∃ tasks, names.mapM (find plan) = .ok tasks := by
    cases hfind : names.mapM (find plan) with
    | ok tasks => exact ⟨tasks, rfl⟩
    | error e =>
      obtain ⟨before, name, after, rfl, -, hname⟩ := error_of_mapM hfind
      exact absurd (hready.known name (by simp)) (find_eq_error hname).1
  obtain ⟨tasks, htasks⟩ := hfound
  have hfound := forall₂_of_mapM htasks
  have hheld : holderOf tasks operator answers = .ok holder := by
    rw [holderOf]
    split
    · rename_i hany
      rw [hready.held ((any_claims_iff hfound).mp hany)]
      rfl
    · rename_i hnone
      rw [hready.unheld (mt (any_claims_iff hfound).mpr hnone)]
  rw [jobsOf, htasks, mapM_bind_of_forall₂ hfound]
  change (inputs.project >>= fun project => holderOf tasks operator answers >>= fun holder =>
    tasks.mapM (jobOf plan project holder inputs)) = _
  rw [hproject, hheld]
  rfl

def Spoiled (plan : Plan) (inputs : Inputs) (project name : String) (flaw : Job.Flaw) : Prop :=
  ∃ t d, find plan name = .ok (t, d) ∧ Spoils inputs project d flaw

theorem exists_spoiled_iff {names : List String} (hnames : names ≠ [])
    (hknown : ∀ name ∈ names, Known plan name) :
    (∃ name ∈ names, ∃ flaw, Spoiled plan inputs project name flaw) ↔
      Text.isVoid inputs.artifact.version = true ∨ inputs.artifact.fileName = none ∨
      (∃ name ∈ names, ∃ t d, find plan name = .ok (t, d) ∧
        NamedByProject d ∧ Text.isVoid project = true) ∨
      ∃ name ∈ names, ∃ t d, find plan name = .ok (t, d) ∧ d.mode = .symlinkSwap ∧
        inputs.artifact.fileName = some (d.linkName.getD project ++ ".jar") := by
  constructor
  · rintro ⟨name, hname, flaw, t, d, hfind, hspoils⟩
    rcases exists_spoils_iff.mp ⟨flaw, hspoils⟩ with hversion | hfile | hproject | hlink
    · exact .inl hversion
    · exact .inr (.inl hfile)
    · exact .inr (.inr (.inl ⟨name, hname, t, d, hfind, hproject⟩))
    · exact .inr (.inr (.inr ⟨name, hname, t, d, hfind, hlink⟩))
  · have spoiled {name : String} {t : Task} {d : Plan.Destination} (hname : name ∈ names)
        (hfind : find plan name = .ok (t, d)) (h : ∃ flaw, Spoils inputs project d flaw) :
        ∃ name ∈ names, ∃ flaw, Spoiled plan inputs project name flaw := by
      obtain ⟨flaw, hspoils⟩ := h
      exact ⟨name, hname, flaw, t, d, hfind, hspoils⟩
    -- a version or an archive spoils every job, so any name will do
    obtain ⟨first, hfirst⟩ := List.exists_mem_of_ne_nil names hnames
    obtain ⟨⟨t, d⟩, hfind⟩ := known_iff.mp (hknown first hfirst)
    rintro (hversion | hfile | ⟨name, hname, t, d, hfind, h⟩ | ⟨name, hname, t, d, hfind, h⟩)
    · exact spoiled hfirst hfind (exists_spoils_iff.mpr (.inl hversion))
    · exact spoiled hfirst hfind (exists_spoils_iff.mpr (.inr (.inl hfile)))
    · exact spoiled hname hfind (exists_spoils_iff.mpr (.inr (.inr (.inl h))))
    · exact spoiled hname hfind (exists_spoils_iff.mpr (.inr (.inr (.inr h))))

/-- The first name whose job is spoiled, with what validation says of that job. -/
structure FirstSpoiled (plan : Plan) (names : List String) (inputs : Inputs) (project holder : String)
    (name : String) (flaw : Job.Flaw) : Prop where
  first : ∃ before after, names = before ++ name :: after ∧
    ∀ other ∈ before, ∀ flaw, ¬ Spoiled plan inputs project other flaw
  spoiled : Spoiled plan inputs project name flaw
  validate : ∃ t d remote, find plan name = .ok (t, d) ∧ plan.remote? d.remote = some remote ∧
    (asked t d remote project holder inputs).validate = .error ⟨Text.trim name, flaw⟩

section Requested

variable {names : List String}

theorem not_spoiled {name : String} (hcoherent : plan.Coherent) {job : Job}
    (h : (find plan name >>= jobOf plan project holder inputs) = .ok job) :
    job.validate = .ok () ∧ ∀ flaw, ¬ Spoiled plan inputs project name flaw := by
  obtain ⟨⟨t, d⟩, hfind, hjob⟩ := ok_of_bind h
  obtain ⟨remote, -, ⟨hmade, hvalid, hfit⟩ | ⟨flaw, hmade, -, -⟩⟩ :=
    jobOf_settles project holder inputs hcoherent hfind
  · rw [hmade] at hjob
    cases hjob
    refine ⟨hvalid, ?_⟩
    rintro flaw ⟨t', d', hfind', hspoils⟩
    rw [hfind] at hfind'
    cases hfind'
    exact hfit flaw hspoils
  · rw [hmade] at hjob
    cases hjob

theorem firstSpoiled_of_error (hcoherent : plan.Coherent) (hknown : ∀ name ∈ names, Known plan name)
    {e : Error} (h : (names.mapM fun name => find plan name >>= jobOf plan project holder inputs) =
      .error e) :
    ∃ name flaw, e = .job ⟨Text.trim name, flaw⟩ ∧
      FirstSpoiled plan names inputs project holder name flaw := by
  obtain ⟨before, name, after, hnames, hbefore, hname⟩ := error_of_mapM h
  obtain ⟨⟨t, d⟩, hfind⟩ := known_iff.mp (hknown name (by simp [hnames]))
  rw [hfind] at hname
  change jobOf plan project holder inputs (t, d) = _ at hname
  have hfirst (other : String) (hother : other ∈ before) (flaw : Job.Flaw) :
      ¬ Spoiled plan inputs project other flaw := by
    obtain ⟨job, hjob⟩ := hbefore other hother
    exact (not_spoiled hcoherent hjob).2 flaw
  obtain ⟨remote, hremote, ⟨hmade, -, -⟩ | ⟨flaw, hmade, hvalid, hspoils⟩⟩ :=
    jobOf_settles project holder inputs hcoherent hfind
  · rw [hmade] at hname
    cases hname
  · rw [hmade] at hname
    cases hname
    exact ⟨name, flaw, rfl, ⟨before, after, hnames, hfirst⟩, ⟨t, d, hfind, hspoils⟩,
      ⟨t, d, remote, hfind, hremote, hvalid⟩⟩

end Requested

/-- A request on an accepted plan fails just when the version is blank, the archive has no name, a
blank project would have to name something, or a link would take the place of the archive; the error
is what validation finds in the first job that is spoiled. -/
theorem resolve_fails_iff (plan : Plan) (hplan : plan.Accepted) (names : List String)
    (hnames : names ≠ []) (inputs : Inputs) (operator : Operator)
    (answers : List Invocation → LocalCommand.Answers)
    (scene : Scene (List Invocation)) (project holder : String)
    (hready : Ready plan names inputs operator (answers scene.world) holder)
    (hproject : inputs.project = .ok project) :
    ∃ result log,
      Comes (resolve plan names inputs operator (LocalCommand.recorder answers)) scene result log ∧
      (∀ destination remote, result ≠ .error (.missingRemote destination remote)) ∧
      (∀ job field, result ≠ .error (.job ⟨job, .missing field⟩)) ∧
      (∀ job, result ≠ .error (.job ⟨job, .emptyName⟩) ∧ result ≠ .error (.job ⟨job, .noPaths⟩) ∧
        result ≠ .error (.job ⟨job, .blankPath⟩)) ∧
      ((∃ e, result = .error e) ↔
        Text.isVoid inputs.artifact.version = true ∨ inputs.artifact.fileName = none ∨
        (∃ name ∈ names, ∃ t d, find plan name = .ok (t, d) ∧
          NamedByProject d ∧ Text.isVoid project = true) ∨
        ∃ name ∈ names, ∃ t d, find plan name = .ok (t, d) ∧ d.mode = .symlinkSwap ∧
          inputs.artifact.fileName = some (d.linkName.getD project ++ ".jar")) ∧
      (∀ e, result = .error e → ∃ name flaw, e = .job ⟨Text.trim name, flaw⟩ ∧
        FirstSpoiled plan names inputs project holder name flaw) ∧
      ∀ jobs, result = .ok jobs → ∀ job ∈ jobs, job.validate = .ok () := by
  have hcoherent := hplan.coherent
  have hjobs := jobsOf_of_ready hready hproject
  obtain ⟨log, hcomes⟩ := comes_resolve_iff.mpr hjobs
  refine ⟨_, log, hcomes, ?_⟩
  rw [← exists_spoiled_iff hnames hready.known]
  cases hresult : names.mapM fun name => find plan name >>= jobOf plan project holder inputs with
  | error e =>
    obtain ⟨name, flaw, rfl, hfirst⟩ := firstSpoiled_of_error hcoherent hready.known hresult
    obtain ⟨before, after, hsplit, -⟩ := hfirst.first
    have hspoiled : ∃ name ∈ names, ∃ flaw, Spoiled plan inputs project name flaw :=
      ⟨name, by simp [hsplit], flaw, hfirst.spoiled⟩
    obtain ⟨t, d, -, hspoils⟩ := hfirst.spoiled
    refine ⟨by simp, ?_, ?_, ⟨fun _ => hspoiled, fun _ => ⟨_, rfl⟩⟩, ?_, by simp⟩
    · rintro job field ⟨⟩
      cases hspoils
    · cases hspoils <;> simp
    · rintro _ ⟨⟩
      exact ⟨name, flaw, rfl, hfirst⟩
  | ok jobs =>
    have hmade := forall₂_of_mapM hresult
    refine ⟨by simp, by simp, by simp, ⟨by simp, ?_⟩, by simp, ?_⟩
    · rintro ⟨name, hname, flaw, hspoiled⟩
      obtain ⟨job, -, hjob⟩ := exists_mem_zip hmade hname
      exact absurd hspoiled ((not_spoiled hcoherent hjob).2 flaw)
    · rintro _ ⟨⟩ job hjob
      obtain ⟨name, -, hname⟩ := exists_mem_zip hmade.flip hjob
      exact (not_spoiled hcoherent hname).1

/-- A link that would take the place of the archive that it is to point at. -/
theorem resolve_fails_of_lab :
    let names := ["qa-deploy-lock", "qa-deploy"]
    let inputs : Inputs := { artifact := ⟨⟨"build/lab.jar"⟩, "1.0"⟩ }
    let jane : Operator := { lockoutName := some "jane" }
    let gitless : LocalCommand.Answers := fun program _ => .error ⟨program, "missing"⟩
    Ready lab names inputs jane gitless "jane" ∧ inputs.project = .ok "lab" ∧
      ∃ name flaw log, Comes (resolve lab names inputs jane (LocalCommand.recorder fun _ => gitless))
          ⟨[], []⟩ (.error (.job ⟨Text.trim name, flaw⟩)) log ∧
        FirstSpoiled lab names inputs "lab" "jane" name flaw := by
  intro names inputs jane gitless
  have hlocking : find lab "qa-deploy-lock" = .ok (⟨"qa", .locking⟩, labQa) := by decide +kernel
  have hplain : find lab "qa-deploy" = .ok (⟨"qa", .plain⟩, labQa) := by decide +kernel
  have hproject : inputs.project = .ok "lab" := by decide +kernel
  have hready : Ready lab names inputs jane gitless "jane" := by
    refine ⟨?_, not_nameless hproject, fun _ => rfl, fun h => ?_⟩
    · simpa [names] using ⟨known_iff.mpr ⟨_, hlocking⟩, known_iff.mpr ⟨_, hplain⟩⟩
    · exact absurd ⟨_, List.mem_cons_self, (claims_iff hlocking).mpr (by decide)⟩ h
  obtain ⟨result, log, hcomes, -, -, -, hfails, hfirst, -⟩ :=
    resolve_fails_iff lab accepted_lab names (by simp [names]) inputs jane
      (fun _ => gitless) ⟨[], []⟩ "lab" "jane" hready hproject
  obtain ⟨e, rfl⟩ := hfails.mpr (.inr (.inr (.inr
    ⟨_, List.mem_cons_self, _, _, hlocking, by decide +kernel, by decide +kernel⟩)))
  obtain ⟨name, flaw, rfl, hspoiled⟩ := hfirst e rfl
  exact ⟨hready, hproject, name, flaw, log, hcomes, hspoiled⟩

end Task

end Rollout
