import Rollout.Proofs.Destination
import Rollout.Proofs.Fitness
import Rollout.Proofs.Job

/-!
What tasks and projects are called. The name of a task says which task it is, and the name of an
archive says which project it belongs to: both are read back as they were put together.
-/

namespace Rollout

open Rehearsal

namespace Path

theorem stemOf_prefix (name : List Char) : stemOf name <+: name := by
  rw [stemOf]
  split
  · exact List.prefix_rfl
  · exact List.prefix_rfl
  · next before _ hdot =>
    -- read backwards, the stem stands behind the last dot
    rw [← List.reverse_suffix, List.reverse_reverse]
    exact (List.suffix_cons _ before).trans (hdot ▸ List.dropWhile_suffix _)

theorem stemOf_ne_nil {name : List Char} (h : name ≠ []) : stemOf name ≠ [] := by
  rw [stemOf]
  split
  · exact h
  · exact h
  · next c before halone hdot =>
    rintro hnil
    obtain rfl := List.reverse_eq_nil_iff.mp hnil
    have hhead := List.head?_dropWhile_not (· != '.') name.reverse
    rw [hdot] at hhead
    exact halone (by simpa using hhead) rfl

theorem fileStem_eq {p : Path} {file : String} (h : p.fileName = some file) :
    p.fileStem = some (.ofList (stemOf file.toList)) := by
  obtain ⟨cs, hcs, rfl⟩ := Option.map_eq_some_iff.mp h
  rw [fileStem, hcs, String.toList_ofList]
  rfl

theorem fileName_append {dir file : String} (hdir : dir = "" ∨ ∃ outer, dir = outer ++ "/")
    (hfile : IsEntryName file.toList) : fileName ⟨dir ++ file⟩ = some file := by
  have hlast : (componentsOf (dir ++ file).toList).getLast? = some (.name file.toList) := by
    obtain rfl | ⟨outer, rfl⟩ := hdir
    · rw [String.empty_append, hfile.componentsOf]
      rfl
    · have htext : (outer ++ "/" ++ file).toList = outer.toList ++ '/' :: file.toList := by simp
      rw [htext, hfile.componentsOf_append, List.getLast?_concat]
  rw [fileName, nameOf, hlast]
  exact congrArg some String.ofList_toList

end Path

namespace Task

/-! ### Tasks -/

theorem orElse_ofVariant?_name (t : Task) :
    (ofVariant? .locking t.name.toList).orElse (fun _ => ofVariant? .plain t.name.toList) = some t := by
  rw [name, String.toList_append, orElse_ofVariant?, String.ofList_toList]

theorem name_inj {t u : Task} : t.name = u.name ↔ t = u := by
  refine ⟨fun h => ?_, congrArg name⟩
  have hread := orElse_ofVariant?_name t
  rw [h, orElse_ofVariant?_name u] at hread
  exact (Option.some.inj hread).symm

theorem parse?_eq_some {s : String} {t : Task} :
    parse? s = some t ↔ t.destination ≠ "" ∧ t.name = Text.trim s := by
  constructor
  · intro h
    refine ⟨?_, name_of_parse h⟩
    rw [parse?, Option.filter_eq_some_iff] at h
    simpa using h.2
  · rintro ⟨hdestination, hname⟩
    have hchars : Text.trimChars s.toList = t.name.toList := by
      rw [hname, Text.trim, String.toList_ofList]
    rw [parse?, hchars, orElse_ofVariant?_name, Option.filter_some]
    simp [hdestination]

theorem parse?_eq_none {s : String} :
    parse? s = none ↔ (∀ variant : Variant, ¬ variant.suffix.toList <:+ (Text.trim s).toList) ∨
      ∃ variant : Variant, Text.trim s = variant.suffix := by
  rw [Option.eq_none_iff_forall_ne_some]
  constructor
  · intro hnone
    by_contra hsome
    obtain ⟨hending, halone⟩ := not_or.mp hsome
    obtain ⟨variant, hsuffix⟩ := not_forall_not.mp hending
    obtain ⟨cs, hcs⟩ := hsuffix
    have hname : name ⟨.ofList cs, variant⟩ = Text.trim s := by
      rw [name, ← String.toList_inj, String.toList_append, String.toList_ofList, hcs]
    refine hnone ⟨.ofList cs, variant⟩ (parse?_eq_some.mpr ⟨?_, hname⟩)
    rintro hempty
    rw [name, hempty, String.empty_append] at hname
    exact halone ⟨variant, hname.symm⟩
  · rintro hnone t h
    obtain ⟨hdestination, hname⟩ := parse?_eq_some.mp h
    rcases hnone with hending | ⟨variant, halone⟩
    · refine hending t.variant ⟨t.destination.toList, ?_⟩
      rw [← hname, name, String.toList_append]
    · have hsuffix : name ⟨"", variant⟩ = variant.suffix := String.empty_append
      rw [halone, ← hsuffix, name_inj] at hname
      exact hdestination (congrArg destination hname)

/-- A name is a task's exactly when it is what the task is called, blanks around it aside. Every task
whose destination's name begins at once is read back from its own name, and no two tasks share one. -/
theorem parse?_inverts_name :
    (∀ s t, parse? s = some t ↔ t.destination ≠ "" ∧ t.name = Text.trim s) ∧
      (∀ t : Task, parse? t.name = some t ↔ Text.Flush t.destination) ∧
      (∀ s, parse? s = none ↔
        (∀ variant : Variant, ¬ variant.suffix.toList <:+ (Text.trim s).toList) ∨
          ∃ variant : Variant, Text.trim s = variant.suffix) ∧
      ∀ t u : Task, t.name = u.name ↔ t = u :=
  ⟨fun _ _ => parse?_eq_some, fun _ => parse?_name_eq_self, fun _ => parse?_eq_none, fun _ _ => name_inj⟩

example : parse? "\u2003 dev-deploy-deploy-lock\n" = some ⟨"dev-deploy", .locking⟩ := by decide

/-! ### Projects -/

def archiveName (project version : String) : String := project ++ "-" ++ version ++ ".jar"

theorem isEntryName_archiveName {project version : String} (hproject : '/' ∉ project.toList)
    (hversion : '/' ∉ version.toList) : Path.IsEntryName (archiveName project version).toList := by
  apply Path.isEntryName_jar
  simp [hproject, hversion]

theorem archiveName_inj {project project' version : String} :
    archiveName project version = archiveName project' version ↔ project = project' := by
  simp [archiveName]

theorem archiveName_ne (project version : String) : project ++ ".jar" ≠ archiveName project version := by
  intro h
  have hlength := congrArg String.length h
  simp only [archiveName, String.length_append] at hlength
  have hdash : "-".length = 1 := rfl
  omega

/-- The project that the name of an archive says it is of: what stands before the version, if the name
ends in that, and else the stem. -/
inductive Derived (version file : String) : Option String → Prop
  | versioned {project} : version ≠ "" → project ≠ "" → file = archiveName project version →
      Derived version file (some project)
  | unnamed : version ≠ "" → file = archiveName "" version → Derived version file none
  | stem : (version = "" ∨ ∀ project, file ≠ archiveName project version) →
      Derived version file (some (.ofList (Path.stemOf file.toList)))

theorem projectName?_eq {path : Path} {file : String} (version : String)
    (h : path.fileName = some file) : projectName? path version =
      ((if version = "" then none
        else (Text.withoutEnding? ("-" ++ version ++ ".jar").toList file.toList).map String.ofList).orElse
          fun _ => some (.ofList (Path.stemOf file.toList))).filter (· ≠ "") := by
  rw [projectName?, h, Path.fileStem_eq h]
  rfl

theorem derived_of_fileName {path : Path} {file : String} (version : String)
    (h : path.fileName = some file) : Derived version file (projectName? path version) := by
  have hstem : String.ofList (Path.stemOf file.toList) ≠ "" := by
    rw [Ne, String.ofList_eq_empty_iff]
    exact Path.stemOf_ne_nil (Path.isEntryName_of_fileName h).1
  have hname (cs : List Char) : (archiveName (.ofList cs) version).toList =
      cs ++ ("-" ++ version ++ ".jar").toList := by
    simp [archiveName]
  rw [projectName?_eq version h]
  by_cases hversion : version = ""
  · rw [if_pos hversion, Option.orElse_none, Option.filter_some, if_pos (by simpa using hstem)]
    exact .stem (.inl hversion)
  · rw [if_neg hversion]
    cases hending : Text.withoutEnding? ("-" ++ version ++ ".jar").toList file.toList with
    | none =>
      rw [Option.map_none, Option.orElse_none, Option.filter_some, if_pos (by simpa using hstem)]
      refine .stem (.inr ?_)
      rintro project rfl
      rw [← String.ofList_toList (s := project), hname, Text.withoutEnding?_append] at hending
      cases hending
    | some cs =>
      have hfile : file = archiveName (.ofList cs) version := by
        rw [← String.toList_inj, hname, Text.withoutEnding?_eq_some hending]
      rw [Option.map_some, Option.orElse_some, Option.filter_some]
      split
      · next hproject => exact .versioned hversion (by simpa using hproject) hfile
      · next hproject =>
        have hnone : String.ofList cs = "" := by simpa using hproject
        exact .unnamed hversion (hnone ▸ hfile)

theorem prefix_of_projectName? {path : Path} {version project : String}
    (h : projectName? path version = some project) :
    project ≠ "" ∧ ∃ file, path.fileName = some file ∧ project.toList <+: file.toList := by
  have hfile : ∃ file, path.fileName = some file := by
    rw [← Option.ne_none_iff_exists']
    intro hnone
    rw [projectName?, hnone] at h
    cases h
  obtain ⟨file, hfile⟩ := hfile
  have hne : file.toList ≠ [] := (Path.isEntryName_of_fileName hfile).1
  have hderived := derived_of_fileName version hfile
  rw [h] at hderived
  cases hderived with
  | versioned hversion hproject hname =>
    refine ⟨hproject, file, hfile, ("-" ++ version ++ ".jar").toList, ?_⟩
    rw [hname]
    simp [archiveName]
  | stem =>
    refine ⟨?_, file, hfile, ?_⟩
    · simpa using Path.stemOf_ne_nil hne
    · rw [String.toList_ofList]
      exact Path.stemOf_prefix _

theorem projectName?_eq_none {path : Path} {version : String} :
    projectName? path version = none ↔ path.fileName = none ∨
      version ≠ "" ∧ path.fileName = some ("-" ++ version ++ ".jar") := by
  have hunnamed : archiveName "" version = "-" ++ version ++ ".jar" := by
    rw [archiveName, String.empty_append]
  rw [← hunnamed]
  cases hfile : path.fileName with
  | none =>
    rw [projectName?, hfile]
    simp
  | some file =>
    have hderived := derived_of_fileName version hfile
    constructor
    · intro h
      rw [h] at hderived
      cases hderived with
      | unnamed hversion hname => exact .inr ⟨hversion, congrArg some hname⟩
    · rintro (h | ⟨hversion, hname⟩)
      · cases h
      · cases hname
        cases hp : projectName? path version with
        | none => rfl
        | some project =>
          rw [hp] at hderived
          cases hderived with
          | versioned _ hproject hname => exact absurd (archiveName_inj.mp hname).symm hproject
          | stem hother => exact absurd rfl (hother.resolve_left hversion "")

/-- An archive that is called by its project and its version, in whatever directory. -/
structure Titled (archive : Artifact) (project : String) : Prop where
  project_ne : project ≠ ""
  project_slash : '/' ∉ project.toList
  version_ne : archive.version ≠ ""
  version_slash : '/' ∉ archive.version.toList
  path : ∃ dir : String, (dir = "" ∨ ∃ outer, dir = outer ++ "/") ∧
    archive.path = ⟨dir ++ archiveName project archive.version⟩

namespace Titled

variable {archive : Artifact} {project : String}

theorem fileName_eq (h : Titled archive project) :
    archive.path.fileName = some (archiveName project archive.version) := by
  obtain ⟨dir, hdir, hpath⟩ := h.path
  rw [hpath]
  exact Path.fileName_append hdir (isEntryName_archiveName h.project_slash h.version_slash)

theorem projectName?_eq (h : Titled archive project) :
    projectName? archive.path archive.version = some project := by
  have hderived := derived_of_fileName archive.version h.fileName_eq
  cases hp : projectName? archive.path archive.version with
  | none =>
    rw [hp] at hderived
    cases hderived with
    | unnamed _ hname => exact absurd (archiveName_inj.mp hname) h.project_ne
  | some other =>
    rw [hp] at hderived
    cases hderived with
    | versioned _ _ hname => rw [archiveName_inj.mp hname]
    | stem hother => exact absurd rfl (hother.resolve_left h.version_ne project)

end Titled

/-- A job fit to be run that uploads its archive under one name, and sets up no link of that name. -/
structure Ships (job : Job) (name : String) : Prop where
  valid : job.validate = .ok ()
  uploads : ∀ source destination, .transfer source destination ∈ job.steps ↔
    source = job.artifact.path ∧
      ∃ dir ∈ job.remotePaths, destination = Shell.Command.joinRemote dir name
  links : ∀ link, job.mode = .symlinkSwap link → link ++ ".jar" ≠ name

def Clashes (d : Plan.Destination) (file : String) : Prop :=
  d.mode = .symlinkSwap ∧ ∃ link, d.linkName = some link ∧ link ++ ".jar" = file

variable {plan : Plan} {project holder : String} {inputs : Inputs} {t : Task} {d : Plan.Destination}

theorem project_of_titled (h : Titled inputs.artifact project)
    (hgiven : ∀ name, inputs.projectName = some name → Text.isVoid name = true) :
    inputs.project = .ok project := by
  have hnone : (inputs.projectName.filter fun name => !Text.isVoid name) = none := by
    simpa [Option.filter_eq_none_iff] using hgiven
  rw [Inputs.project, hnone, h.projectName?_eq]

theorem delivered_asked (h : Titled inputs.artifact project) (t : Task) (d : Plan.Destination)
    (remote : Plan.Remote) (holder : String) :
    (asked t d remote project holder inputs).delivered = archiveName project inputs.artifact.version := by
  rw [Job.delivered, asked, modeOf]
  cases d.mode with
  | overwrite => rfl
  | symlinkSwap =>
    change inputs.artifact.path.fileName.getD "" = _
    rw [h.fileName_eq]
    rfl

theorem ships_asked (h : Titled inputs.artifact project) {remote : Plan.Remote}
    (hvalid : (asked t d remote project holder inputs).validate = .ok ()) :
    Ships (asked t d remote project holder inputs) (archiveName project inputs.artifact.version) := by
  refine ⟨hvalid, fun source destination => ?_, fun link hmode hlink => ?_⟩
  · rw [Job.transfer_mem_steps, delivered_asked h]
  · have hapart := (Job.sound_of_validate hvalid).unshadowed
    rw [Job.linkShadowsArtifact, hmode] at hapart
    have hfile : (asked t d remote project holder inputs).artifact.fileName = some (link ++ ".jar") :=
      h.fileName_eq.trans (congrArg some hlink.symm)
    exact absurd hfile (by simpa using hapart)

theorem clashes_of_spoils (h : Titled inputs.artifact project) (hproject : Text.isVoid project = false)
    (hversion : Text.isVoid inputs.artifact.version = false) {flaw : Job.Flaw}
    (hspoils : Spoils inputs project d flaw) :
    flaw = .linkCollides ∧ Clashes d (archiveName project inputs.artifact.version) := by
  cases hspoils with
  | version hvoid =>
    rw [hversion] at hvoid
    cases hvoid
  | archive _ hnone =>
    have hfile : inputs.artifact.fileName = some _ := h.fileName_eq
    rw [hfile] at hnone
    cases hnone
  | project _ _ _ hvoid =>
    rw [hproject] at hvoid
    cases hvoid
  | link _ _ hmode hfile =>
    have hname := Option.some.inj (hfile.symm.trans h.fileName_eq)
    cases hlink : d.linkName with
    | none =>
      rw [hlink] at hname
      exact absurd hname (archiveName_ne project _)
    | some link =>
      rw [hlink] at hname
      exact ⟨rfl, hmode, link, hlink, hname⟩

theorem settles_jobsOf {names : List String} {operator : Operator} {answers : LocalCommand.Answers}
    (hproject : inputs.project = .ok project) :
    Settles plan names inputs operator answers (jobsOf plan names inputs operator answers) := by
  rw [jobsOf, hproject]
  cases hfind : names.mapM (find plan) with
  | error e =>
    obtain ⟨before, name, after, hnames, hbefore, hname⟩ := error_of_mapM hfind
    obtain ⟨hunknown, rfl⟩ := find_eq_error hname
    exact .unknown hnames (fun other ho => known_iff.mpr (hbefore other ho)) hunknown
  | ok tasks => exact settles_of_found hproject (forall₂_of_mapM hfind)

theorem ships_or_clashes (holder : String) (hcoherent : plan.Coherent) (h : Titled inputs.artifact project)
    (hproject : Text.isVoid project = false) (hversion : Text.isVoid inputs.artifact.version = false)
    (hderived : inputs.project = .ok project) {name : String} (hfind : find plan name = .ok (t, d)) :
    (∃ job, jobFor plan inputs holder name = .ok job ∧
      job.mode = modeOf d project ∧ job.artifact = inputs.artifact ∧ job.remotePaths = d.paths ∧
      Ships job (archiveName project inputs.artifact.version)) ∨
    (Clashes d (archiveName project inputs.artifact.version) ∧
      jobFor plan inputs holder name = .error (.job ⟨Text.trim name, .linkCollides⟩)) := by
  have hjob : jobFor plan inputs holder name = jobOf plan project holder inputs (t, d) := by
    rw [jobFor, hfind, hderived]
    rfl
  rw [hjob]
  obtain ⟨remote, -, ⟨hmade, hvalid, -⟩ | ⟨flaw, hmade, -, hspoils⟩⟩ :=
    jobOf_settles project holder inputs hcoherent hfind
  · exact .inl ⟨_, hmade, rfl, rfl, rfl, ships_asked h hvalid⟩
  · obtain ⟨rfl, hclash⟩ := clashes_of_spoils h hproject hversion hspoils
    exact .inr ⟨hclash, hmade⟩

inductive Dispatches (plan : Plan) (names : List String) (inputs : Inputs) (project : String)
    (operator : Operator) (answers : LocalCommand.Answers) : Except Error (List Job) → Prop
  | unknown {name} : name ∈ names → ¬ Known plan name →
      Dispatches plan names inputs project operator answers (.error (.unknownTask name))
  | holderless {fault} : operator.holder answers = .error fault →
      Dispatches plan names inputs project operator answers (.error (.holder fault))
  | clash {name t d} : name ∈ names → find plan name = .ok (t, d) →
      Clashes d (archiveName project inputs.artifact.version) →
      Dispatches plan names inputs project operator answers
        (.error (.job ⟨Text.trim name, .linkCollides⟩))
  | shipped {jobs} :
      List.Forall₂ (fun name job => ∃ t d, find plan name = .ok (t, d) ∧
        job.mode = modeOf d project ∧ job.artifact = inputs.artifact ∧ job.remotePaths = d.paths ∧
        Ships job (archiveName project inputs.artifact.version)) names jobs →
      Dispatches plan names inputs project operator answers (.ok jobs)

theorem dispatches_of_titled {names : List String} {operator : Operator}
    {answers : LocalCommand.Answers} (hcoherent : plan.Coherent) (h : Titled inputs.artifact project)
    (hproject : Text.isVoid project = false) (hversion : Text.isVoid inputs.artifact.version = false)
    (hgiven : ∀ name, inputs.projectName = some name → Text.isVoid name = true) :
    Dispatches plan names inputs project operator answers (jobsOf plan names inputs operator answers) := by
  have hderived := project_of_titled h hgiven
  have hsettles : Settles plan names inputs operator answers _ := settles_jobsOf hderived
  have hsettled (holder : String) {name : String} {t : Task} {d : Plan.Destination}
      (hfind : find plan name = .ok (t, d)) :=
    ships_or_clashes holder hcoherent h hproject hversion hderived hfind
  generalize jobsOf plan names inputs operator answers = result at hsettles ⊢
  cases hsettles with
  | unknown hnames _ hunknown => exact .unknown (hnames ▸ List.mem_append_right _ (.head _)) hunknown
  | nameless _ hnameless => exact absurd hnameless (not_nameless hderived)
  | holderless _ _ _ hheld => exact .holderless hheld
  | @unbuilt _ _ name _ _ hready hnames _ hjob =>
    have hname : name ∈ names := hnames ▸ List.mem_append_right _ (.head _)
    obtain ⟨⟨t, d⟩, hfind⟩ := known_iff.mp (hready.known name hname)
    rcases hsettled _ hfind with ⟨job, hmade, -⟩ | ⟨hclash, hmade⟩
    · cases hmade.symm.trans hjob
    · cases hmade.symm.trans hjob
      exact .clash hname hfind hclash
  | built hready hjobs =>
    refine .shipped (hjobs.imp ?_)
    rintro name job ⟨hjob, -⟩
    obtain ⟨⟨t, d⟩, hfind, -⟩ := ok_of_bind hjob
    rcases hsettled _ hfind with ⟨job', hmade, hships⟩ | ⟨-, hmade⟩
    · cases hmade.symm.trans hjob
      exact ⟨t, d, hfind, hships⟩
    · cases hmade.symm.trans hjob

/-- The name of the project that is read off an archive's name is the one that it was put together
from, and an archive so named is deployed under its own name. Whatever the name, the project is the
start of it, and there is none only where there is no name or nothing stands before the version. -/
theorem projectName?_inverts :
    (∀ archive project, Titled archive project →
      archive.fileName = some (archiveName project archive.version) ∧
        projectName? archive.path archive.version = some project) ∧
    (∀ plan : Plan, plan.Accepted →
      ∀ (inputs : Inputs) project, Titled inputs.artifact project → Text.isVoid project = false →
        Text.isVoid inputs.artifact.version = false →
        (∀ name, inputs.projectName = some name → Text.isVoid name = true) →
        ∀ names operator answers scene, ∃ result log,
          Comes (resolve plan names inputs operator (LocalCommand.recorder answers)) scene result log ∧
          Dispatches plan names inputs project operator (answers scene.world) result) ∧
    ∀ path version,
      (∀ project, projectName? path version = some project →
        project ≠ "" ∧ '/' ∉ project.toList ∧
          ∃ file, path.fileName = some file ∧ project.toList <+: file.toList) ∧
      (projectName? path version = none ↔ path.fileName = none ∨
        version ≠ "" ∧ path.fileName = some ("-" ++ version ++ ".jar")) := by
  refine ⟨fun archive project h => ⟨h.fileName_eq, h.projectName?_eq⟩, ?_, ?_⟩
  · intro plan hplan inputs project h hproject hversion hgiven names operator answers scene
    obtain ⟨log, hcomes⟩ := comes_resolve_iff.mpr rfl
    exact ⟨_, log, hcomes, dispatches_of_titled hplan.coherent h hproject hversion hgiven⟩
  · intro path version
    refine ⟨fun project h => ?_, projectName?_eq_none⟩
    obtain ⟨hne, file, hfile, hbegins⟩ := prefix_of_projectName? h
    have hslash : '/' ∉ file.toList := (Path.isEntryName_of_fileName hfile).2.1
    exact ⟨hne, fun hmem => hslash (hbegins.subset hmem), file, hfile, hbegins⟩

def jarredJob : Job :=
  ⟨"qa-deploy", labHost.target, .standard, ⟨⟨"build/plugin.jar-1.0-rc.jar.jar"⟩, "1.0-rc.jar"⟩, ["/qa"],
    .symlinkSwap "plugin.jar", none⟩

theorem projectName?_inverts_for_jarred :
    projectName? jarredJob.artifact.path jarredJob.artifact.version = some "plugin.jar" ∧
      "plugin.jar".toList <+: "plugin.jar-1.0-rc.jar.jar".toList ∧
      Ships jarredJob "plugin.jar-1.0-rc.jar.jar" := by
  obtain ⟨hread, hdeploy, hname⟩ := projectName?_inverts
  have htitled : Titled jarredJob.artifact "plugin.jar" :=
    ⟨by decide, by decide, by decide, by decide, "build/", .inr ⟨"build", rfl⟩, rfl⟩
  obtain ⟨hfile, hproject⟩ := hread jarredJob.artifact "plugin.jar" htitled
  obtain ⟨-, -, file, hfile', hbegins⟩ := (hname _ _).1 "plugin.jar" hproject
  cases hfile.symm.trans hfile'
  let inputs : Inputs := { artifact := jarredJob.artifact }
  let gitless : LocalCommand.Answers := fun program _ => .error ⟨program, "missing"⟩
  obtain ⟨result, log, hcomes, hresult⟩ := hdeploy lab accepted_lab inputs "plugin.jar"
    htitled (by decide) (by decide) nofun ["qa-deploy"] {} (fun _ => gitless) ⟨[], []⟩
  have hjobs : jobsOf lab ["qa-deploy"] inputs {} gitless = .ok [jarredJob] :=
    ok_of_toOption (by decide +kernel)
  rw [comes_resolve_iff.mp ⟨log, hcomes⟩] at hjobs
  subst hjobs
  cases hresult with
  | shipped hshipped =>
    cases hshipped with
    | cons hfirst _ =>
      obtain ⟨t, d, -, -, -, -, hships⟩ := hfirst
      exact ⟨hproject, hbegins, hships⟩

end Task

end Rollout
