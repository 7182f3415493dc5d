import Rollout.Proofs.Delivery

/-!
Archives that are overwritten. All directories are cleaned of the versions of a base name before one
is uploaded to any of them, so that just that one is there in the end.
-/

namespace Rollout

open Program Remote

variable {ι δ : Type}

namespace Remote.Host

open Rehearsal.Shell (Pattern PatternItem)

variable {h : Host δ} {here : δ} {t t' : Contents δ} {base : String}

def IsVersion (base name : String) : Prop := ∃ mid, name = base ++ mid ++ ".jar"

def versions (base : String) : Pattern := base.toList.map .char ++ .many :: ".jar".toList.map .char

theorem admits_versions {name : String} :
    (versions base).admits name.toList = true ↔ IsVersion base name := admits_star

theorem Plain.operand? {dir : String} (hplain : Plain dir base) :
    (Argument.glob (versions base)).operand? = some fun name => (versions base).admits name.toList := by
  obtain ⟨-, -, hne, hslash, hoption⟩ := hplain
  obtain ⟨c, rest, hbase⟩ := List.exists_cons_of_ne_nil (show base.toList ≠ [] by simpa using hne)
  have hversions : versions base = .char c :: (rest.map .char ++ .many :: ".jar".toList.map .char) := by
    rw [versions, hbase]
    rfl
  have hdash : c ≠ '-' := by
    rintro rfl
    simp [Argument.isOption, hbase] at hoption
  have hsimple : (versions base).all Argument.isSimple = true := by
    rw [versions, List.all_append, List.all_map, Bool.and_eq_true]
    refine ⟨List.all_eq_true.mpr fun d hd => ?_, rfl⟩
    exact decide_eq_true fun h => hslash (h ▸ hd)
  rw [hversions] at hsimple ⊢
  exact if_pos ⟨hdash, hsimple⟩

theorem commands?_clean {dir : String} (hplain : Plain dir base) :
    h.commands? (Shell.Command.clean dir base) =
      some [.cd dir, .remove [fun name => (versions base).admits name.toList]] := by
  have hspells := Shell.spells_valueWord
  have hglob := h.arguments_of_globs (Shell.Globs.of_spells (hspells base) (hspells ".jar"))
  rw [← versions] at hglob
  rw [h.commands?_of_tokens (Shell.Command.tokens?_clean dir base)]
  simp only [List.map_cons, List.map_nil, List.flatMap_cons, List.flatMap_nil,
    h.arguments_of_spells (hspells _), hglob, List.singleton_append,
    Command.ofArguments_cd hplain.dir_ne hplain.dir_option,
    Command.ofArguments_remove hplain.operand?]

theorem Runs.of_clean {dir : String}
    (hruns : h.Runs [.cd dir, .remove [fun name => (versions base).admits name.toList]] here t t' true) :
    ∃ d, h.entered? here dir = some d ∧
      t' = t.lay (fun d' n => d' = d ∧ IsVersion base n) none := by
  obtain _ | ⟨hcd, _ | ⟨hremove, ⟨⟩⟩⟩ := hruns
  obtain ⟨rfl, hdir⟩ := hcd.of_cd
  cases hremove with
  | removed _ =>
    refine ⟨_, hdir rfl, Contents.lay_congr fun d n => ?_⟩
    simp [admits_versions]

variable {sent : Path → Bytes} {l : Lockout} {c : Connection ι} {paths : List String}

theorem lays_clean (hplain : ∀ path ∈ paths, Plain path base)
    (hagrees : ∀ path ∈ paths, h.Agrees path) :
    h.Lays sent l c (fun dir => .clean dir (Shell.Command.clean dir base)) paths (IsVersion base) none
      (fun _ => True) where
  lays path hpath a t t' ha hsucceeds hleaves _ := by
    have hline : lineOf? a.1 = some (Shell.Command.clean path base) := by rw [ha]; rfl
    have hruns := (leaves_iff_runs hline (commands?_clean (hplain path hpath)) hsucceeds).mp hleaves
    rw [← hagrees path hpath]
    exact hruns.of_clean
  keeps _ _ _ := trivial

theorem can_clean (hplain : ∀ path ∈ paths, Plain path base)
    (hagrees : ∀ path ∈ paths, h.Agrees path)
    (hdirs : ∀ path ∈ paths, ∃ d, h.directory? h.home path = some d) {names : δ → String → Prop}
    (hnames : ∀ d n, h.Within paths d → IsVersion base n → names d n) :
    h.Can sent l c (fun dir => .clean dir (Shell.Command.clean dir base)) paths names := by
  intro path hpath a t ha hsucceeds ht
  obtain ⟨d, hd⟩ := hdirs path hpath
  have hline : lineOf? a.1 = some (Shell.Command.clean path base) := by rw [ha]; rfl
  have hremoved (n : String) (hn : [fun name => (versions base).admits name.toList].any (· n)) :
      t d n ≠ some .directory := by
    have hversion : IsVersion base n := by simpa [admits_versions] using hn
    exact ht d n (hnames d n ⟨path, hpath, hd⟩ hversion)
  have hruns : h.Runs [.cd path, .remove [fun name => (versions base).admits name.toList]] h.home t _
      true := .next (.gone ((hagrees path hpath).trans hd)) (.next (.removed hremoved) .done)
  exact ⟨_, (leaves_iff_runs hline (commands?_clean (hplain path hpath)) hsucceeds).mpr hruns,
    ht.lay (by simp)⟩

/-- The directories hold one archive and no other version; nothing else has changed. -/
structure OneVersion (h : Host δ) (paths : List String) (base archive : String) (content : Bytes)
    (t t' : Contents δ) : Prop where
  there : ∀ path ∈ paths, ∃ d, h.directory? h.home path = some d ∧
    t' d archive = some (.file content)
  alone : ∀ d, h.Within paths d → ∀ mid, t' d (base ++ mid ++ ".jar") ≠ none →
    base ++ mid ++ ".jar" = archive
  elsewhere : ∀ d n, ¬ (h.Within paths d ∧ ∃ mid, n = base ++ mid ++ ".jar") → t' d n = t d n

noncomputable def replaced (h : Host δ) (paths : List String) (base archive : String) (content : Bytes)
    (t : Contents δ) : Contents δ :=
  (t.lay (fun d n => h.Within paths d ∧ IsVersion base n) none).lay
    (fun d n => h.Within paths d ∧ n = archive) (some (.file content))

theorem replaced_replaced {archive archive' : String} {content content' : Bytes}
    (harchive : IsVersion base archive) :
    h.replaced paths base archive' content' (h.replaced paths base archive content t) =
      h.replaced paths base archive' content' t := by
  have hclean : (h.replaced paths base archive content t).lay
      (fun d n => h.Within paths d ∧ IsVersion base n) none =
        t.lay (fun d n => h.Within paths d ∧ IsVersion base n) none := by
    rw [replaced, Contents.lay_lay_of_imp, Contents.lay_lay_of_imp fun _ _ => id]
    rintro d n ⟨hd, rfl⟩
    exact ⟨hd, harchive⟩
  rw [replaced, hclean, replaced]

theorem oneVersion_replaced {archive : String} {content : Bytes} (harchive : IsVersion base archive)
    (hdirs : ∀ path ∈ paths, ∃ d, h.directory? h.home path = some d) :
    h.OneVersion paths base archive content t (h.replaced paths base archive content t) := by
  constructor
  · intro path hpath
    obtain ⟨d, hd⟩ := hdirs path hpath
    exact ⟨d, hd, Contents.lay_of ⟨⟨path, hpath, hd⟩, rfl⟩⟩
  · intro d hd mid hthere
    by_contra hne
    rw [replaced, Contents.lay_of_not fun h => hne h.2, Contents.lay_of ⟨hd, mid, rfl⟩] at hthere
    exact hthere rfl
  · intro d n hout
    rw [replaced, Contents.lay_of_not, Contents.lay_of_not hout]
    rintro ⟨hd, rfl⟩
    exact hout ⟨hd, harchive⟩

end Remote.Host

/-- A job that overwrites the versions of a base name, with values that a shell takes for no
options. -/
structure Job.Overwrites (job : Job) (base : String) : Prop where
  valid : job.validate = .ok ()
  mode : job.mode = .overwrite base
  base_slash : '/' ∉ base.toList
  version_slash : '/' ∉ job.artifact.version.toList
  no_option : ∀ s ∈ base :: job.remotePaths, Argument.isOption s = false

namespace Job.Overwrites

variable {job : Job} {base : String}

theorem path_ne (hjob : job.Overwrites base) : ∀ path ∈ job.remotePaths, path ≠ "" :=
  (sound_of_validate hjob.valid).paths

theorem plain (hjob : job.Overwrites base) : ∀ path ∈ job.remotePaths, Host.Plain path base := by
  have hplain := (sound_of_validate hjob.valid).plain
  rw [hjob.mode] at hplain
  exact hplain hjob.base_slash hjob.no_option

theorem isEntryName (hjob : job.Overwrites base) : Path.IsEntryName (job.versioned base).toList := by
  apply Path.isEntryName_jar
  simp [hjob.base_slash, hjob.version_slash]

theorem isVersion (job : Job) (base : String) : Host.IsVersion base (job.versioned base) :=
  ⟨"-" ++ job.artifact.version, by simp [versioned, String.append_assoc]⟩

theorem steps_eq (hjob : job.Overwrites base) :
    job.steps = (job.lock.map Step.lockCheck).toList ++
      (job.remotePaths.map (fun dir => .clean dir (Shell.Command.clean dir base)) ++
        job.remotePaths.map fun dir => .transfer job.artifact.path
          (Shell.Command.joinRemote dir (job.versioned base))) := by
  rw [steps_of_overwrite hjob.mode, adjust_of_overwrite hjob.mode, upload_of_overwrite hjob.mode]

end Job.Overwrites

section Overwrite

variable {h : Host δ} {t t' : Contents δ} {sent : Path → Bytes} {s : Deployer.Settings}
  {c : Connection ι} {job : Job} {base : String}

theorem Job.Overwrites.deployed (hjob : job.Overwrites base)
    (hagrees : ∀ path ∈ job.remotePaths, h.Agrees path) (hdeploys : s.Deploys c h sent job t t') :
    (∀ path ∈ job.remotePaths, ∃ d, h.directory? h.home path = some d) ∧
      t' = h.replaced job.remotePaths base (job.versioned base) (sent job.artifact.path) t := by
  obtain ⟨attempts, hsteps, hsucceed, hleave⟩ := hdeploys.leave hjob.valid
  rw [hjob.steps_eq] at hsteps
  obtain ⟨_, _, _, ⟨hcleans, hcleaned, hclean⟩, hups, huploaded, hupload⟩ :=
    hleave.in_two hsteps hsucceed
  obtain ⟨hdirs, rfl⟩ := hclean.phase (Host.lays_clean hjob.plain hagrees) hcleans hcleaned trivial
  refine ⟨hdirs, (hupload.phase (Host.lays_transfer hjob.isEntryName hjob.path_ne) hups huploaded
    fun d hd away => ?_).2⟩
  rw [Contents.lay_of ⟨hd, Overwrites.isVersion job base⟩]
  simp

theorem Job.Overwrites.exists_deploys (hjob : job.Overwrites base)
    (hagrees : ∀ path ∈ job.remotePaths, h.Agrees path)
    (hdirs : ∀ path ∈ job.remotePaths, ∃ d, h.directory? h.home path = some d)
    (ht : t.Free fun d n => h.Within job.remotePaths d ∧ Host.IsVersion base n)
    (s : Deployer.Settings) (c : Connection Target) : ∃ t', s.Deploys c h sent job t t' := by
  apply s.exists_deploys c hjob.valid hjob.steps_eq _ _ ht
  · exact Host.can_clean hjob.plain hagrees hdirs fun d n hd hn => ⟨hd, hn⟩
  · exact Host.can_transfer hjob.isEntryName hjob.path_ne hdirs fun d hd =>
      ⟨hd, Overwrites.isVersion job base⟩

/-- A run of which every call succeeds leaves one version in every directory, the one that it was
sent. The same run again changes nothing, and one with another archive leaves that one instead. The
shell and the uploads have to be led to the same directories. -/
theorem Deployer.runOn_overwrite (s : Settings) (c : Connection ι) (h : Host δ) (sent : Path → Bytes)
    (t t' : Contents δ) {job : Job} {base : String} (hjob : job.Overwrites base)
    (hagrees : ∀ path ∈ job.remotePaths, h.Agrees path) (hdeploys : s.Deploys c h sent job t t') :
    h.OneVersion job.remotePaths base (job.versioned base) (sent job.artifact.path) t t' ∧
      (∀ (c' : Connection ι) t'', s.Deploys c' h sent job t' t'' → t'' = t') ∧
      ∀ (c' : Connection ι) (artifact : Artifact) (sent' : Path → Bytes) t'',
        { job with artifact }.Overwrites base → s.Deploys c' h sent' { job with artifact } t' t'' →
          h.OneVersion job.remotePaths base ({ job with artifact }.versioned base)
            (sent' artifact.path) t t'' := by
  obtain ⟨hdirs, rfl⟩ := hjob.deployed hagrees hdeploys
  have hversion := Job.Overwrites.isVersion job base
  refine ⟨Host.oneVersion_replaced hversion hdirs, ?_, ?_⟩
  · intro c' t'' hagain
    rw [(hjob.deployed hagrees hagain).2, Host.replaced_replaced hversion]
  · intro c' artifact sent' t'' hjob' hnext
    rw [(hjob'.deployed hagrees hnext).2, Host.replaced_replaced hversion]
    exact Host.oneVersion_replaced (Job.Overwrites.isVersion _ base) hdirs

theorem Deployer.runOn_overwrite_to_two_spellings :
    let s : Settings := { files := {}, operator := {} }
    let job := Job.toTwoSpellings (.overwrite "plugin")
    let c : Connection Target := ⟨job.target, "jane", job.target, {}⟩
    let old : Contents (List Path.Component) := fun _ n =>
      if n = "plugin-0.9.jar" then some (.file [80, 75]) else none
    job.Overwrites "plugin" ∧ ∃ t', s.Deploys c Host.spelled (fun _ => [80, 75]) job old t' ∧
      Host.spelled.OneVersion job.remotePaths "plugin" "plugin-1.0.jar" [80, 75] old t' := by
  intro s job c old
  have hjob : job.Overwrites "plugin" := ⟨by decide, rfl, by decide, by decide, by decide⟩
  have hfree : old.Free fun d n =>
      Host.spelled.Within job.remotePaths d ∧ Host.IsVersion "plugin" n := by
    intro d n _
    simp only [old]
    split <;> simp
  have hagrees : ∀ path ∈ job.remotePaths, Host.spelled.Agrees path :=
    fun path _ => Host.agrees_spelled path
  obtain ⟨t', hdeploys⟩ := hjob.exists_deploys hagrees
    (fun path _ => Host.directory?_spelled _ path) hfree s c
  exact ⟨hjob, t', hdeploys, (runOn_overwrite s c Host.spelled _ old t' hjob hagrees hdeploys).1⟩

end Overwrite

end Rollout
