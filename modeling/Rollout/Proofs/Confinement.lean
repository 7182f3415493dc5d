import Rollout.Proofs.Reach

/-!
Which entries a job changes: whether a relink spares the archives that were uploaded, and when a job
keeps to its directories. Both are up to the slashes in the names of the job, and nothing else is.
-/

namespace Rollout

open Remote

variable {δ : Type} {h : Host δ} {job : Job}

namespace Job

theorem delivered_of_swap {link : String} (hmode : job.mode = .symlinkSwap link) :
    job.delivered = job.artifact.fileName.getD "" := by
  rw [delivered, hmode]

theorem fileName_of_swap {link : String} (hvalid : job.validate = .ok ())
    (hmode : job.mode = .symlinkSwap link) : job.artifact.fileName = some job.delivered := by
  obtain ⟨file, hfile⟩ := exists_fileName_of_validate hvalid
  rw [delivered_of_swap hmode, hfile, Option.getD_some]

theorem delivered_ne_link {link : String} (hvalid : job.validate = .ok ())
    (hmode : job.mode = .symlinkSwap link) : link ++ ".jar" ≠ job.delivered := by
  intro heq
  have hshadow := (sound_of_validate hvalid).unshadowed
  simp [linkShadowsArtifact, hmode, fileName_of_swap hvalid hmode, heq] at hshadow

/-- A relink touches an archive that was uploaded just where the link leads to the directory of that
archive, and ends in its name. That takes a slash in the name of the link. -/
theorem relink_touches_upload_iff (h : Host δ) {link : String} (hvalid : job.validate = .ok ())
    (hmode : job.mode = .symlinkSwap link) :
    job.artifact.fileName = some job.delivered ∧
      ∀ path ∈ job.remotePaths, ∀ path' ∈ job.remotePaths,
        job.upload path ∈ job.steps ∧ job.adjust path' ∈ job.steps ∧
        ∀ d d', h.directory? h.home path = some d → h.entered? h.home path' = some d' →
          (∀ entry, h.Touches (job.upload path) entry ↔ entry = (d, job.delivered)) ∧
          (∀ entry, h.Touches (job.adjust path') entry ↔
            h.directory? d' (Path.folder link) = some entry.1 ∧ entry.2 = Path.leaf link ++ ".jar") ∧
          (h.Touches (job.adjust path') (d, job.delivered) ↔
            h.directory? d' (Path.folder link) = some d ∧ Path.leaf link ++ ".jar" = job.delivered) ∧
          ('/' ∉ link.toList → ¬ h.Touches (job.adjust path') (d, job.delivered)) := by
  have hfile := fileName_of_swap hvalid hmode
  have hslash : '/' ∉ job.delivered.toList := (Path.isEntryName_of_fileName hfile).2.1
  refine ⟨hfile, fun path hpath path' hpath' => ⟨?_, ?_, ?_⟩⟩
  · exact mem_steps.mpr (.inr ⟨path, hpath, .inl rfl⟩)
  · exact mem_steps.mpr (.inr ⟨path', hpath', .inr rfl⟩)
  · intro d d' hd hd'
    have hupload (entry : δ × String) :
        h.Touches (job.upload path) entry ↔ entry = (d, job.delivered) := by
      rw [touches_upload hvalid, Path.folder_of_notMem hslash, Path.leaf_of_notMem hslash,
        Host.directory?_joinRemote_nothing ((sound_of_validate hvalid).paths path hpath), hd,
        Option.some_inj, Prod.ext_iff, @eq_comm _ d]
    have hadjust (entry : δ × String) : h.Touches (job.adjust path') entry ↔
        h.directory? d' (Path.folder link) = some entry.1 ∧ entry.2 = Path.leaf link ++ ".jar" := by
      rw [touches_adjust, hd', hmode]
      simp [DeployMode.base, DeployMode.Renews]
    refine ⟨hupload, hadjust, ?_, ?_⟩
    · rw [hadjust, @eq_comm _ job.delivered]
    · intro hlink htouches
      have hname := ((hadjust _).mp htouches).2
      rw [Path.leaf_of_notMem hlink] at hname
      exact delivered_ne_link hvalid hmode hname.symm

theorem relink_touches_upload_iff_to_two_spellings :
    let job := toTwoSpellings (.symlinkSwap "plugin")
    job.validate = .ok () ∧ ∀ path ∈ job.remotePaths, ∀ path' ∈ job.remotePaths, ∀ d,
      Host.spelled.directory? [] path = some d →
        Host.spelled.Touches (job.upload path) (d, "plugin-1.0.jar") ∧
          ¬ Host.spelled.Touches (job.adjust path') (d, "plugin-1.0.jar") := by
  have hvalid : (toTwoSpellings (.symlinkSwap "plugin")).validate = .ok () := by decide
  refine ⟨hvalid, fun path hpath path' hpath' d hd => ?_⟩
  obtain ⟨d', hd'⟩ := Host.directory?_spelled [] path'
  obtain ⟨-, hpaths⟩ := relink_touches_upload_iff Host.spelled hvalid rfl
  obtain ⟨-, -, htouches⟩ := hpaths path hpath path' hpath'
  obtain ⟨hupload, -, -, hspares⟩ := htouches d d' hd hd'
  exact ⟨(hupload _).mpr rfl, hspares (by decide)⟩

/-- The name of the archive is not taken for a link when it is written with a dot and a slash in
front, and still the archive is what is removed, and then linked to itself. -/
theorem relink_touches_upload_behind_dot :
    let job := { toTwoSpellings (.symlinkSwap "./plugin") with
      artifact := ⟨⟨"build/libs/plugin.jar"⟩, "1.0"⟩ }
    job.validate = .ok () ∧
      job.adjust "/srv/plugins" = .relink "/srv/plugins"
        "cd /srv/plugins && rm -f ./plugin.jar && ln -s plugin.jar ./plugin.jar" ∧
      ∀ path ∈ job.remotePaths, job.upload path ∈ job.steps ∧ job.adjust path ∈ job.steps ∧
        ∃ entry, Host.spelled.Touches (job.upload path) entry ∧
          Host.spelled.Touches (job.adjust path) entry := by
  intro job
  have hvalid : job.validate = .ok () := by decide
  refine ⟨hvalid, by decide, fun path hpath => ⟨?_, ?_, ?_⟩⟩
  · exact mem_steps.mpr (.inr ⟨path, hpath, .inl rfl⟩)
  · exact mem_steps.mpr (.inr ⟨path, hpath, .inr rfl⟩)
  · obtain ⟨d, hd⟩ := Host.directory?_spelled [] path
    have hpath := (sound_of_validate hvalid).paths path hpath
    have harchive : Path.folder job.delivered = "" ∧ "plugin.jar" = Path.leaf job.delivered := by
      decide
    have hlink : Path.folder job.mode.base = "./" ∧
        "plugin.jar" = Path.leaf "./plugin" ++ ".jar" := by
      decide
    have hhere : Host.spelled.directory? d "./" = some d := by
      have hcomponents : Path.componentsOf "./".toList = [.here] := by decide
      rw [Host.directory?, hcomponents]
      rfl
    refine ⟨(d, "plugin.jar"), (touches_upload hvalid).mpr ⟨?_, harchive.2⟩,
      touches_adjust.mpr ⟨d, hd, ?_, hlink.2⟩⟩
    · rw [harchive.1, Host.directory?_joinRemote_nothing hpath]
      exact hd
    · rw [hlink.1]
      exact hhere

def names (job : Job) : List String :=
  match job.mode with
  | .overwrite base => [base]
  | .symlinkSwap link => [link, job.delivered]

theorem values_of_deeds_iff (hvalid : job.validate = .ok ()) :
    (∀ deed ∈ job.deeds, ∀ value ∈ deed.values, ¬ value.MayBeOption) ↔
      ∀ s ∈ job.names, Argument.isOption s = false := by
  have hbase := (sound_of_validate hvalid).base
  unfold deeds names
  cases hmode : job.mode with
  | overwrite base =>
    rw [hmode, DeployMode.base] at hbase
    simp [Deed.values, Argument.mayBeOption_versions hbase]
  | symlinkSwap link =>
    rw [hmode, DeployMode.base] at hbase
    simp +contextual [Deed.values, Argument.mayBeOption_text, Argument.isOption_append hbase,
      delivered_of_swap hmode]

end Job

namespace Remote.Host

/-- One of the directories that some paths lead to, an upload or a shell. -/
def Owns (h : Host δ) (paths : List String) (d : δ) : Prop :=
  ∃ path ∈ paths, h.directory? h.home path = some d ∨ h.entered? h.home path = some d

/-- Every command of a job is read so that none of its values is an option, and every entry that the
job changes is one of its directories' own. -/
structure Confines (h : Host δ) (job : Job) : Prop where
  lines : ∀ step ∈ job.steps, ∀ line, lineOf? step = some line →
    ∃ deeds, h.deeds? line = some deeds ∧ ∀ deed ∈ deeds, ∀ value ∈ deed.values, ¬ value.MayBeOption
  entries : ∀ step ∈ job.steps, ∀ entry, h.Touches step entry → h.Owns job.remotePaths entry.1

/-- Where slashes in the names of a job lead on from its directories, they lead back to these. -/
structure Returns (h : Host δ) (job : Job) : Prop where
  base : ∀ path ∈ job.remotePaths, ∀ d d', h.entered? h.home path = some d →
    h.directory? d (Path.folder job.mode.base) = some d' → h.Owns job.remotePaths d'
  delivered : ∀ path ∈ job.remotePaths, ∀ d,
    h.directory? h.home (Shell.Command.joinRemote path (Path.folder job.delivered)) = some d →
      h.Owns job.remotePaths d

theorem entries_iff_returns (hvalid : job.validate = .ok ()) :
    (∀ step ∈ job.steps, ∀ entry, h.Touches step entry → h.Owns job.remotePaths entry.1) ↔
      h.Returns job := by
  constructor
  · intro hentries
    constructor
    · intro path hpath d d' hd hd'
      obtain ⟨name, hname⟩ := job.mode.exists_renews
      exact hentries (job.adjust path) (Job.mem_steps.mpr (.inr ⟨path, hpath, .inr rfl⟩)) (d', name)
        (Job.touches_adjust.mpr ⟨d, hd, hd', hname⟩)
    · intro path hpath d hd
      exact hentries (job.upload path) (Job.mem_steps.mpr (.inr ⟨path, hpath, .inl rfl⟩)) (d, _)
        ((Job.touches_upload hvalid).mpr ⟨hd, rfl⟩)
  · intro hreturns step hstep entry htouches
    obtain ⟨request, -, rfl⟩ | ⟨path, hpath, rfl | rfl⟩ := Job.mem_steps.mp hstep
    · cases htouches
    · exact hreturns.delivered path hpath _ ((Job.touches_upload hvalid).mp htouches).1
    · obtain ⟨d, hd, hentry, -⟩ := Job.touches_adjust.mp htouches
      exact hreturns.base path hpath d _ hd hentry

theorem returns_of_notMem (hvalid : job.validate = .ok ()) (hbase : '/' ∉ job.mode.base.toList)
    (hdelivered : '/' ∉ job.delivered.toList) : h.Returns job := by
  constructor
  · intro path hpath d d' hd hd'
    rw [Path.folder_of_notMem hbase, directory?_nothing, Option.some_inj] at hd'
    exact ⟨path, hpath, .inr (hd' ▸ hd)⟩
  · intro path hpath d hd
    rw [Path.folder_of_notMem hdelivered,
      directory?_joinRemote_nothing ((Job.sound_of_validate hvalid).paths path hpath)] at hd
    exact ⟨path, hpath, .inl hd⟩

theorem lines_iff_words (hvalid : job.validate = .ok ()) :
    (∀ step ∈ job.steps, ∀ line, lineOf? step = some line → ∃ deeds, h.deeds? line = some deeds ∧
      ∀ deed ∈ deeds, ∀ value ∈ deed.values, ¬ value.MayBeOption) ↔
    ∀ s ∈ job.names ++ job.remotePaths, Argument.isOption s = false := by
  rw [List.forall_mem_append, ← Job.values_of_deeds_iff hvalid]
  constructor
  · intro hlines
    have hadjust : ∀ dir ∈ job.remotePaths, ∀ deed ∈ Deed.enter dir :: job.deeds,
        ∀ value ∈ deed.values, ¬ value.MayBeOption := by
      intro dir hdir
      obtain ⟨line, hline, hdeeds⟩ := job.deeds?_adjust (h := h) dir
      obtain ⟨deeds, hread, hvalues⟩ := hlines (job.adjust dir)
        (Job.mem_steps.mpr (.inr ⟨dir, hdir, .inr rfl⟩)) line hline
      obtain rfl := Option.some_inj.mp (hdeeds.symm.trans hread)
      exact hvalues
    obtain ⟨first, hfirst⟩ := List.exists_mem_of_ne_nil _ (Job.remotePaths_ne_nil_of_validate hvalid)
    refine ⟨fun deed hdeed => hadjust first hfirst deed (.tail _ hdeed), fun dir hdir => ?_⟩
    have henter := hadjust dir hdir (.enter dir) (.head _) (.text dir) (.head _)
    rwa [Argument.mayBeOption_text, Bool.not_eq_true] at henter
  · rintro ⟨hnames, hpaths⟩ step hstep line hline
    obtain ⟨request, -, rfl⟩ | ⟨dir, hdir, rfl | rfl⟩ := Job.mem_steps.mp hstep
    · cases hline
    · cases hline
    · obtain ⟨line', hline', hdeeds⟩ := job.deeds?_adjust (h := h) dir
      obtain rfl := Option.some_inj.mp (hline'.symm.trans hline)
      refine ⟨_, hdeeds, List.forall_mem_cons.mpr ⟨fun value hvalue => ?_, hnames⟩⟩
      obtain rfl := List.mem_singleton.mp hvalue
      rw [Argument.mayBeOption_text, hpaths dir hdir]
      exact Bool.false_ne_true

end Remote.Host

/-- A job keeps to its directories just when none of its words has a dash in front, and slashes in its
names lead back to them. -/
theorem Job.confined_iff (h : Host δ) (hvalid : job.validate = .ok ()) :
    (h.Confines job ↔ (∀ s ∈ job.names ++ job.remotePaths, Argument.isOption s = false) ∧ h.Returns job) ∧
      ('/' ∉ job.mode.base.toList → '/' ∉ job.delivered.toList →
        (h.Confines job ↔ ∀ s ∈ job.names ++ job.remotePaths, Argument.isOption s = false)) := by
  have hconfined : h.Confines job ↔
      (∀ s ∈ job.names ++ job.remotePaths, Argument.isOption s = false) ∧ h.Returns job := by
    rw [← Host.lines_iff_words (h := h) hvalid, ← Host.entries_iff_returns hvalid]
    exact ⟨fun ⟨hlines, hentries⟩ => ⟨hlines, hentries⟩, fun ⟨hlines, hentries⟩ => ⟨hlines, hentries⟩⟩
  refine ⟨hconfined, fun hbase hdelivered => ?_⟩
  rw [hconfined, and_iff_left (Host.returns_of_notMem hvalid hbase hdelivered)]

theorem Job.confined_iff_to_two_spellings :
    let job := toTwoSpellings (.overwrite "plugin")
    job.validate = .ok () ∧ Host.spelled.Confines job := by
  have hvalid : (toTwoSpellings (.overwrite "plugin")).validate = .ok () := by decide
  exact ⟨hvalid, ((confined_iff Host.spelled hvalid).2 (by decide) (by decide)).mpr (by decide)⟩

/-- A link name may lead out of all directories, and a base name may be taken for options. -/
theorem Job.not_confined_to_two_spellings :
    let upwards := toTwoSpellings (.symlinkSwap "../plugin")
    let dashed := toTwoSpellings (.overwrite "-plugin")
    (upwards.validate = .ok () ∧
      upwards.adjust "/srv/plugins" = .relink "/srv/plugins"
        "cd /srv/plugins && rm -f ../plugin.jar && ln -s plugin-1.0.jar ../plugin.jar" ∧
      ¬ Host.spelled.Confines upwards) ∧
    dashed.validate = .ok () ∧
      dashed.adjust "/srv/plugins" = .clean "/srv/plugins" "cd /srv/plugins && rm -f -plugin*.jar" ∧
      ¬ Host.spelled.Confines dashed := by
  intro upwards dashed
  refine ⟨⟨by decide, by decide, fun hconfined => ?_⟩, by decide, by decide, fun hconfined => ?_⟩
  · have hreturns := (Host.entries_iff_returns (by decide)).mp hconfined.entries
    obtain ⟨path, hpath, hd⟩ := hreturns.base "/srv/plugins" (by decide)
      [.name ['s', 'r', 'v'], .name "plugins".toList] [.name ['s', 'r', 'v']] (by decide) (by decide)
    revert path
    decide
  · have hwords := (Host.lines_iff_words (by decide)).mp hconfined.lines "-plugin" (by decide)
    exact absurd hwords (by decide)

end Rollout
