import Mathlib.Data.Prod.Basic
import Rollout.Proofs.Delivery

/-!
Where uploads land. The destination of an upload is put together as a text, and the line for the same
directory changes into the text as it stands; both mean one directory, however many slashes and dots
it is written with. Only a `..` behind a link can lead the shell elsewhere than the upload.
-/

namespace Rollout

open Remote

variable {δ : Type}

namespace Shell.Command

structure Joins (dir file path : String) : Prop where
  absolute : (⟨path⟩ : Path).isAbsolute ↔ (⟨dir⟩ : Path).isAbsolute
  slash : ∃ start : String, path = start ++ "/" ++ file ∧ start.toList.getLast? ≠ some '/'
  components : Path.components ⟨path⟩ = Path.components ⟨dir⟩ ++ [.name file.toList]

theorem joins_joinRemote {dir file : String} (hdir : dir ≠ "") (hfile : Path.IsEntryName file.toList) :
    Joins dir file (joinRemote dir file) where
  absolute := by rw [isAbsolute_joinRemote hdir]
  slash := joinRemote_slash dir file
  components := componentsOf_joinRemote hdir hfile

end Shell.Command

namespace Step

def destination? : Step → Option String
  | .transfer _ destination => some destination
  | _ => none

def work? : Step → Option (String × String)
  | .clean directory command => some (directory, command)
  | .relink directory command => some (directory, command)
  | _ => none

end Step

namespace Remote.Host

variable {h : Host δ} {here : δ} {t t' : Contents δ} {ok : Bool} {path line : String}
  {rest : List Command}

theorem runs_cd_iff : h.Runs (.cd path :: rest) here t t' ok ↔
    (∃ there, h.entered? here path = some there ∧ h.Runs rest there t t' ok) ∨
      ok = false ∧ t' = t := by
  constructor
  · rintro (_ | ⟨hcd, hrest⟩ | hcd)
    · obtain ⟨rfl, hdir⟩ := hcd.of_cd
      exact .inl ⟨_, hdir rfl, hrest⟩
    · exact .inr ⟨rfl, hcd.of_cd.1⟩
  · rintro (⟨there, hdir, hrest⟩ | ⟨rfl, rfl⟩)
    · exact .next (.gone hdir) hrest
    · exact .failed .stayed

theorem commands?_of_cd {more : List (List Rehearsal.Shell.Word)} (hpath : path ≠ "")
    (hoption : Argument.isOption path = false)
    (htokens : Shell.tokens? line.toList =
      some (Shell.andList ([Shell.valueWord "cd", Shell.valueWord path] :: more))) :
    ∃ rest, h.commands? line = some (.cd path :: rest) := by
  have hspells := Shell.spells_valueWord
  rw [h.commands?_of_tokens htokens, List.map_cons]
  simp only [List.flatMap_cons, List.flatMap_nil, h.arguments_of_spells (hspells _),
    List.singleton_append, Command.ofArguments_cd hpath hoption]
  exact ⟨_, rfl⟩

/-- A destination that lies, under a name, in the directory that a line changes into, just where the
shell and the upload are led to one directory: what follows the change is then run in the directory
that holds the destination, or not at all. -/
structure Lands (h : Host δ) (name destination : String) (work : String × String) : Prop where
  joins : Shell.Command.Joins work.1 name destination
  place : h.place? h.home destination = (h.directory? h.home work.1).map (·, name)
  agrees_iff : h.place? h.home destination = (h.entered? h.home work.1).map (·, name) ↔
    h.Agrees work.1
  enters : Argument.isOption work.1 = false →
    ∃ rest, h.commands? work.2 = some (.cd work.1 :: rest) ∧
      (h.Agrees work.1 → ∀ t t' ok, h.Runs (.cd work.1 :: rest) h.home t t' ok ↔
        (∃ d, h.place? h.home destination = some (d, name) ∧ h.Runs rest d t t' ok) ∨
          ok = false ∧ t' = t)

theorem lands_joinRemote {dir name : String} {more : List (List Rehearsal.Shell.Word)}
    (hdir : dir ≠ "") (hname : Path.IsEntryName name.toList)
    (htokens : Shell.tokens? line.toList =
      some (Shell.andList ([Shell.valueWord "cd", Shell.valueWord dir] :: more))) :
    h.Lands name (Shell.Command.joinRemote dir name) (dir, line) where
  joins := Shell.Command.joins_joinRemote hdir hname
  place := place?_joinRemote hdir hname
  agrees_iff := by
    rw [place?_joinRemote hdir hname, Agrees, eq_comm]
    exact (Option.map_injective (Prod.mk_left_injective name)).eq_iff
  enters hoption := by
    obtain ⟨rest, hcommands⟩ := h.commands?_of_cd hdir hoption htokens
    refine ⟨rest, hcommands, fun hagrees t t' ok => ?_⟩
    rw [runs_cd_iff, place?_joinRemote hdir hname, hagrees]
    simp

end Remote.Host

namespace Job

variable {job : Job}

def lineIn (job : Job) (dir : String) : String :=
  match job.mode with
  | .overwrite base => Shell.Command.clean dir base
  | .symlinkSwap link => Shell.Command.relink dir link (job.artifact.fileName.getD "")

theorem work?_adjust (dir : String) : (job.adjust dir).work? = some (dir, job.lineIn dir) := by
  unfold adjust lineIn
  cases job.mode <;> rfl

theorem destination?_adjust (dir : String) : (job.adjust dir).destination? = none := by
  unfold adjust
  cases job.mode <;> rfl

theorem filterMap_steps {α : Type} (job : Job) {f : Step → Option α}
    (hlock : ∀ request, f (.lockCheck request) = none) :
    job.steps.filterMap f =
        job.remotePaths.filterMap (f ∘ job.upload) ++ job.remotePaths.filterMap (f ∘ job.adjust) ∨
      job.steps.filterMap f =
        job.remotePaths.filterMap (f ∘ job.adjust) ++ job.remotePaths.filterMap (f ∘ job.upload) := by
  have hlocks : (job.lock.map Step.lockCheck).toList.filterMap f = [] := by
    cases job.lock with
    | none => rfl
    | some request => simp [hlock]
  cases hmode : job.mode with
  | overwrite base =>
    right
    rw [steps_of_overwrite hmode, List.filterMap_append, List.filterMap_append, hlocks,
      List.filterMap_map, List.filterMap_map, List.nil_append]
  | symlinkSwap link =>
    left
    rw [steps_of_swap hmode, List.filterMap_append, List.filterMap_append, hlocks,
      List.filterMap_map, List.filterMap_map, List.nil_append]

theorem destinations_steps (job : Job) : job.steps.filterMap Step.destination? =
    job.remotePaths.map (Shell.Command.joinRemote · job.delivered) := by
  have hupload : job.remotePaths.filterMap (Step.destination? ∘ job.upload) =
      job.remotePaths.map (Shell.Command.joinRemote · job.delivered) :=
    congrFun List.filterMap_eq_map' _
  have hadjust : job.remotePaths.filterMap (Step.destination? ∘ job.adjust) = [] :=
    List.filterMap_eq_nil_iff.mpr fun dir _ => job.destination?_adjust dir
  obtain hsteps | hsteps := job.filterMap_steps (f := Step.destination?) fun _ => rfl
  · rw [hsteps, hupload, hadjust, List.append_nil]
  · rw [hsteps, hupload, hadjust, List.nil_append]

theorem works_steps (job : Job) : job.steps.filterMap Step.work? =
    job.remotePaths.map fun dir => (dir, job.lineIn dir) := by
  have hupload : job.remotePaths.filterMap (Step.work? ∘ job.upload) = [] :=
    List.filterMap_eq_nil_iff.mpr fun _ _ => rfl
  have hadjust : job.remotePaths.filterMap (Step.work? ∘ job.adjust) =
      job.remotePaths.map fun dir => (dir, job.lineIn dir) := by
    rw [← List.filterMap_eq_map]
    exact List.filterMap_congr fun dir _ => job.work?_adjust dir
  obtain hsteps | hsteps := job.filterMap_steps (f := Step.work?) fun _ => rfl
  · rw [hsteps, hupload, hadjust, List.nil_append]
  · rw [hsteps, hupload, hadjust, List.append_nil]

theorem tokens?_lineIn (dir : String) : ∃ more, Shell.tokens? (job.lineIn dir).toList =
    some (Shell.andList ([Shell.valueWord "cd", Shell.valueWord dir] :: more)) := by
  unfold lineIn
  cases job.mode with
  | overwrite base => exact ⟨_, Shell.Command.tokens?_clean dir base⟩
  | symlinkSwap link => exact ⟨_, Shell.Command.tokens?_relink dir link _⟩

theorem isEntryName_delivered (hvalid : job.validate = .ok ()) (hbase : '/' ∉ job.mode.base.toList)
    (hversion : '/' ∉ job.artifact.version.toList) : Path.IsEntryName job.delivered.toList := by
  cases hmode : job.mode with
  | overwrite base =>
    rw [hmode, DeployMode.base] at hbase
    rw [delivered, hmode]
    apply Path.isEntryName_jar
    simp [hbase, hversion]
  | symlinkSwap link =>
    obtain ⟨file, hfile⟩ := exists_fileName_of_validate hvalid
    rw [delivered, hmode]
    simpa [hfile] using Path.isEntryName_of_fileName hfile

/-- A joined path leads where its directory does, and there to the file. So each upload of a job lands
in the directory that the line for the same remote path changes into, if that path has no `..` or the
shell takes it where the upload does. -/
theorem uploads_land (h : Host δ) :
    (∀ dir file : String, dir ≠ "" → Path.IsEntryName file.toList →
      Shell.Command.Joins dir file (Shell.Command.joinRemote dir file)) ∧
    (∀ dir : String, .up ∉ Path.components ⟨dir⟩ → h.Agrees dir) ∧
    ∀ job : Job, job.validate = .ok () → '/' ∉ job.mode.base.toList →
      '/' ∉ job.artifact.version.toList →
      (job.steps.filterMap Step.work?).map (·.1) = job.remotePaths ∧
        List.Forall₂ (h.Lands job.delivered) (job.steps.filterMap Step.destination?)
          (job.steps.filterMap Step.work?) := by
  refine ⟨fun dir file => Shell.Command.joins_joinRemote, fun dir => h.agrees_of_notMem,
    fun job hvalid hbase hversion => ?_⟩
  rw [destinations_steps, works_steps, List.map_map, List.forall₂_map_left_iff,
    List.forall₂_map_right_iff, List.forall₂_same]
  refine ⟨List.map_id _, fun dir hdir => ?_⟩
  obtain ⟨more, htokens⟩ := job.tokens?_lineIn dir
  exact Host.lands_joinRemote ((sound_of_validate hvalid).paths dir hdir)
    (isEntryName_delivered hvalid hbase hversion) htokens

theorem uploads_land_under_every_spelling :
    let job := { toTwoSpellings (.overwrite "plugin") with
      remotePaths := ["//", "/srv//plugins///", "plugins", "./../a/."] }
    job.validate = .ok () ∧ '/' ∉ job.mode.base.toList ∧ '/' ∉ job.artifact.version.toList ∧
      Shell.Command.Joins "plugins//" "a.jar" "plugins/a.jar" ∧
      List.Forall₂ (Host.spelled.Lands "plugin-1.0.jar")
        ["/plugin-1.0.jar", "/srv//plugins/plugin-1.0.jar", "plugins/plugin-1.0.jar",
          "./../a/./plugin-1.0.jar"]
        [("//", "cd // && rm -f plugin*.jar"),
          ("/srv//plugins///", "cd /srv//plugins/// && rm -f plugin*.jar"),
          ("plugins", "cd plugins && rm -f plugin*.jar"),
          ("./../a/.", "cd ./../a/. && rm -f plugin*.jar")] := by
  intro job
  have hvalid : job.validate = .ok () := by decide
  have hbase : '/' ∉ job.mode.base.toList := by decide
  have hversion : '/' ∉ job.artifact.version.toList := by decide
  have hname : job.delivered = "plugin-1.0.jar" := by decide
  have hdestinations : job.steps.filterMap Step.destination? =
      ["/plugin-1.0.jar", "/srv//plugins/plugin-1.0.jar", "plugins/plugin-1.0.jar",
        "./../a/./plugin-1.0.jar"] := by decide
  have hworks : job.steps.filterMap Step.work? =
      [("//", "cd // && rm -f plugin*.jar"),
        ("/srv//plugins///", "cd /srv//plugins/// && rm -f plugin*.jar"),
        ("plugins", "cd plugins && rm -f plugin*.jar"),
        ("./../a/.", "cd ./../a/. && rm -f plugin*.jar")] := by decide
  obtain ⟨hjoins, -, hjobs⟩ := uploads_land Host.spelled
  obtain ⟨-, hlands⟩ := hjobs job hvalid hbase hversion
  rw [hname, hdestinations, hworks] at hlands
  exact ⟨hvalid, hbase, hversion, hjoins "plugins//" "a.jar" (by decide) (by decide), hlands⟩

end Job

namespace Remote.Host

/-- One more step of a path, where a shell lets `..` take back the name before it. -/
def retrace (done : List Path.Component) : Path.Component → List Path.Component
  | .here => done
  | .up =>
    match done.getLast? with
    | some (.name _) => done.dropLast
    | some .root => done
    | _ => done ++ [.up]
  | step => done ++ [step]

/-- One step of a path where `current`, at home, is a link to `releases/7`. -/
def follow (d : List Path.Component) (step : Path.Component) : Option (List Path.Component) :=
  if d = [] ∧ step = .name "current".toList then some [.name "releases".toList, .name ['7']]
  else spell d step

theorem foldlM_retrace {d : List Path.Component} {done steps : List Path.Component}
    (hup : .up ∉ steps) : (steps.foldl retrace done).foldlM follow d = (done ++ steps).foldlM follow d := by
  induction steps generalizing done with
  | nil => rw [List.foldl_nil, List.append_nil]
  | cons step steps ih =>
    rw [List.mem_cons, not_or] at hup
    rw [List.foldl_cons, ih hup.2]
    cases step with
    | up => exact absurd rfl hup.1
    | here => simp [retrace, follow, spell]
    | root => simp [retrace]
    | name cs => simp [retrace]

def linked : Host (List Path.Component) where
  session := { self := "1", name := "sh" }
  substitute s _ := (s, "")
  home := []
  walk := follow
  change d steps := (steps.foldl retrace []).foldlM follow d
  change_of_notMem _ _ := foldlM_retrace

end Remote.Host

/-- Behind a link, `..` takes the upload to another directory than the shell. -/
theorem Job.uploads_land_behind_link :
    let job := { toTwoSpellings (.overwrite "plugin") with remotePaths := ["current/../plugins"] }
    let line := "cd current/../plugins && rm -f plugin*.jar"
    let h := Host.linked
    job.validate = .ok () ∧ '/' ∉ job.mode.base.toList ∧ '/' ∉ job.artifact.version.toList ∧
      Argument.isOption "current/../plugins" = false ∧
      job.steps.filterMap Step.destination? = ["current/../plugins/plugin-1.0.jar"] ∧
      job.steps.filterMap Step.work? = [("current/../plugins", line)] ∧
      h.place? h.home "current/../plugins/plugin-1.0.jar" =
        some ([.name "releases".toList, .name "plugins".toList], "plugin-1.0.jar") ∧
      ∀ rest t t', h.commands? line = some (.cd "current/../plugins" :: rest) →
        h.Runs (.cd "current/../plugins" :: rest) h.home t t' true →
          h.Runs rest [.name "plugins".toList] t t' true := by
  intro job line h
  refine ⟨by decide, by decide, by decide, by decide, by decide, by decide, by decide,
    fun rest t t' _ hruns => ?_⟩
  obtain ⟨there, hthere, hrest⟩ | ⟨⟨⟩, -⟩ := Host.runs_cd_iff.mp hruns
  have hplugins : h.entered? h.home "current/../plugins" = some [.name "plugins".toList] := by decide
  obtain rfl := Option.some_inj.mp (hthere.symm.trans hplugins)
  exact hrest

end Rollout
