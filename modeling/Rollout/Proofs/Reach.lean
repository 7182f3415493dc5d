import Mathlib.Data.List.Count
import Rollout.Proofs.Swap
import Rollout.Proofs.Overwrite

/-!
What the steps of a job reach. A line is read as its commands read their words: a word with a dash in
front may be an option, and a name with a slash is a path. Nothing is left out here for being unusual,
so that it can be said of every job which entries it changes.
-/

namespace Rollout

open Remote

variable {δ : Type}

namespace Remote

open Rehearsal.Shell (Pattern PatternItem)

namespace Argument

/-- The texts that a command may be handed for an argument. No slash comes of a wildcard. -/
def StandsFor : Argument → String → Prop
  | .text s, t => t = s
  | .glob pattern, t => pattern.admits t.toList ∧ t.toList.count '/' = pattern.count (.char '/')

def MayBeOption (a : Argument) : Prop := ∃ t, a.StandsFor t ∧ isOption t

theorem count_slash_versions (base : String) :
    (Host.versions base).count (.char '/') = base.toList.count '/' := by
  have hchars (cs : List Char) : (cs.map PatternItem.char).count (.char '/') = cs.count '/' :=
    List.count_map_of_injective _ _ (fun _ _ => PatternItem.char.inj) _
  rw [Host.versions, List.count_append, List.count_cons_of_ne (by simp), hchars, hchars]
  rfl

theorem standsFor_versions {base t : String} :
    (Argument.glob (Host.versions base)).StandsFor t ↔
      ∃ mid : String, '/' ∉ mid.toList ∧ t = base ++ mid ++ ".jar" := by
  rw [StandsFor, Host.admits_versions, count_slash_versions]
  constructor
  · rintro ⟨⟨mid, rfl⟩, hcount⟩
    refine ⟨mid, ?_, rfl⟩
    rw [String.toList_append, String.toList_append, List.count_append, List.count_append] at hcount
    rw [← List.count_eq_zero]
    omega
  · rintro ⟨mid, hmid, rfl⟩
    refine ⟨⟨mid, rfl⟩, ?_⟩
    rw [String.toList_append, String.toList_append, List.count_append, List.count_append,
      List.count_eq_zero.mpr hmid]
    rfl

theorem mayBeOption_text {s : String} : (Argument.text s).MayBeOption ↔ isOption s := by
  simp [MayBeOption, StandsFor]

theorem mayBeOption_versions {base : String} (hne : base ≠ "") :
    (Argument.glob (Host.versions base)).MayBeOption ↔ isOption base := by
  simp only [MayBeOption, standsFor_versions]
  constructor
  · rintro ⟨_, ⟨mid, -, rfl⟩, hoption⟩
    rwa [String.append_assoc, isOption_append hne] at hoption
  · intro hoption
    refine ⟨_, ⟨"", by simp, rfl⟩, ?_⟩
    rwa [String.append_assoc, isOption_append hne]

end Argument

inductive Deed
  | enter (path : String)
  | remove (operand : Argument)
  | link (target name : String)

namespace Deed

def ofArguments? : List Argument → Option Deed
  | [.text "cd", .text path] => some (.enter path)
  | [.text "rm", .text "-f", operand] => some (.remove operand)
  | [.text "ln", .text "-s", .text target, .text name] => some (.link target name)
  | _ => none

def values : Deed → List Argument
  | .enter path => [.text path]
  | .remove operand => [operand]
  | .link target name => [.text target, .text name]

end Deed

namespace Host

variable (h : Host δ)

def deeds? (line : String) : Option (List Deed) := do
  let commands ← simpleCommands? (← Shell.tokens? line.toList)
  commands.mapM fun words => Deed.ofArguments? (words.flatMap h.arguments)

def Reaches : List Deed → δ → δ × String → Prop
  | [], _, _ => False
  | .enter path :: rest, here, entry =>
    ∃ there, h.entered? here path = some there ∧ Reaches rest there entry
  | .remove operand :: rest, here, entry =>
    (∃ t, operand.StandsFor t ∧ h.place? here t = some entry) ∨ Reaches rest here entry
  | .link _ name :: rest, here, entry => h.place? here name = some entry ∨ Reaches rest here entry

/-- The entries that a step may change; all of them, if its line cannot be read. -/
def Touches : Step → δ × String → Prop
  | .lockCheck _, _ => False
  | .clean _ line, entry => ∀ deeds, h.deeds? line = some deeds → h.Reaches deeds h.home entry
  | .relink _ line, entry => ∀ deeds, h.deeds? line = some deeds → h.Reaches deeds h.home entry
  | .transfer _ path, entry => h.place? h.home path = some entry

variable {h}

theorem deeds?_of_tokens {line : String} {first : List Rehearsal.Shell.Word}
    {rest : List (List Rehearsal.Shell.Word)}
    (htokens : Shell.tokens? line.toList = some (Shell.andList (first :: rest))) :
    h.deeds? line =
      (first :: rest).mapM fun words => Deed.ofArguments? (words.flatMap h.arguments) := by
  rw [deeds?, htokens]
  change (do let commands ← simpleCommands? (Shell.andList (first :: rest)); _) = _
  rw [simpleCommands?_andList]
  rfl

theorem deeds?_clean (dir base : String) :
    h.deeds? (Shell.Command.clean dir base) = some [.enter dir, .remove (.glob (versions base))] := by
  have hspells := Shell.spells_valueWord
  have hglob := h.arguments_of_globs (Shell.Globs.of_spells (hspells base) (hspells ".jar"))
  rw [← versions] at hglob
  rw [deeds?_of_tokens (Shell.Command.tokens?_clean dir base)]
  simp [h.arguments_of_spells (hspells _), hglob, Deed.ofArguments?]

theorem deeds?_relink (dir link archive : String) :
    h.deeds? (Shell.Command.relink dir link archive) =
      some [.enter dir, .remove (.text (link ++ ".jar")), .link archive (link ++ ".jar")] := by
  have hspells := Shell.spells_valueWord
  have hjar := h.arguments_of_spells ((hspells link).append (hspells ".jar"))
  rw [deeds?_of_tokens (Shell.Command.tokens?_relink dir link archive)]
  simp [h.arguments_of_spells (hspells _), hjar, Deed.ofArguments?]

theorem touches_of_lineOf {step : Step} {line : String} {deeds : List Deed} {entry : δ × String}
    (hline : lineOf? step = some line) (hdeeds : h.deeds? line = some deeds) :
    h.Touches step entry ↔ h.Reaches deeds h.home entry := by
  cases step with
  | lockCheck => cases hline
  | transfer => cases hline
  | clean directory command =>
    cases hline
    simp [Touches, hdeeds]
  | relink directory command =>
    cases hline
    simp [Touches, hdeeds]

theorem place?_of_leaf {here : δ} {path : String} (hleaf : Path.IsEntryName (Path.leaf path).toList) :
    h.place? here path = (h.directory? here (Path.folder path)).map (·, Path.leaf path) := by
  rw [place?, Path.componentsOf_folder hleaf, directory?]
  simp

theorem place?_jar_eq_some {here : δ} {name : String} {entry : δ × String} :
    h.place? here (name ++ ".jar") = some entry ↔
      h.directory? here (Path.folder name) = some entry.1 ∧ entry.2 = Path.leaf name ++ ".jar" := by
  have hjar : '/' ∉ ".jar".toList := by decide
  have hleaf : Path.IsEntryName (Path.leaf (name ++ ".jar")).toList := by
    rw [Path.leaf_append hjar]
    exact Path.isEntryName_jar (Path.notMem_leaf name)
  rw [place?_of_leaf hleaf, Path.folder_append hjar, Path.leaf_append hjar, Option.map_eq_some_iff]
  constructor
  · rintro ⟨d, hd, rfl⟩
    exact ⟨hd, rfl⟩
  · rintro ⟨hd, hname⟩
    exact ⟨entry.1, hd, Prod.ext rfl hname.symm⟩

@[simp] theorem directory?_nothing (here : δ) : h.directory? here "" = some here := rfl

theorem directory?_joinRemote_nothing {here : δ} {dir : String} (hdir : dir ≠ "") :
    h.directory? here (Shell.Command.joinRemote dir "") = h.directory? here dir := by
  rw [directory?, Shell.Command.componentsOf_joinRemote_nothing hdir, directory?]

end Host

end Remote

def DeployMode.Renews : DeployMode → String → Prop
  | .overwrite base, name => ∃ mid : String, '/' ∉ mid.toList ∧ name = Path.leaf base ++ mid ++ ".jar"
  | .symlinkSwap link, name => name = Path.leaf link ++ ".jar"

theorem DeployMode.exists_renews (mode : DeployMode) : ∃ name, mode.Renews name := by
  cases mode with
  | overwrite base => exact ⟨_, "", by simp, rfl⟩
  | symlinkSwap link => exact ⟨_, rfl⟩

namespace Job

variable {job : Job} {h : Host δ}

def deeds (job : Job) : List Deed :=
  match job.mode with
  | .overwrite base => [.remove (.glob (Host.versions base))]
  | .symlinkSwap link =>
    [.remove (.text (link ++ ".jar")), .link (job.artifact.fileName.getD "") (link ++ ".jar")]

theorem deeds?_adjust (dir : String) :
    ∃ line, Host.lineOf? (job.adjust dir) = some line ∧
      h.deeds? line = some (.enter dir :: job.deeds) := by
  unfold adjust deeds
  cases job.mode with
  | overwrite base => exact ⟨_, rfl, Host.deeds?_clean dir base⟩
  | symlinkSwap link => exact ⟨_, rfl, Host.deeds?_relink dir link _⟩

theorem reaches_deeds {here : δ} {entry : δ × String} :
    h.Reaches job.deeds here entry ↔
      h.directory? here (Path.folder job.mode.base) = some entry.1 ∧ job.mode.Renews entry.2 := by
  unfold deeds
  cases job.mode with
  | overwrite base =>
    simp only [Host.Reaches, or_false, Argument.standsFor_versions]
    constructor
    · rintro ⟨_, ⟨mid, hmid, rfl⟩, hplace⟩
      rw [Host.place?_jar_eq_some, Path.folder_append hmid, Path.leaf_append hmid] at hplace
      exact ⟨hplace.1, mid, hmid, hplace.2⟩
    · rintro ⟨hd, mid, hmid, hname⟩
      refine ⟨_, ⟨mid, hmid, rfl⟩, ?_⟩
      rw [Host.place?_jar_eq_some, Path.folder_append hmid, Path.leaf_append hmid]
      exact ⟨hd, hname⟩
  | symlinkSwap link =>
    simp only [Host.Reaches, or_false, Argument.StandsFor, exists_eq_left, or_self]
    exact Host.place?_jar_eq_some

theorem touches_adjust {dir : String} {entry : δ × String} :
    h.Touches (job.adjust dir) entry ↔ ∃ d, h.entered? h.home dir = some d ∧
      h.directory? d (Path.folder job.mode.base) = some entry.1 ∧ job.mode.Renews entry.2 := by
  obtain ⟨line, hline, hdeeds⟩ := job.deeds?_adjust (h := h) dir
  rw [Host.touches_of_lineOf hline hdeeds]
  exact exists_congr fun d => and_congr_right fun _ => reaches_deeds

theorem isEntryName_leaf_delivered (hvalid : job.validate = .ok ()) :
    Path.IsEntryName (Path.leaf job.delivered).toList := by
  unfold delivered
  cases job.mode with
  | overwrite base =>
    change Path.IsEntryName (Path.leaf (job.versioned base)).toList
    rw [versioned, Path.leaf_append (by decide)]
    exact Path.isEntryName_jar (Path.notMem_leaf _)
  | symlinkSwap link =>
    obtain ⟨file, hfile⟩ := exists_fileName_of_validate hvalid
    have hname := Path.isEntryName_of_fileName hfile
    change Path.IsEntryName (Path.leaf (job.artifact.fileName.getD "")).toList
    rw [hfile, Option.getD_some, Path.leaf_of_notMem hname.2.1]
    exact hname

theorem touches_upload (hvalid : job.validate = .ok ()) {dir : String} {entry : δ × String} :
    h.Touches (job.upload dir) entry ↔
      h.directory? h.home (Shell.Command.joinRemote dir (Path.folder job.delivered)) = some entry.1 ∧
        entry.2 = Path.leaf job.delivered := by
  have hleaf : Path.IsEntryName
      (Path.leaf (Shell.Command.joinRemote dir job.delivered)).toList := by
    rw [Shell.Command.leaf_joinRemote]
    exact isEntryName_leaf_delivered hvalid
  rw [upload, Host.Touches, Host.place?_of_leaf hleaf, Shell.Command.folder_joinRemote,
    Shell.Command.leaf_joinRemote, Option.map_eq_some_iff]
  constructor
  · rintro ⟨d, hd, rfl⟩
    exact ⟨hd, rfl⟩
  · rintro ⟨hd, hname⟩
    exact ⟨entry.1, hd, Prod.ext rfl hname.symm⟩

end Job

end Rollout
