import Rollout.Proofs.Delivery

/-!
Links that are swapped. Archives are uploaded to all directories before a link is touched in any of
them, so that no link is ever left that leads to an archive which is not there.
-/

namespace Rollout

open Program Remote

variable {ι δ : Type}

theorem prefix_append_split {α : Type} {as bs cs : List α} (h : as <+: bs ++ cs) :
    as <+: bs ∨ ∃ ds, ds ≠ [] ∧ as = bs ++ ds ∧ ds <+: cs := by
  obtain hbs | ⟨ds, rfl⟩ := List.prefix_or_prefix_of_prefix h (List.prefix_append bs cs)
  · exact .inl hbs
  · by_cases hds : ds = []
    · exact .inl (by simp [hds])
    · exact .inr ⟨ds, hds, rfl, (List.prefix_append_right_inj bs).mp h⟩

theorem mem_dropLast_mono {α : Type} {as bs : List α} (h : as <+: bs) {a : α}
    (ha : a ∈ as.dropLast) : a ∈ bs.dropLast := by
  obtain ⟨rest, rfl⟩ := h
  by_cases hrest : rest = []
  · rwa [hrest, List.append_nil]
  · rw [List.dropLast_append_of_ne_nil hrest]
    exact List.mem_append_left _ (List.mem_of_mem_dropLast ha)

namespace Remote.Host

variable {h : Host δ} {here there : δ} {t t' : Contents δ} {ok : Bool}

theorem Performs.of_remove {name : String}
    (hperforms : h.Performs (.remove [(· == name)]) here t there t' ok) :
    there = here ∧ (t' = t.lay (fun d n => d = here ∧ n = name) none ∨ ok = false ∧ t' = t) := by
  cases hperforms with
  | removed _ => exact ⟨rfl, .inl (Contents.lay_congr (by simp))⟩
  | @unremoved _ _ _ part hpart =>
    have hname (n : String) (hn : part n) : n = name := by simpa using hpart n hn
    refine ⟨rfl, ?_⟩
    by_cases hgone : part name
    · refine .inl (Contents.lay_congr fun d n => and_congr_right fun _ => ?_)
      exact ⟨hname n, fun hn => hn ▸ hgone⟩
    · refine .inr ⟨rfl, Contents.lay_none ?_⟩
      rintro d n ⟨-, hn⟩
      exact hgone (hname n hn ▸ hn)

theorem Performs.of_link {target name : String} (hnone : t here name = none)
    (hperforms : h.Performs (.link target name) here t there t' ok) :
    t' = t.lay (fun d n => d = here ∧ n = name) (some (.link target)) ∨ ok = false ∧ t' = t := by
  cases hperforms with
  | linked _ => exact .inl rfl
  | unlinked => exact .inr ⟨rfl, rfl⟩
  | elsewhere hthere =>
    obtain hthere | ⟨away, hthere⟩ := hthere <;> simp [hnone] at hthere

def relinking (dir target name : String) : List Command :=
  [.cd dir, .remove [(· == name)], .link target name]

theorem Runs.of_relinking {dir target name : String}
    (hruns : h.Runs (relinking dir target name) here t t' true) :
    ∃ d, h.entered? here dir = some d ∧
      t' = t.lay (fun d' n => d' = d ∧ n = name) (some (.link target)) := by
  obtain _ | ⟨hcd, _ | ⟨hremove, _ | ⟨hlink, ⟨⟩⟩⟩⟩ := hruns
  obtain ⟨rfl, hdir⟩ := hcd.of_cd
  obtain ⟨rfl, rfl | ⟨⟨⟩, -⟩⟩ := hremove.of_remove
  obtain rfl | ⟨⟨⟩, -⟩ := hlink.of_link (Contents.lay_of ⟨rfl, rfl⟩)
  exact ⟨_, hdir rfl, Contents.lay_lay_of_imp fun _ _ => id⟩

theorem Runs.of_prefix_link {target name : String} {part : List Command}
    (hpart : part <+: [.link target name]) (hnone : t here name = none)
    (hruns : h.Runs part here t t' ok) :
    t' = t ∨ t' = t.lay (fun d n => d = here ∧ n = name) (some (.link target)) := by
  obtain rfl | ⟨part, rfl, hnil⟩ := List.prefix_cons_iff.mp hpart
  · cases hruns
    exact .inl rfl
  · obtain rfl := List.prefix_nil.mp hnil
    have hlink (there : δ) {t' : Contents δ} {ok : Bool}
        (hlink : h.Performs (.link target name) here t there t' ok) :
        t' = t ∨ t' = t.lay (fun d n => d = here ∧ n = name) (some (.link target)) := by
      obtain rfl | ⟨-, rfl⟩ := hlink.of_link hnone
      · exact .inr rfl
      · exact .inl rfl
    cases hruns with
    | failed hperforms => exact hlink _ hperforms
    | next hperforms hdone =>
      cases hdone
      exact hlink _ hperforms

theorem Runs.of_prefix_remove {target name : String} {part : List Command}
    (hpart : part <+: [.remove [(· == name)], .link target name])
    (hruns : h.Runs part here t t' ok) :
    t' = t ∨ ∃ e, (e = none ∨ e = some (.link target)) ∧
      t' = t.lay (fun d n => d = here ∧ n = name) e := by
  obtain rfl | ⟨part, rfl, hrest⟩ := List.prefix_cons_iff.mp hpart
  · cases hruns
    exact .inl rfl
  · cases hruns with
    | failed hremove =>
      obtain ⟨-, rfl | ⟨-, rfl⟩⟩ := hremove.of_remove
      · exact .inr ⟨none, .inl rfl, rfl⟩
      · exact .inl rfl
    | next hremove hruns =>
      obtain ⟨rfl, rfl | ⟨⟨⟩, -⟩⟩ := hremove.of_remove
      obtain rfl | rfl := hruns.of_prefix_link hrest (Contents.lay_of ⟨rfl, rfl⟩)
      · exact .inr ⟨none, .inl rfl, rfl⟩
      · exact .inr ⟨_, .inr rfl, Contents.lay_lay_of_imp fun _ _ => id⟩

theorem Runs.of_prefix_relinking {dir target name : String} {part : List Command}
    (hpart : part <+: relinking dir target name) (hruns : h.Runs part here t t' ok) :
    t' = t ∨ ∃ d e, h.entered? here dir = some d ∧ (e = none ∨ e = some (.link target)) ∧
      t' = t.lay (fun d' n => d' = d ∧ n = name) e := by
  obtain rfl | ⟨part, rfl, hrest⟩ := List.prefix_cons_iff.mp hpart
  · cases hruns
    exact .inl rfl
  · cases hruns with
    | failed hcd => exact .inl hcd.of_cd.1
    | next hcd hruns =>
      obtain ⟨rfl, hdir⟩ := hcd.of_cd
      obtain rfl | ⟨e, he, rfl⟩ := hruns.of_prefix_remove hrest
      · exact .inl rfl
      · exact .inr ⟨_, e, hdir rfl, he, rfl⟩

theorem commands?_relink {dir link archive : String} (hplain : Plain dir link)
    (harchive : Argument.isOption archive = false) :
    h.commands? (Shell.Command.relink dir link archive) =
      some (relinking dir archive (link ++ ".jar")) := by
  have hspells := Shell.spells_valueWord
  have hjar : Shell.Spells (Shell.valueWord link ++ Shell.valueWord ".jar") (link ++ ".jar") :=
    (hspells link).append (hspells ".jar")
  have hname := Path.isEntryName_jar hplain.base_slash
  have hoption : Argument.isOption (link ++ ".jar") = false := by
    rw [Argument.isOption_append hplain.base_ne, hplain.base_option]
  rw [h.commands?_of_tokens (Shell.Command.tokens?_relink dir link archive)]
  simp only [List.map_cons, List.map_nil, List.flatMap_cons, List.flatMap_nil,
    h.arguments_of_spells (hspells _), h.arguments_of_spells hjar, List.singleton_append,
    Command.ofArguments_cd hplain.dir_ne hplain.dir_option,
    Command.ofArguments_remove (Command.operand?_text hname hoption),
    Command.ofArguments_link hname harchive hoption]
  rfl

variable {sent : Path → Bytes} {l : Lockout} {c : Connection ι} {link archive : String}
  {paths : List String}

theorem lays_relink (hplain : ∀ path ∈ paths, Plain path link)
    (harchive : Argument.isOption archive = false) (hagrees : ∀ path ∈ paths, h.Agrees path) :
    h.Lays sent l c (fun dir => .relink dir (Shell.Command.relink dir link archive)) paths
      (· = link ++ ".jar") (some (.link archive)) (fun _ => True) where
  lays path hpath a t t' ha hsucceeds hleaves _ := by
    have hline : lineOf? a.1 = some (Shell.Command.relink path link archive) := by rw [ha]; rfl
    have hcommands := commands?_relink (h := h) (hplain path hpath) harchive
    rw [← hagrees path hpath]
    exact ((leaves_iff_runs hline hcommands hsucceeds).mp hleaves).of_relinking
  keeps _ _ _ := trivial

theorem can_relink (hplain : ∀ path ∈ paths, Plain path link)
    (harchive : Argument.isOption archive = false) (hagrees : ∀ path ∈ paths, h.Agrees path)
    (hdirs : ∀ path ∈ paths, ∃ d, h.directory? h.home path = some d) {names : δ → String → Prop}
    (hnames : ∀ d, h.Within paths d → names d (link ++ ".jar")) :
    h.Can sent l c (fun dir => .relink dir (Shell.Command.relink dir link archive)) paths names := by
  intro path hpath a t ha hsucceeds ht
  obtain ⟨d, hd⟩ := hdirs path hpath
  have hline : lineOf? a.1 = some (Shell.Command.relink path link archive) := by rw [ha]; rfl
  have hremoved (n : String) (hn : [(· == link ++ ".jar")].any (· n)) : t d n ≠ some .directory := by
    obtain rfl : n = link ++ ".jar" := by simpa using hn
    exact ht d _ (hnames d ⟨path, hpath, hd⟩)
  have hruns : h.Runs (relinking path archive (link ++ ".jar")) h.home t _ true :=
    .next (.gone ((hagrees path hpath).trans hd)) (.next (.removed hremoved)
      (.next (.linked (Contents.lay_of ⟨rfl, by simp⟩)) .done))
  have hcommands := commands?_relink (h := h) (hplain path hpath) harchive
  exact ⟨_, (leaves_iff_runs hline hcommands hsucceeds).mpr hruns, (ht.lay (by simp)).lay (by simp)⟩

theorem left_of_relink {dir : String} (hplain : Plain dir link)
    (harchive : Argument.isOption archive = false) {a : Attempt l c}
    (ha : a.1 = .relink dir (Shell.Command.relink dir link archive)) (hleaves : h.Leaves sent a t t') :
    t' = t ∨ ∃ d e, h.entered? h.home dir = some d ∧ (e = none ∨ e = some (.link archive)) ∧
      t' = t.lay (fun d' n => d' = d ∧ n = link ++ ".jar") e := by
  have hline : lineOf? a.1 = some (Shell.Command.relink dir link archive) := by rw [ha]; rfl
  obtain ⟨part, ok, hpart, hruns⟩ := exists_runs_of_leaves hline (commands?_relink hplain harchive)
    hleaves
  exact hruns.of_prefix_relinking hpart

/-- No link has come to lead to an archive that is not there. -/
structure Guarded (h : Host δ) (paths : List String) (link archive : String) (content : Bytes)
    (tried : List (Attempt l c)) (t t' : Contents δ) : Prop where
  backed : ∀ d, t' d (link ++ ".jar") ≠ t d (link ++ ".jar") → ∀ path ∈ paths,
    ∃ d', h.directory? h.home path = some d' ∧ t' d' archive = some (.file content)
  leads : ∀ d, t' d (link ++ ".jar") ≠ t d (link ++ ".jar") →
    t' d (link ++ ".jar") = some (.link archive) ∨
      t' d (link ++ ".jar") = none ∧ ∃ path ∈ paths, h.directory? h.home path = some d ∧
        ∃ last, tried.getLast? = some last ∧ ¬ last.Succeeds ∧
          last.1 = .relink path (Shell.Command.relink path link archive)
  elsewhere : ∀ d n, t' d n ≠ t d n → h.Within paths d ∧ (n = archive ∨ n = link ++ ".jar")

theorem Guarded.of_archives {content : Bytes} {tried : List (Attempt l c)}
    (hne : archive ≠ link ++ ".jar") (h' : ∀ d n, t' d n ≠ t d n → h.Within paths d ∧ n = archive) :
    h.Guarded paths link archive content tried t t' where
  backed d hd := absurd (h' d _ hd).2.symm hne
  leads d hd := absurd (h' d _ hd).2.symm hne
  elsewhere d n hdn := ⟨(h' d n hdn).1, .inl (h' d n hdn).2⟩

theorem guarded_of_uploads {source : Path} {ups : List (Attempt l c)}
    (hne : archive ≠ link ++ ".jar") (harchive : Path.IsEntryName archive.toList)
    (hpaths : ∀ path ∈ paths, path ≠ "")
    (hsteps : ups.map (·.1) <+: paths.map fun dir =>
      .transfer source (Shell.Command.joinRemote dir archive))
    (hsucceed : ∀ a ∈ ups.dropLast, a.Succeeds) (hleave : h.Leave sent ups t t')
    (ht : h.Unlinked paths archive t) {tried : List (Attempt l c)} :
    h.Guarded paths link archive (sent source) tried t t' := by
  apply Guarded.of_archives hne
  intro d n hchanged
  obtain ⟨done, hdone, rfl | ⟨path, hpath, a, -, ha, hfails, hclear, hleaves⟩⟩ :=
    hleave.phase_begun (lays_transfer harchive hpaths) hsteps hsucceed ht
  · obtain ⟨hwithin, hname⟩ := Contents.of_lay_ne hchanged
    exact ⟨hwithin.mono hdone.subset, hname⟩
  · have hlaid (hchanged : t.lay (fun d n => h.Within done d ∧ n = archive)
        (some (.file (sent source))) d n ≠ t d n) : h.Within paths d ∧ n = archive := by
      obtain ⟨hwithin, hname⟩ := Contents.of_lay_ne hchanged
      exact ⟨hwithin.mono hdone.subset, hname⟩
    obtain rfl | ⟨d', part, hd', rfl⟩ := left_of_transfer harchive (hpaths path hpath) ha hfails hleaves
      fun d hd => hclear d ⟨path, hpath, hd⟩
    · exact hlaid hchanged
    · by_cases hhere : d = d' ∧ n = archive
      · exact ⟨⟨path, hpath, hhere.1 ▸ hd'⟩, hhere.2⟩
      · rw [Contents.lay_of_not hhere] at hchanged
        exact hlaid hchanged

theorem entries_of_relinks {relinks : List (Attempt l c)}
    (hplain : ∀ path ∈ paths, Plain path link) (harchive : Argument.isOption archive = false)
    (hagrees : ∀ path ∈ paths, h.Agrees path)
    (hsteps : relinks.map (·.1) <+: paths.map fun dir =>
      .relink dir (Shell.Command.relink dir link archive))
    (hsucceed : ∀ a ∈ relinks.dropLast, a.Succeeds) (hleave : h.Leave sent relinks t t') (d : δ)
    (n : String) :
    t' d n = t d n ∨ n = link ++ ".jar" ∧ h.Within paths d ∧
      (t' d n = some (.link archive) ∨ t' d n = none ∧ ∃ path ∈ paths,
        h.directory? h.home path = some d ∧ ∃ last, relinks.getLast? = some last ∧ ¬ last.Succeeds ∧
          last.1 = .relink path (Shell.Command.relink path link archive)) := by
  obtain ⟨done, hdone, hlaid⟩ := hleave.phase_begun (lays_relink hplain harchive hagrees) hsteps
    hsucceed trivial
  have of_set {v : Option Entry} (hv : v = t.lay (fun d n => h.Within done d ∧ n = link ++ ".jar")
      (some (.link archive)) d n) :
      v = t d n ∨ n = link ++ ".jar" ∧ h.Within paths d ∧ v = some (.link archive) := by
    by_cases hdn : h.Within done d ∧ n = link ++ ".jar"
    · exact .inr ⟨hdn.2, hdn.1.mono hdone.subset, hv.trans (Contents.lay_of hdn)⟩
    · exact .inl (hv.trans (Contents.lay_of_not hdn))
  obtain rfl | ⟨path, hpath, last, hlast, hstep, hfails, -, hleaves⟩ := hlaid
  · exact (of_set rfl).imp_right fun ⟨hn, hd, hlink⟩ => ⟨hn, hd, .inl hlink⟩
  · obtain rfl | ⟨d', e, hd', he, rfl⟩ := left_of_relink (hplain path hpath) harchive hstep hleaves
    · exact (of_set rfl).imp_right fun ⟨hn, hd, hlink⟩ => ⟨hn, hd, .inl hlink⟩
    · by_cases hhere : d = d' ∧ n = link ++ ".jar"
      · obtain ⟨rfl, rfl⟩ := hhere
        rw [hagrees path hpath] at hd'
        refine .inr ⟨rfl, ⟨path, hpath, hd'⟩, ?_⟩
        rw [Contents.lay_of ⟨rfl, rfl⟩]
        obtain rfl | rfl := he
        · exact .inr ⟨rfl, path, hpath, hd', last, hlast, hfails, hstep⟩
        · exact .inl rfl
      · rw [Contents.lay_of_not hhere]
        exact (of_set rfl).imp_right fun ⟨hn, hd, hlink⟩ => ⟨hn, hd, .inl hlink⟩

theorem guarded_of_relinks {content : Bytes} {relinks tried : List (Attempt l c)}
    (hne : archive ≠ link ++ ".jar") (hplain : ∀ path ∈ paths, Plain path link)
    (harchive : Argument.isOption archive = false) (hagrees : ∀ path ∈ paths, h.Agrees path)
    (hdirs : ∀ path ∈ paths, ∃ d, h.directory? h.home path = some d)
    (hsteps : relinks.map (·.1) <+: paths.map fun dir =>
      .relink dir (Shell.Command.relink dir link archive))
    (hsucceed : ∀ a ∈ relinks.dropLast, a.Succeeds)
    (hleave : h.Leave sent relinks
      (t.lay (fun d n => h.Within paths d ∧ n = archive) (some (.file content))) t')
    (htried : tried.getLast? = relinks.getLast?) :
    h.Guarded paths link archive content tried t t' := by
  have hentries := entries_of_relinks hplain harchive hagrees hsteps hsucceed hleave
  constructor
  · intro d _ path hpath
    obtain ⟨d', hd'⟩ := hdirs path hpath
    obtain heq | ⟨hname, -⟩ := hentries d' archive
    · exact ⟨d', hd', heq.trans (Contents.lay_of ⟨⟨path, hpath, hd'⟩, rfl⟩)⟩
    · exact absurd hname hne
  · intro d hchanged
    obtain heq | ⟨-, -, hleads⟩ := hentries d (link ++ ".jar")
    · exact absurd (heq.trans (Contents.lay_of_not fun h => hne h.2.symm)) hchanged
    · exact htried ▸ hleads
  · intro d n hchanged
    obtain heq | ⟨hname, hwithin, -⟩ := hentries d n
    · obtain ⟨hwithin, hname⟩ := Contents.of_lay_ne (heq ▸ hchanged)
      exact ⟨hwithin, .inl hname⟩
    · exact ⟨hwithin, .inr hname⟩

def SetUp (h : Host δ) (paths : List String) (link archive : String) (content : Bytes)
    (t : Contents δ) : Prop :=
  ∀ path ∈ paths, ∃ d, h.directory? h.home path = some d ∧ t d archive = some (.file content) ∧
    t d (link ++ ".jar") = some (.link archive)

theorem SetUp.within {content : Bytes} {d : δ} (hset : h.SetUp paths link archive content t)
    (hd : h.Within paths d) :
    t d archive = some (.file content) ∧ t d (link ++ ".jar") = some (.link archive) := by
  obtain ⟨path, hpath, hd⟩ := hd
  obtain ⟨d', hd', hthere⟩ := hset path hpath
  obtain rfl : d' = d := Option.some_inj.mp (hd'.symm.trans hd)
  exact hthere

end Remote.Host

/-- A job that swaps a link, with values that a shell takes for no options. -/
structure Job.Swaps (job : Job) (link archive : String) : Prop where
  valid : job.validate = .ok ()
  mode : job.mode = .symlinkSwap link
  file : job.artifact.fileName = some archive
  slash : '/' ∉ link.toList
  no_option : ∀ s ∈ link :: archive :: job.remotePaths, Argument.isOption s = false

namespace Job.Swaps

variable {job : Job} {link archive : String}

theorem archive_ne (hjob : job.Swaps link archive) : archive ≠ link ++ ".jar" := by
  rintro rfl
  have hshadow := (sound_of_validate hjob.valid).unshadowed
  simp [linkShadowsArtifact, hjob.mode, hjob.file] at hshadow

theorem isEntryName (hjob : job.Swaps link archive) : Path.IsEntryName archive.toList :=
  Path.isEntryName_of_fileName hjob.file

theorem path_ne (hjob : job.Swaps link archive) : ∀ path ∈ job.remotePaths, path ≠ "" :=
  (sound_of_validate hjob.valid).paths

theorem plain (hjob : job.Swaps link archive) : ∀ path ∈ job.remotePaths, Host.Plain path link := by
  have hplain := (sound_of_validate hjob.valid).plain
  rw [hjob.mode] at hplain
  refine hplain hjob.slash fun s hs => hjob.no_option s ?_
  obtain rfl | hs := List.mem_cons.mp hs
  · exact .head _
  · exact .tail _ (.tail _ hs)

theorem archive_option (hjob : job.Swaps link archive) : Argument.isOption archive = false :=
  hjob.no_option archive (.tail _ (.head _))

theorem steps_eq (hjob : job.Swaps link archive) :
    job.steps = (job.lock.map Step.lockCheck).toList ++
      (job.remotePaths.map (fun dir =>
          .transfer job.artifact.path (Shell.Command.joinRemote dir archive)) ++
        job.remotePaths.map fun dir => .relink dir (Shell.Command.relink dir link archive)) := by
  rw [steps_of_swap hjob.mode, adjust_of_swap hjob.mode hjob.file, upload_of_swap hjob.mode hjob.file]

end Job.Swaps

section Swap

variable {h : Host δ} {t t' : Contents δ} {sent : Path → Bytes} {s : Deployer.Settings}
  {c : Connection ι} {job : Job} {link archive : String} {done attempts : List (Attempt s.lockout c)}

theorem Job.Swaps.guarded (hjob : job.Swaps link archive)
    (hagrees : ∀ path ∈ job.remotePaths, h.Agrees path) (hsteps : done.map (·.1) <+: job.steps)
    (hsucceed : ∀ a ∈ done.dropLast, a.Succeeds) (hleave : h.Leave sent done t t')
    (ht : h.Unlinked job.remotePaths archive t) :
    h.Guarded job.remotePaths link archive (sent job.artifact.path) done t t' := by
  rw [hjob.steps_eq] at hsteps
  obtain hlocks | ⟨rest, hne, hdone, hrest⟩ := prefix_append_split hsteps
  · obtain rfl := hleave.of_locks fun a ha => hlocks.subset (List.mem_map_of_mem ha)
    exact .of_archives hjob.archive_ne fun d n hchanged => absurd rfl hchanged
  · obtain ⟨locks, others, rfl, hlocks, rfl⟩ := List.map_eq_append_iff.mp hdone
    obtain ⟨_, hlocked, hleft⟩ := Host.leave_append.mp hleave
    obtain rfl := hlocked.of_locks fun a ha => hlocks ▸ List.mem_map_of_mem ha
    have hne : others ≠ [] := fun h => hne (by simp [h])
    rw [List.dropLast_append_of_ne_nil hne] at hsucceed
    have hsucceed := fun a ha => hsucceed a (List.mem_append_right _ ha)
    obtain hups | ⟨rest, hne', hothers, hrelinks⟩ := prefix_append_split hrest
    · exact Host.guarded_of_uploads hjob.archive_ne hjob.isEntryName hjob.path_ne hups hsucceed hleft ht
    · obtain ⟨ups, relinks, rfl, hups, rfl⟩ := List.map_eq_append_iff.mp hothers
      obtain ⟨_, hupload, hrelink⟩ := Host.leave_append.mp hleft
      have hne' : relinks ≠ [] := fun h => hne' (by simp [h])
      rw [List.dropLast_append_of_ne_nil hne'] at hsucceed
      obtain ⟨hdirs, rfl⟩ := hupload.phase (Host.lays_transfer hjob.isEntryName hjob.path_ne) hups
        (fun a ha => hsucceed a (List.mem_append_left _ ha)) ht
      apply Host.guarded_of_relinks hjob.archive_ne hjob.plain hjob.archive_option hagrees hdirs
        hrelinks (fun a ha => hsucceed a (List.mem_append_right _ ha)) hrelink
      rw [List.getLast?_append_of_ne_nil _ hne, List.getLast?_append_of_ne_nil _ hne']

theorem Job.Swaps.complete (hjob : job.Swaps link archive)
    (hagrees : ∀ path ∈ job.remotePaths, h.Agrees path) (hsteps : attempts.map (·.1) = job.steps)
    (hsucceed : ∀ a ∈ attempts, a.Succeeds) (hleave : h.Leave sent attempts t t')
    (ht : h.Unlinked job.remotePaths archive t) :
    (∀ path ∈ job.remotePaths, ∃ d, h.directory? h.home path = some d) ∧
      t' = (t.lay (fun d n => h.Within job.remotePaths d ∧ n = archive)
        (some (.file (sent job.artifact.path)))).lay
          (fun d n => h.Within job.remotePaths d ∧ n = link ++ ".jar") (some (.link archive)) := by
  rw [hjob.steps_eq] at hsteps
  obtain ⟨_, _, _, ⟨hups, huploaded, hupload⟩, hrelinks, hrelinked, hrelink⟩ :=
    hleave.in_two hsteps hsucceed
  obtain ⟨hdirs, rfl⟩ := hupload.phase (Host.lays_transfer hjob.isEntryName hjob.path_ne) hups
    huploaded ht
  exact ⟨hdirs, (hrelink.phase (Host.lays_relink hjob.plain hjob.archive_option hagrees) hrelinks
    hrelinked trivial).2⟩

theorem Job.Swaps.setUp (hjob : job.Swaps link archive)
    (hagrees : ∀ path ∈ job.remotePaths, h.Agrees path) (hsteps : attempts.map (·.1) = job.steps)
    (hsucceed : ∀ a ∈ attempts, a.Succeeds) (hleave : h.Leave sent attempts t t')
    (ht : h.Unlinked job.remotePaths archive t) :
    h.SetUp job.remotePaths link archive (sent job.artifact.path) t' := by
  obtain ⟨hdirs, rfl⟩ := hjob.complete hagrees hsteps hsucceed hleave ht
  intro path hpath
  obtain ⟨d, hd⟩ := hdirs path hpath
  have hwithin : h.Within job.remotePaths d := ⟨path, hpath, hd⟩
  refine ⟨d, hd, ?_, Contents.lay_of ⟨hwithin, rfl⟩⟩
  rw [Contents.lay_of_not fun h => hjob.archive_ne h.2, Contents.lay_of ⟨hwithin, rfl⟩]

theorem Job.Swaps.again (hjob : job.Swaps link archive)
    (hagrees : ∀ path ∈ job.remotePaths, h.Agrees path)
    (hset : h.SetUp job.remotePaths link archive (sent job.artifact.path) t)
    (hagain : s.Deploys c h sent job t t') : t' = t := by
  obtain ⟨again, hsteps, hsucceed, hleave⟩ := hagain.leave hjob.valid
  have hunlinked : h.Unlinked job.remotePaths archive t := by
    intro d hd away
    rw [(hset.within hd).1]
    simp
  obtain ⟨-, rfl⟩ := hjob.complete hagrees hsteps hsucceed hleave hunlinked
  have harchives : t.lay (fun d n => h.Within job.remotePaths d ∧ n = archive)
      (some (.file (sent job.artifact.path))) = t :=
    Contents.lay_eq_self fun d n ⟨hd, hn⟩ => hn ▸ (hset.within hd).1
  rw [harchives]
  exact Contents.lay_eq_self fun d n ⟨hd, hn⟩ => hn ▸ (hset.within hd).2

theorem Job.Swaps.succeeds (hjob : job.Swaps link archive) (hsteps : attempts.map (·.1) <+: job.steps)
    {a : Attempt s.lockout c} (ha : a ∈ attempts) {n : Nat} (hn : a.verdict job = some (.ok n)) :
    a.Succeeds := by
  refine Attempt.succeeds_of_passes hn fun directory command hclean => ?_
  have hmem : Step.clean directory command ∈ job.steps :=
    hclean ▸ hsteps.subset (List.mem_map_of_mem ha)
  rw [hjob.steps_eq] at hmem
  simp at hmem

theorem Job.Swaps.exists_deploys (hjob : job.Swaps link archive)
    (hagrees : ∀ path ∈ job.remotePaths, h.Agrees path)
    (hdirs : ∀ path ∈ job.remotePaths, ∃ d, h.directory? h.home path = some d)
    (ht : t.Free fun d n => h.Within job.remotePaths d ∧ (n = archive ∨ n = link ++ ".jar"))
    (s : Deployer.Settings) (c : Connection Target) : ∃ t', s.Deploys c h sent job t t' := by
  apply s.exists_deploys c hjob.valid hjob.steps_eq _ _ ht
  · exact Host.can_transfer hjob.isEntryName hjob.path_ne hdirs fun d hd => ⟨hd, .inl rfl⟩
  · exact Host.can_relink hjob.plain hjob.archive_option hagrees hdirs fun d hd => ⟨hd, .inr rfl⟩

/-- Wherever the run of a swap ends, no link has come to lead to an archive that is not there. When
the run ends well, every directory holds the archive and a link to it, and another such run changes
nothing. The shell and the uploads have to be led to the same directories. -/
theorem Deployer.runOn_swap (s : Settings) (w : World ι) (past : List (Exchange ι)) (c : Connection ι)
    (h : Host δ) (sent : Path → Bytes) (t : Contents δ) {job : Job} {link archive : String}
    (hjob : job.Swaps link archive) (hagrees : ∀ path ∈ job.remotePaths, h.Agrees path)
    (ht : h.Unlinked job.remotePaths archive t) :
    ∃ attempts, s.Tries c job w past attempts ∧
      (∀ done t', done <+: attempts → h.Leave sent done t t' →
        h.Guarded job.remotePaths link archive (sent job.artifact.path) done t t') ∧
      ∀ report t', ((s.deployer.runOn c job).play w past).1 = some (.ok report) →
        h.Leave sent attempts t t' →
        h.SetUp job.remotePaths link archive (sent job.artifact.path) t' ∧
          ∀ (c' : Connection ι) t'', s.Deploys c' h sent job t' t'' → t'' = t' := by
  obtain ⟨attempts, htries, hpassed, hends, hsteps⟩ := s.exists_tries c w past hjob.valid
  refine ⟨attempts, htries, ?_, ?_⟩
  · intro done t' hdone hleave
    refine hjob.guarded hagrees ((hdone.map _).trans htries.steps) (fun a ha => ?_) hleave ht
    obtain ⟨n, hn⟩ := hpassed a (mem_dropLast_mono hdone ha)
    exact hjob.succeeds htries.steps (hdone.subset (List.mem_of_mem_dropLast ha)) hn
  · intro report t' hreport hleave
    have hall := hends.mp ⟨report, hreport⟩
    have hsucceed : ∀ a ∈ attempts, a.Succeeds := by
      intro a ha
      obtain ⟨n, hn⟩ := hall a ha
      exact hjob.succeeds htries.steps ha hn
    have hset := hjob.setUp hagrees (hsteps hall) hsucceed hleave ht
    exact ⟨hset, fun c' t'' hagain => hjob.again hagrees hset hagain⟩

theorem Deployer.runOn_swap_to_two_spellings :
    let s : Settings := { files := {}, operator := {} }
    let job := Job.toTwoSpellings (.symlinkSwap "plugin")
    let c : Connection Target := ⟨job.target, "jane", job.target, {}⟩
    let nothing : Contents (List Path.Component) := fun _ _ => none
    job.Swaps "plugin" "plugin-1.0.jar" ∧
      Host.spelled.Unlinked job.remotePaths "plugin-1.0.jar" nothing ∧
      ∃ t', s.Deploys c Host.spelled (fun _ => [80, 75]) job nothing t' ∧
        Host.spelled.SetUp job.remotePaths "plugin" "plugin-1.0.jar" [80, 75] t' := by
  intro s job c nothing
  have hjob : job.Swaps "plugin" "plugin-1.0.jar" := ⟨by decide, rfl, by decide, by decide, by decide⟩
  have hunlinked : Host.spelled.Unlinked job.remotePaths "plugin-1.0.jar" nothing := by
    intro d _ away
    simp [nothing]
  have hfree : nothing.Free fun d n =>
      Host.spelled.Within job.remotePaths d ∧ (n = "plugin-1.0.jar" ∨ n = "plugin" ++ ".jar") := by
    intro d n _
    simp [nothing]
  have hagrees : ∀ path ∈ job.remotePaths, Host.spelled.Agrees path :=
    fun path _ => Host.agrees_spelled path
  obtain ⟨t', w, past, attempts, htries, hsucceed, hleave⟩ := hjob.exists_deploys hagrees
    (fun path _ => Host.directory?_spelled _ path) hfree s c
  obtain ⟨_, htries', -, hset⟩ := runOn_swap s w past c Host.spelled (fun _ => [80, 75]) nothing hjob
    hagrees hunlinked
  obtain rfl := htries.unique htries'
  obtain ⟨report, hreport⟩ := htries.ends_well hjob.valid hsucceed
  exact ⟨hjob, hunlinked, t', ⟨w, past, attempts, htries, hsucceed, hleave⟩,
    (hset report t' hreport hleave).1⟩

end Swap

end Rollout
