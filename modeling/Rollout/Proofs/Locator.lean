import Rollout.Proofs.Lookup

/-!
Which plan is used when none is asked for. A candidate is absent, or cannot be looked at, or is there;
the first that is not absent decides, for better or worse, and what comes behind it is not looked at.
-/

namespace Rollout.Plan

variable {files other : FileSystem} {c : Path} {e : Error}

/-! ### One candidate -/

inductive Absent (files : FileSystem) (c : Path) : Prop
  | nowhere {name} : c.fileName = some name → files.openDirectory c.holder = .error .notFound →
      Absent files c
  | missing {name directory} : c.fileName = some name →
      files.openDirectory c.holder = .ok directory →
      files.entry directory name = .error .notFound → Absent files c

/-- The candidate cannot be looked at, and what is reported then. -/
inductive Obscured (files : FileSystem) (c : Path) : Error → Prop
  | nameless : c.fileName = none → Obscured files c (.io c .noFileName)
  | closed {name fault} : c.fileName = some name → files.openDirectory c.holder = .error fault →
      fault ≠ .notFound → Obscured files c (.io c.holder fault)
  | hidden {name directory fault} : c.fileName = some name →
      files.openDirectory c.holder = .ok directory → files.entry directory name = .error fault →
      fault ≠ .notFound → Obscured files c (.io c fault)

inductive Present (files : FileSystem) (c : Path) : Prop
  | there {name directory node} : c.fileName = some name →
      files.openDirectory c.holder = .ok directory → files.entry directory name = .ok node →
      Present files c

theorem sighted (files : FileSystem) (c : Path) :
    Absent files c ∨ (∃ e, Obscured files c e) ∨ Present files c := by
  cases hname : c.fileName with
  | none => exact .inr (.inl ⟨_, .nameless hname⟩)
  | some name =>
    cases hopen : files.openDirectory c.holder with
    | error fault =>
      by_cases hfault : fault = .notFound
      · exact .inl (.nowhere hname (hfault ▸ hopen))
      · exact .inr (.inl ⟨_, .closed hname hopen hfault⟩)
    | ok directory =>
      cases hentry : files.entry directory name with
      | error fault =>
        by_cases hfault : fault = .notFound
        · exact .inl (.missing hname hopen (hfault ▸ hentry))
        · exact .inr (.inl ⟨_, .hidden hname hopen hentry hfault⟩)
      | ok node => exact .inr (.inr (.there hname hopen hentry))

theorem split_eq {name : String} (h : c.fileName = some name) : split c = .ok (c.holder, name) := by
  rw [split, h]
  rfl

theorem exists?_of_fileName {name : String} (h : c.fileName = some name) :
    exists? files c =
      match files.openDirectory c.holder with
      | .error .notFound => .ok false
      | .error fault => .error (.io c.holder fault)
      | .ok directory => (files.hasEntry directory name).mapError (.io c) := by
  rw [exists?, split_eq h]
  rfl

theorem Absent.exists?_eq (h : Absent files c) : exists? files c = .ok false := by
  cases h with
  | nowhere hname hopen => rw [exists?_of_fileName hname, hopen]
  | missing hname hopen hentry =>
    rw [exists?_of_fileName hname, hopen]
    dsimp only
    rw [FileSystem.hasEntry, hentry]
    rfl

theorem Obscured.exists?_eq (h : Obscured files c e) : exists? files c = .error e := by
  cases h with
  | nameless hname =>
    rw [exists?, split, hname]
    rfl
  | @closed name fault hname hopen hfault =>
    rw [exists?_of_fileName hname, hopen]
    cases fault <;> first | rfl | exact absurd rfl hfault
  | @hidden name directory fault hname hopen hentry hfault =>
    rw [exists?_of_fileName hname, hopen]
    dsimp only
    rw [FileSystem.hasEntry, hentry]
    cases fault <;> first | rfl | exact absurd rfl hfault

theorem Present.exists?_eq (h : Present files c) : exists? files c = .ok true := by
  obtain ⟨hname, hopen, hentry⟩ := h
  rw [exists?_of_fileName hname, hopen]
  dsimp only
  rw [FileSystem.hasEntry, hentry]
  rfl

theorem exists?_eq_false_iff : exists? files c = .ok false ↔ Absent files c := by
  constructor
  · intro h
    rcases sighted files c with habsent | ⟨e, hobscured⟩ | hpresent
    · exact habsent
    · cases h.symm.trans hobscured.exists?_eq
    · cases h.symm.trans hpresent.exists?_eq
  · exact Absent.exists?_eq

theorem Obscured.not_absent (h : Obscured files c e) : ¬ Absent files c :=
  fun habsent => nomatch habsent.exists?_eq.symm.trans h.exists?_eq

theorem Present.not_absent (h : Present files c) : ¬ Absent files c :=
  fun habsent => nomatch habsent.exists?_eq.symm.trans h.exists?_eq

theorem Present.not_obscured (h : Present files c) : ¬ Obscured files c e :=
  fun hobscured => nomatch hobscured.exists?_eq.symm.trans h.exists?_eq

/-! ### Where a plan comes from -/

def origin? : Except Error Plan → Option Origin
  | .ok plan => some plan.origin
  | .error (.parse origin _) => some origin
  | .error (.invalid origin _) => some origin
  | .error (.io _ _) => none

theorem origin_of_plan {origin : Origin} {written : Spec} {plan : Plan}
    (h : written.plan origin = .ok plan) : plan.origin = origin := by
  obtain ⟨remotes, -, h⟩ := ok_of_bind h
  obtain ⟨destinations, -, h⟩ := ok_of_bind h
  exact (Except.ok.inj h) ▸ rfl

theorem origin?_parse (origin : Origin) (text : String) : origin? (parse origin text) = some origin := by
  rw [parse]
  cases spec.run text with
  | error fault => rfl
  | ok written =>
    change origin? ((written.plan origin).mapError (.invalid origin)) = some origin
    cases hplan : written.plan origin with
    | error flaw => rfl
    | ok plan => exact congrArg some (origin_of_plan hplan)

theorem origin?_load (files : FileSystem) (path : Path) :
    origin? (load files path) ∈ [none, some (.file path)] := by
  obtain ⟨place, -, hread⟩ := files.plan_read_eq path
  rw [load, hread]
  cases files.opened path >>= FileSystem.readable with
  | error fault => exact .head _
  | ok text =>
    change origin? (parse (.file path) text) ∈ _
    rw [origin?_parse]
    exact .tail _ (.head _)

theorem load_ne_standard (files : FileSystem) (path : Path) : load files path ≠ standard := by
  intro h
  have horigin := origin?_load files path
  rw [h, standard, origin?_parse] at horigin
  simp at horigin

theorem Obscured.ne_standard (h : Obscured files c e) : .error e ≠ standard := by
  intro heq
  have horigin : origin? (.error e) = some .standard := by rw [heq, standard, origin?_parse]
  cases h <;> cases horigin

/-! ### One candidate after another -/

theorem choose_nil : choose files [] none = standard := by
  -- The built-in plan is not to be computed.
  obtain ⟨plan, hplan⟩ : ∃ plan, plan = standard := ⟨_, rfl⟩
  rw [choose, locate, ← hplan]
  rfl

theorem Absent.choose_cons (h : Absent files c) (rest : List Path) :
    choose files (c :: rest) none = choose files rest none := by
  rw [choose, locate, h.exists?_eq]
  rfl

theorem Obscured.choose_cons (h : Obscured files c e) (rest : List Path) :
    choose files (c :: rest) none = .error e := by
  rw [choose, locate, h.exists?_eq]
  rfl

theorem Present.choose_cons (h : Present files c) (rest : List Path) :
    choose files (c :: rest) none = load files c := by
  rw [choose, locate, h.exists?_eq]
  rfl

theorem choose_append {before : List Path} (h : ∀ b ∈ before, Absent files b) (rest : List Path) :
    choose files (before ++ rest) none = choose files rest none := by
  induction before with
  | nil => rfl
  | cons b before ih =>
    obtain ⟨hb, hbefore⟩ := List.forall_mem_cons.mp h
    rw [List.cons_append, hb.choose_cons, ih hbefore]

theorem choose_eq_standard_iff {candidates : List Path} :
    choose files candidates none = standard ↔ ∀ c ∈ candidates, Absent files c := by
  induction candidates with
  | nil => exact iff_of_true choose_nil nofun
  | cons c rest ih =>
    rw [List.forall_mem_cons]
    rcases sighted files c with habsent | ⟨e, hobscured⟩ | hpresent
    · rw [habsent.choose_cons, ih, and_iff_right habsent]
    · rw [hobscured.choose_cons]
      exact iff_of_false hobscured.ne_standard fun h => hobscured.not_absent h.1
    · rw [hpresent.choose_cons]
      exact iff_of_false (load_ne_standard files c) fun h => hpresent.not_absent h.1

/-! ### What is looked at -/

/-- File systems that have the same at a path. -/
structure Alike (files other : FileSystem) (c : Path) : Prop where
  openDirectory : other.openDirectory c.holder = files.openDirectory c.holder
  entry : ∀ name directory, c.fileName = some name → files.openDirectory c.holder = .ok directory →
    other.entry directory name = files.entry directory name

theorem alike_name {name : String} (hname : Path.IsEntryName name.toList)
    (hhere : other.workingDirectory = files.workingDirectory)
    (hdir : files.isDirectory files.workingDirectory)
    (hdir' : other.isDirectory other.workingDirectory)
    (hentry : other.entry files.workingDirectory name = files.entry files.workingDirectory name) :
    Alike files other ⟨name⟩ := by
  have hopen := FileSystem.openDirectory_holder_name hname hdir
  constructor
  · rw [FileSystem.openDirectory_holder_name hname hdir', hopen, hhere]
  · intro name' directory hname' hdirectory
    rw [(Path.isBare_of_isEntryName hname).1] at hname'
    rw [hopen] at hdirectory
    cases hname'
    cases hdirectory
    exact hentry

theorem Alike.exists?_eq (h : Alike files other c) : exists? other c = exists? files c := by
  cases hname : c.fileName with
  | none => rw [exists?, exists?, split, hname]; rfl
  | some name =>
    rw [exists?_of_fileName hname, exists?_of_fileName hname, h.openDirectory]
    cases hopen : files.openDirectory c.holder with
    | error fault => cases fault <;> rfl
    | ok directory =>
      dsimp only
      rw [FileSystem.hasEntry, FileSystem.hasEntry, h.entry name directory hname hopen]

theorem Alike.load_eq (h : Alike files other c) : load other c = load files c := by
  have hread : read other c = read files c := by
    cases hname : c.fileName with
    | none => rw [read, read, split, hname]; rfl
    | some name =>
      rw [read, read, split_eq hname]
      dsimp only [bind, Except.bind]
      rw [h.openDirectory]
      cases hopen : files.openDirectory c.holder with
      | error fault => rfl
      | ok directory =>
        dsimp only [Except.mapError]
        rw [FileSystem.readEntry, FileSystem.readEntry, h.entry name directory hname hopen]
  rw [load, load, hread]

theorem Alike.absent (h : Alike files other c) (hc : Absent files c) : Absent other c := by
  rw [← exists?_eq_false_iff] at hc ⊢
  rw [h.exists?_eq, hc]

theorem Alike.choose_cons (h : Alike files other c) (hc : ¬ Absent files c) (rest more : List Path) :
    choose other (c :: more) none = choose files (c :: rest) none := by
  have hexists : exists? files c ≠ .ok false := mt exists?_eq_false_iff.mp hc
  rw [choose, choose, locate, locate, h.exists?_eq]
  cases hfound : exists? files c with
  | error e => rfl
  | ok found =>
    cases found with
    | false => exact absurd hfound hexists
    | true => exact h.load_eq

/--
Without a plan asked for, the first candidate that is not absent decides: it is an error if it cannot
be looked at, and is loaded otherwise, whatever comes of that. The built-in plan is used when all are
absent. Nothing else is looked at.
-/
theorem choose_first (files : FileSystem) (candidates : List Path) :
    (∀ path, choose files candidates (some path) = load files path ∧
      ∀ other more, Alike files other path → choose other more (some path) = load files path) ∧
    (choose files candidates none = standard ↔ ∀ c ∈ candidates, Absent files c) ∧
    ∀ before c after, candidates = before ++ c :: after → (∀ b ∈ before, Absent files b) →
      ¬ Absent files c →
      (∀ e, Obscured files c e → choose files candidates none = .error e) ∧
      ((∀ e, ¬ Obscured files c e) → choose files candidates none = load files c) ∧
      ∀ other more, (∀ b ∈ before ++ [c], Alike files other b) →
        choose other (before ++ c :: more) none = choose files candidates none := by
  refine ⟨fun path => ⟨rfl, fun other more h => h.load_eq⟩, choose_eq_standard_iff, ?_⟩
  rintro before c after rfl hbefore hc
  rw [choose_append hbefore]
  refine ⟨fun e he => he.choose_cons after, fun hseen => ?_, fun other more halike => ?_⟩
  · rcases sighted files c with habsent | ⟨e, hobscured⟩ | hpresent
    · exact absurd habsent hc
    · exact absurd hobscured (hseen e)
    · exact hpresent.choose_cons after
  · rw [List.forall_mem_append, List.forall_mem_singleton] at halike
    rw [choose_append fun b hb => (halike.1 b hb).absent (hbefore b hb)]
    exact halike.2.choose_cons hc after more

/-- A directory where a plan is looked for is not passed over, and neither is a path without a name. -/
theorem choose_first_for_directory :
    let files : FileSystem := ⟨[(["beta"], .directory)], []⟩
    let other : FileSystem := ⟨[(["beta"], .directory), (["gamma"], .null)], []⟩
    (Absent files ⟨"alpha"⟩ ∧ ¬ Absent files ⟨"beta"⟩ ∧ (∀ e, ¬ Obscured files ⟨"beta"⟩ e) ∧
      Obscured files ⟨".."⟩ (.io ⟨".."⟩ .noFileName)) ∧
    choose files [⟨"alpha"⟩, ⟨"beta"⟩] none = .error (.io ⟨"beta"⟩ .isDirectory) ∧
    choose other [⟨"alpha"⟩, ⟨"beta"⟩, ⟨"gamma"⟩] none = .error (.io ⟨"beta"⟩ .isDirectory) ∧
    choose other [⟨"gamma"⟩] (some ⟨"beta"⟩) = .error (.io ⟨"beta"⟩ .isDirectory) ∧
    choose files [⟨"alpha"⟩, ⟨".."⟩, ⟨"beta"⟩] none = .error (.io ⟨".."⟩ .noFileName) := by
  intro files other
  have halpha : FileSystem.IsName "alpha" := ⟨by decide, by decide, by decide, by decide⟩
  have hbeta : FileSystem.IsName "beta" := ⟨by decide, by decide, by decide, by decide⟩
  have hentryAlpha : Path.IsEntryName "alpha".toList := by decide
  have hentryBeta : Path.IsEntryName "beta".toList := by decide
  have hnameAlpha := (Path.isBare_of_isEntryName hentryAlpha).1
  have hnameBeta := (Path.isBare_of_isEntryName hentryBeta).1
  have hopen : files.openDirectory (Path.holder ⟨"beta"⟩) = .ok [] :=
    FileSystem.openDirectory_holder_name hentryBeta rfl
  have hdirectory : files.entry [] "beta" = .ok .directory :=
    FileSystem.entry_of_node rfl hbeta rfl (fun _ => Node.noConfusion)
  have habsent : Absent files ⟨"alpha"⟩ :=
    .missing hnameAlpha (FileSystem.openDirectory_holder_name hentryAlpha rfl)
      (FileSystem.entry_of_missing rfl halpha rfl)
  have hpresent : Present files ⟨"beta"⟩ := .there hnameBeta hopen hdirectory
  have hnameless : Obscured files ⟨".."⟩ (.io ⟨".."⟩ .noFileName) := .nameless rfl
  have halikeAlpha : Alike files other ⟨"alpha"⟩ := by
    refine alike_name hentryAlpha rfl rfl rfl ?_
    rw [FileSystem.entry_of_missing rfl halpha rfl, FileSystem.entry_of_missing rfl halpha rfl]
  have halikeBeta : Alike files other ⟨"beta"⟩ := by
    refine alike_name hentryBeta rfl rfl rfl ?_
    rw [hdirectory]
    exact FileSystem.entry_of_node rfl hbeta rfl (fun _ => Node.noConfusion)
  have halike : ∀ b ∈ [⟨"alpha"⟩] ++ [⟨"beta"⟩], Alike files other b := by
    rw [List.forall_mem_append, List.forall_mem_singleton, List.forall_mem_singleton]
    exact ⟨halikeAlpha, halikeBeta⟩
  have hload : load files ⟨"beta"⟩ = .error (.io ⟨"beta"⟩ .isDirectory) := by
    rw [load, read, split_eq hnameBeta]
    dsimp only [bind, Except.bind]
    rw [hopen]
    dsimp only [Except.mapError]
    rw [FileSystem.readEntry, hdirectory]
    rfl
  have hbefore : ∀ b ∈ [(⟨"alpha"⟩ : Path)], Absent files b := List.forall_mem_singleton.mpr habsent
  obtain ⟨hasked, -, hfirst⟩ := choose_first files [⟨"alpha"⟩, ⟨"beta"⟩]
  obtain ⟨-, hloads, hlike⟩ :=
    hfirst [⟨"alpha"⟩] ⟨"beta"⟩ [] rfl hbefore hpresent.not_absent
  have hchosen := (hloads fun e => hpresent.not_obscured).trans hload
  obtain ⟨-, -, hfirst⟩ := choose_first files [⟨"alpha"⟩, ⟨".."⟩, ⟨"beta"⟩]
  obtain ⟨hfails, -⟩ :=
    hfirst [⟨"alpha"⟩] ⟨".."⟩ [⟨"beta"⟩] rfl hbefore hnameless.not_absent
  exact ⟨⟨habsent, hpresent.not_absent, fun e => hpresent.not_obscured, hnameless⟩, hchosen,
    (hlike other [⟨"gamma"⟩] halike).trans hchosen,
    ((hasked ⟨"beta"⟩).2 other [⟨"gamma"⟩] halikeBeta).trans hload, hfails _ hnameless⟩

end Rollout.Plan
