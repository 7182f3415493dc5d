import Mathlib.Data.List.Infix
import Rollout.Proofs.Course
import Rollout.Proofs.Job
import Rollout.Proofs.Remote

/-!
What a job leaves on its host: call by call, wherever it ends. Steps of one kind put the same thing
under the same names of one directory after the other.
-/

namespace Rollout

open Program Remote

variable {ι δ : Type} {l : Lockout} {c : Connection ι} {job : Job}

namespace Attempt

def Succeeds : Attempt l c → Prop
  | ⟨.lockCheck _, some (.ok result)⟩ => result.exitCode = 0
  | ⟨.clean _ _, some (.ok result)⟩ => result.exitCode = 0
  | ⟨.transfer _ _, some (.ok _)⟩ => True
  | ⟨.relink _ _, some (.ok result)⟩ => result.exitCode = 0
  | _ => False

theorem Succeeds.passes {a : Attempt l c} (h : a.Succeeds) : ∃ n, a.verdict job = some (.ok n) := by
  obtain ⟨step, r⟩ := a
  cases step with
  | lockCheck request =>
    rcases r with _ | _ | result
    · cases h
    · cases h
    · exact ⟨0, congrArg some (if_pos h)⟩
  | clean directory command =>
    rcases r with _ | _ | result
    · cases h
    · cases h
    · exact ⟨0, rfl⟩
  | transfer source destination =>
    rcases r with _ | _ | bytes
    · cases h
    · cases h
    · exact ⟨bytes, rfl⟩
  | relink directory command =>
    rcases r with _ | _ | result
    · cases h
    · cases h
    · exact ⟨0, congrArg some (if_pos h)⟩

theorem succeeds_of_passes {a : Attempt l c} {n : Nat} (h : a.verdict job = some (.ok n))
    (hclean : ∀ directory command, a.1 ≠ .clean directory command) : a.Succeeds := by
  obtain ⟨step, r⟩ := a
  cases step with
  | lockCheck request =>
    rcases r with _ | _ | result
    · cases h
    · cases h
    · by_contra hexit
      have hexit : ¬ result.exitCode = 0 := hexit
      simp [verdict, Step.verdict, hexit] at h
  | clean directory command => exact absurd rfl (hclean directory command)
  | transfer source destination =>
    rcases r with _ | _ | bytes
    · cases h
    · cases h
    · trivial
  | relink directory command =>
    rcases r with _ | _ | result
    · cases h
    · cases h
    · by_contra hexit
      have hexit : ¬ result.exitCode = 0 := hexit
      simp [verdict, Step.verdict, hexit] at h

theorem succeeds_of_obliging {c : Connection Target} {a : Attempt l c} {before : List (Exchange Target)}
    (h : a.2 = World.obliging before (a.1.order l c)) : a.Succeeds := by
  obtain ⟨step, r⟩ := a
  cases step with
  | lockCheck request =>
    obtain rfl : r = some (.ok ⟨0, [], []⟩) := h
    rfl
  | clean directory command =>
    obtain rfl : r = some (.ok ⟨0, [], []⟩) := h
    rfl
  | transfer source destination =>
    obtain rfl : r = some (.ok 10) := h
    trivial
  | relink directory command =>
    obtain rfl : r = some (.ok ⟨0, [], []⟩) := h
    rfl

theorem exchange_inj {a b : Attempt l c} (hstep : a.1 = b.1) (h : a.exchange = b.exchange) :
    a = b := by
  obtain ⟨step, r⟩ := a
  obtain ⟨step', r'⟩ := b
  obtain rfl : step = step' := hstep
  obtain rfl : r = r' := eq_of_heq (Sigma.mk.inj h).2
  rfl

theorem eq_of_exchanges {steps : List Step} {as bs : List (Attempt l c)}
    (has : as.map (·.1) <+: steps) (hbs : bs.map (·.1) <+: steps)
    (h : as.map Attempt.exchange = bs.map Attempt.exchange) : as = bs := by
  induction as generalizing bs steps with
  | nil => simpa [eq_comm] using h
  | cons a as ih =>
    obtain ⟨b, bs, rfl, hb, hrest⟩ := List.map_eq_cons_iff.mp h.symm
    obtain ⟨more, rfl⟩ := has
    obtain ⟨hstep, hbs⟩ := List.cons_prefix_cons.mp hbs
    rw [exchange_inj hstep hb, ih (List.prefix_append ..) hbs hrest.symm]

end Attempt

structure Remote.Host.Plain (dir base : String) : Prop where
  dir_ne : dir ≠ ""
  dir_option : Argument.isOption dir = false
  base_ne : base ≠ ""
  base_slash : '/' ∉ base.toList
  base_option : Argument.isOption base = false

theorem Job.Sound.plain (hsound : job.Sound) (hslash : '/' ∉ job.mode.base.toList)
    (hoption : ∀ s ∈ job.mode.base :: job.remotePaths, Argument.isOption s = false) :
    ∀ path ∈ job.remotePaths, Host.Plain path job.mode.base := by
  intro path hpath
  exact ⟨hsound.paths path hpath, hoption path (.tail _ hpath), hsound.base, hslash,
    hoption _ (.head _)⟩

namespace Remote.Host

variable (h : Host δ) (sent : Path → Bytes)

def Answers (line : String) : Option (Except Failure CommandResult) → Contents δ → Contents δ → Prop
  | some (.ok result), t, t' => h.Executes line t t' (result.exitCode = 0)
  | _, t, t' => h.Breaks line t t'

def Receives (content : Bytes) (path : String) :
    Option (Except Failure Nat) → Contents δ → Contents δ → Prop
  | some (.ok _), t, t' => h.Writes content path t t'
  | _, t, t' => t' = t ∨ ∃ part, part <+: content ∧ h.Writes part path t t'

/-- What an attempt at a step may leave, when `sent` is what the archives hold. Locks are kept
elsewhere. -/
def Leaves : Attempt l c → Contents δ → Contents δ → Prop
  | ⟨.lockCheck _, _⟩, t, t' => t' = t
  | ⟨.clean _ command, r⟩, t, t' => h.Answers command r t t'
  | ⟨.transfer source destination, r⟩, t, t' => h.Receives (sent source) destination r t t'
  | ⟨.relink _ command, r⟩, t, t' => h.Answers command r t t'

inductive Leave : List (Attempt l c) → Contents δ → Contents δ → Prop
  | nil {t} : Leave [] t t
  | cons {a as t t' t''} : h.Leaves sent a t t' → Leave as t' t'' → Leave (a :: as) t t''

variable {h sent}

section Leaves

variable {a : Attempt l c} {t t' : Contents δ} {line : String} {commands : List Command}

def lineOf? : Step → Option String
  | .clean _ command => some command
  | .relink _ command => some command
  | _ => none

theorem leaves_iff_runs (hline : lineOf? a.1 = some line) (hcommands : h.commands? line = some commands)
    (hsucceeds : a.Succeeds) : h.Leaves sent a t t' ↔ h.Runs commands h.home t t' true := by
  have executes_iff {ok : Bool} (hok : ok = true) :
      h.Executes line t t' ok ↔ h.Runs commands h.home t t' true := by
    simp [Executes, hcommands, hok]
  obtain ⟨step, r⟩ := a
  cases step with
  | lockCheck => cases hline
  | transfer => cases hline
  | clean directory command =>
    cases hline
    rcases r with _ | _ | result
    · cases hsucceeds
    · cases hsucceeds
    · exact executes_iff (decide_eq_true hsucceeds)
  | relink directory command =>
    cases hline
    rcases r with _ | _ | result
    · cases hsucceeds
    · cases hsucceeds
    · exact executes_iff (decide_eq_true hsucceeds)

theorem exists_runs_of_leaves (hline : lineOf? a.1 = some line)
    (hcommands : h.commands? line = some commands) (hleaves : h.Leaves sent a t t') :
    ∃ part ok, part <+: commands ∧ h.Runs part h.home t t' ok := by
  have of_answers {r} (hanswers : h.Answers line r t t') :
      ∃ part ok, part <+: commands ∧ h.Runs part h.home t t' ok := by
    rcases r with _ | _ | result
    · exact hanswers _ hcommands
    · exact hanswers _ hcommands
    · exact ⟨commands, _, List.prefix_rfl, hanswers _ hcommands⟩
  obtain ⟨step, r⟩ := a
  cases step with
  | lockCheck => cases hline
  | transfer => cases hline
  | clean directory command =>
    cases hline
    exact of_answers hleaves
  | relink directory command =>
    cases hline
    exact of_answers hleaves

theorem leaves_iff_writes {source : Path} {path : String} (ha : a.1 = .transfer source path)
    (hsucceeds : a.Succeeds) : h.Leaves sent a t t' ↔ h.Writes (sent source) path t t' := by
  obtain ⟨step, r⟩ := a
  obtain rfl : step = _ := ha
  rcases r with _ | _ | bytes
  · cases hsucceeds
  · cases hsucceeds
  · exact .rfl

end Leaves

theorem leave_append {as bs : List (Attempt l c)} {t t'' : Contents δ} :
    h.Leave sent (as ++ bs) t t'' ↔ ∃ t', h.Leave sent as t t' ∧ h.Leave sent bs t' t'' := by
  induction as generalizing t with
  | nil =>
    constructor
    · exact fun hbs => ⟨t, .nil, hbs⟩
    · rintro ⟨_, ⟨⟩, hbs⟩
      exact hbs
  | cons a as ih =>
    constructor
    · rintro (_ | ⟨ha, has⟩)
      obtain ⟨t', has, hbs⟩ := ih.mp has
      exact ⟨t', .cons ha has, hbs⟩
    · rintro ⟨t', _ | ⟨ha, has⟩, hbs⟩
      exact .cons ha (ih.mpr ⟨t', has, hbs⟩)

theorem Leave.of_locks {lock : Option Lock.Request} {as : List (Attempt l c)} {t t' : Contents δ}
    (hleave : h.Leave sent as t t') (hlocks : ∀ a ∈ as, a.1 ∈ (lock.map Step.lockCheck).toList) :
    t' = t := by
  induction hleave with
  | nil => rfl
  | @cons a as t t' t'' ha _ ih =>
    obtain ⟨hlock, has⟩ := List.forall_mem_cons.mp hlocks
    obtain ⟨request, -, hstep⟩ := Option.map_eq_some_iff.mp (Option.mem_toList.mp hlock)
    obtain ⟨step, r⟩ := a
    obtain rfl : .lockCheck request = step := hstep
    rw [ih has]
    exact ha

theorem leave_locks {lock : Option Lock.Request} {as : List (Attempt l c)} {t : Contents δ}
    (hlocks : ∀ a ∈ as, a.1 ∈ (lock.map Step.lockCheck).toList) : h.Leave sent as t t := by
  induction as with
  | nil => exact .nil
  | cons a as ih =>
    obtain ⟨hlock, has⟩ := List.forall_mem_cons.mp hlocks
    obtain ⟨request, -, hstep⟩ := Option.map_eq_some_iff.mp (Option.mem_toList.mp hlock)
    obtain ⟨step, r⟩ := a
    obtain rfl : .lockCheck request = step := hstep
    exact .cons rfl (ih has)

theorem Leave.in_two {lock : Option Lock.Request} {first second : List Step}
    {as : List (Attempt l c)} {t t' : Contents δ} (hleave : h.Leave sent as t t')
    (hsteps : as.map (·.1) = (lock.map Step.lockCheck).toList ++ (first ++ second))
    (hsucceed : ∀ a ∈ as, a.Succeeds) :
    ∃ (firsts seconds : List (Attempt l c)) (t₁ : Contents δ),
      (firsts.map (·.1) = first ∧ (∀ a ∈ firsts, a.Succeeds) ∧ h.Leave sent firsts t t₁) ∧
        seconds.map (·.1) = second ∧ (∀ a ∈ seconds, a.Succeeds) ∧ h.Leave sent seconds t₁ t' := by
  obtain ⟨locks, others, rfl, hlocks, hothers⟩ := List.map_eq_append_iff.mp hsteps
  obtain ⟨firsts, seconds, rfl, hfirst, hsecond⟩ := List.map_eq_append_iff.mp hothers
  obtain ⟨_, hlocked, hleft⟩ := leave_append.mp hleave
  obtain ⟨t₁, hfirsts, hseconds⟩ := leave_append.mp hleft
  simp only [List.forall_mem_append] at hsucceed
  obtain rfl := hlocked.of_locks fun a ha => hlocks ▸ List.mem_map_of_mem ha
  exact ⟨firsts, seconds, t₁, ⟨hfirst, hsucceed.2.1, hfirsts⟩, hsecond, hsucceed.2.2, hseconds⟩

def Within (h : Host δ) (paths : List String) (d : δ) : Prop :=
  ∃ path ∈ paths, h.directory? h.home path = some d

theorem Within.mono {some paths : List String} {d : δ} (hwithin : h.Within some d)
    (hsub : some ⊆ paths) : h.Within paths d := by
  obtain ⟨path, hpath, hd⟩ := hwithin
  exact ⟨path, hsub hpath, hd⟩

theorem within_append {paths more : List String} {d : δ} :
    h.Within (paths ++ more) d ↔ h.Within paths d ∨ h.Within more d := by
  simp only [Within, List.mem_append, or_and_right, exists_or]

theorem within_singleton {path : String} {d : δ} :
    h.Within [path] d ↔ h.directory? h.home path = some d := by
  simp [Within]

/-- Steps of one kind, each of which with success puts one and the same under some names of the
directory that its path leads to, as long as these are as they should be. -/
structure Lays (h : Host δ) (sent : Path → Bytes) (l : Lockout) (c : Connection ι)
    (step : String → Step) (paths : List String) (names : String → Prop) (e : Option Entry)
    (C : Contents δ → Prop) : Prop where
  lays : ∀ path ∈ paths, ∀ (a : Attempt l c) t t', a.1 = step path → a.Succeeds →
    h.Leaves sent a t t' → C t → ∃ d, h.directory? h.home path = some d ∧
      t' = t.lay (fun d' n => d' = d ∧ names n) e
  keeps : ∀ t p, C t → C (t.lay p e)

section Phase

variable {step : String → Step} {names : String → Prop} {e : Option Entry} {C : Contents δ → Prop}
  {paths : List String} {as : List (Attempt l c)} {t t' : Contents δ}

theorem Lays.of_subset (hlays : h.Lays sent l c step paths names e C) {some : List String}
    (hsub : ∀ path ∈ some, path ∈ paths) : h.Lays sent l c step some names e C :=
  ⟨fun path hpath => hlays.lays path (hsub path hpath), hlays.keeps⟩

theorem Leave.phase (hlays : h.Lays sent l c step paths names e C)
    (hsteps : as.map (·.1) = paths.map step) (hsucceed : ∀ a ∈ as, a.Succeeds)
    (hleave : h.Leave sent as t t') (ht : C t) :
    (∀ path ∈ paths, ∃ d, h.directory? h.home path = some d) ∧
      t' = t.lay (fun d n => h.Within paths d ∧ names n) e := by
  induction paths generalizing as t with
  | nil =>
    obtain rfl := List.map_eq_nil_iff.mp hsteps
    cases hleave
    exact ⟨by simp, (Contents.lay_none (by simp [Within])).symm⟩
  | cons path paths ih =>
    obtain ⟨a, as, rfl, ha, has⟩ := List.map_eq_cons_iff.mp hsteps
    obtain ⟨hfirst, hrest⟩ := List.forall_mem_cons.mp hsucceed
    cases hleave with
    | cons hleaves hleave =>
      obtain ⟨d, hd, rfl⟩ := hlays.lays path (.head _) a _ _ ha hfirst hleaves ht
      obtain ⟨hdirs, rfl⟩ := ih (hlays.of_subset fun p hp => .tail _ hp) has hrest hleave
        (hlays.keeps _ _ ht)
      refine ⟨List.forall_mem_cons.mpr ⟨⟨d, hd⟩, hdirs⟩, ?_⟩
      rw [Contents.lay_lay]
      apply Contents.lay_congr
      intro d' n
      rw [← List.singleton_append, within_append, within_singleton, hd, Option.some_inj,
        or_and_right, eq_comm]

theorem Leave.phase_begun (hlays : h.Lays sent l c step paths names e C)
    (hsteps : as.map (·.1) <+: paths.map step) (hsucceed : ∀ a ∈ as.dropLast, a.Succeeds)
    (hleave : h.Leave sent as t t') (ht : C t) :
    ∃ done, done <+: paths ∧
      (t' = t.lay (fun d n => h.Within done d ∧ names n) e ∨
        ∃ path ∈ paths, ∃ a, as.getLast? = some a ∧ a.1 = step path ∧ ¬ a.Succeeds ∧
          C (t.lay (fun d n => h.Within done d ∧ names n) e) ∧
          h.Leaves sent a (t.lay (fun d n => h.Within done d ∧ names n) e) t') := by
  obtain rfl | ⟨init, last, rfl⟩ := List.eq_nil_or_concat' as
  · cases hleave
    exact ⟨[], List.nil_prefix, .inl (Contents.lay_none (by simp [Within])).symm⟩
  · obtain ⟨rest, hrest⟩ := hsteps
    rw [List.map_append, List.append_assoc] at hrest
    obtain ⟨done, more, rfl, hdone, hmore⟩ := List.map_eq_append_iff.mp hrest.symm
    obtain ⟨path, others, rfl, hpath, -⟩ := List.map_eq_cons_iff.mp hmore
    obtain ⟨t₁, hinit, hlast⟩ := leave_append.mp hleave
    have hleaves : h.Leaves sent last t₁ t' := by
      cases hlast with
      | cons hleaves hnil =>
        cases hnil
        exact hleaves
    rw [List.dropLast_concat] at hsucceed
    obtain ⟨-, rfl⟩ := Leave.phase (hlays.of_subset fun p hp => List.mem_append_left _ hp) hdone.symm
      hsucceed hinit ht
    have hmem : path ∈ done ++ path :: others := List.mem_append_right _ (.head _)
    by_cases hlast : last.Succeeds
    · refine ⟨done ++ [path], ⟨others, by simp⟩, .inl ?_⟩
      obtain ⟨d, hd, rfl⟩ := hlays.lays path hmem last _ _ hpath.symm hlast hleaves
        (hlays.keeps _ _ ht)
      rw [Contents.lay_lay]
      apply Contents.lay_congr
      intro d' n
      rw [within_append, within_singleton, hd, Option.some_inj, or_and_right, @eq_comm _ d]
    · exact ⟨done, List.prefix_append .., .inr ⟨path, hmem, last, by simp, hpath.symm, hlast,
        hlays.keeps _ _ ht, hleaves⟩⟩

def Can (h : Host δ) (sent : Path → Bytes) (l : Lockout) (c : Connection ι) (step : String → Step)
    (paths : List String) (names : δ → String → Prop) : Prop :=
  ∀ path ∈ paths, ∀ (a : Attempt l c) (t : Contents δ), a.1 = step path → a.Succeeds → t.Free names →
    ∃ t', h.Leaves sent a t t' ∧ t'.Free names

theorem Can.exists_leave {names : δ → String → Prop} (hcan : h.Can sent l c step paths names)
    (hsteps : as.map (·.1) = paths.map step) (hsucceed : ∀ a ∈ as, a.Succeeds) (ht : t.Free names) :
    ∃ t', h.Leave sent as t t' ∧ t'.Free names := by
  induction paths generalizing as t with
  | nil =>
    obtain rfl := List.map_eq_nil_iff.mp hsteps
    exact ⟨t, .nil, ht⟩
  | cons path paths ih =>
    obtain ⟨a, as, rfl, ha, has⟩ := List.map_eq_cons_iff.mp hsteps
    obtain ⟨hfirst, hrest⟩ := List.forall_mem_cons.mp hsucceed
    obtain ⟨t₁, hleaves, ht₁⟩ := hcan path (.head _) a t ha hfirst ht
    obtain ⟨t', hleave, ht'⟩ := ih (fun p hp => hcan p (.tail _ hp)) has hrest ht₁
    exact ⟨t', .cons hleaves hleave, ht'⟩

end Phase

section Transfer

variable {source : Path} {file dir : String} {paths : List String} {t t' : Contents δ}

def Unlinked (h : Host δ) (paths : List String) (file : String) (t : Contents δ) : Prop :=
  ∀ d, h.Within paths d → ∀ away, t d file ≠ some (.link away)

theorem Writes.place {content : Bytes} (hfile : Path.IsEntryName file.toList) (hdir : dir ≠ "")
    (hwrites : h.Writes content (Shell.Command.joinRemote dir file) t t')
    (ht : ∀ d, h.directory? h.home dir = some d → ∀ away, t d file ≠ some (.link away)) :
    ∃ d, h.directory? h.home dir = some d ∧
      t' = t.lay (fun d' n => d' = d ∧ n = file) (some (.file content)) := by
  obtain ⟨d, name, hplace, -, hput⟩ := hwrites
  rw [place?_joinRemote hdir hfile] at hplace
  obtain ⟨_, hd, heq⟩ := Option.map_eq_some_iff.mp hplace
  obtain ⟨rfl, rfl⟩ := Prod.mk.inj heq
  exact ⟨_, hd, hput (ht _ hd)⟩

theorem lays_transfer (hfile : Path.IsEntryName file.toList) (hpaths : ∀ path ∈ paths, path ≠ "") :
    h.Lays sent l c (fun dir => .transfer source (Shell.Command.joinRemote dir file)) paths (· = file)
      (some (.file (sent source))) (h.Unlinked paths file) where
  lays path hpath a t t' ha hsucceeds hleaves ht :=
    Writes.place hfile (hpaths path hpath) ((leaves_iff_writes ha hsucceeds).mp hleaves)
      fun d hd => ht d ⟨path, hpath, hd⟩
  keeps t p ht d hd away := by
    by_cases hp : p d file
    · rw [Contents.lay_of hp]
      simp
    · rw [Contents.lay_of_not hp]
      exact ht d hd away

theorem can_transfer (hfile : Path.IsEntryName file.toList) (hpaths : ∀ path ∈ paths, path ≠ "")
    (hdirs : ∀ path ∈ paths, ∃ d, h.directory? h.home path = some d) {names : δ → String → Prop}
    (hnames : ∀ d, h.Within paths d → names d file) :
    h.Can sent l c (fun dir => .transfer source (Shell.Command.joinRemote dir file)) paths names := by
  intro path hpath a t ha hsucceeds ht
  obtain ⟨d, hd⟩ := hdirs path hpath
  have hplace : h.place? h.home (Shell.Command.joinRemote path file) = some (d, file) := by
    rw [place?_joinRemote (hpaths path hpath) hfile, hd]
    rfl
  have hwrites : h.Writes (sent source) (Shell.Command.joinRemote path file) t
      (t.lay (fun d' n => d' = d ∧ n = file) (some (.file (sent source)))) :=
    ⟨d, file, hplace, ht d file (hnames d ⟨path, hpath, hd⟩), fun _ => rfl⟩
  exact ⟨_, (leaves_iff_writes ha hsucceeds).mpr hwrites, ht.lay (by simp)⟩

theorem left_of_transfer (hfile : Path.IsEntryName file.toList) (hdir : dir ≠ "") {a : Attempt l c}
    (ha : a.1 = .transfer source (Shell.Command.joinRemote dir file)) (hfails : ¬ a.Succeeds)
    (hleaves : h.Leaves sent a t t')
    (ht : ∀ d, h.directory? h.home dir = some d → ∀ away, t d file ≠ some (.link away)) :
    t' = t ∨ ∃ d part, h.directory? h.home dir = some d ∧
      t' = t.lay (fun d' n => d' = d ∧ n = file) (some (.file part)) := by
  obtain ⟨step, r⟩ := a
  obtain rfl : step = _ := ha
  have hleft : t' = t ∨ ∃ part, part <+: sent source ∧
      h.Writes part (Shell.Command.joinRemote dir file) t t' := by
    rcases r with _ | _ | bytes
    · exact hleaves
    · exact hleaves
    · exact absurd trivial hfails
  obtain rfl | ⟨part, -, hwrites⟩ := hleft
  · exact .inl rfl
  · obtain ⟨d, hd, hput⟩ := Writes.place hfile hdir hwrites ht
    exact .inr ⟨d, part, hd, hput⟩

end Transfer

end Remote.Host

namespace Deployer.Settings

variable {s : Settings} {w : World ι} {past : List (Exchange ι)} {attempts : List (Attempt s.lockout c)}

/-- In this world the run of a job makes just these attempts. -/
structure Tries (s : Settings) (c : Connection ι) (job : Job) (w : World ι)
    (past : List (Exchange ι)) (attempts : List (Attempt s.lockout c)) : Prop where
  steps : attempts.map (·.1) <+: job.steps
  calls : ∃ t, ((s.deployer.runOn c job).play w past).2 = past ++ t ∧
    calls t = attempts.map Attempt.exchange

theorem exists_tries (s : Settings) (c : Connection ι) (w : World ι) (past : List (Exchange ι))
    (hvalid : job.validate = .ok ()) :
    ∃ attempts : List (Attempt s.lockout c), s.Tries c job w past attempts ∧
      (∀ a ∈ attempts.dropLast, ∃ n, a.verdict job = some (.ok n)) ∧
      ((∃ report, ((s.deployer.runOn c job).play w past).1 = some (.ok report)) ↔
        ∀ a ∈ attempts, ∃ n, a.verdict job = some (.ok n)) ∧
      ((∀ a ∈ attempts, ∃ n, a.verdict job = some (.ok n)) → attempts.map (·.1) = job.steps) := by
  obtain ⟨t, ht, hdoes, -⟩ := does_play w (s.deployer.runOn c job) past
  obtain ⟨o, hcourse, ho⟩ := (does_runOn hvalid).mp hdoes
  obtain ⟨passed, hpassed, ⟨hsteps, hcalls, rfl⟩ | ⟨last, rest, hsteps, hcalls, hlast⟩⟩ :=
    hcourse.split
  · exact ⟨passed, ⟨hsteps ▸ List.prefix_rfl, t, ht, hcalls⟩,
      fun a ha => hpassed a (List.mem_of_mem_dropLast ha), ⟨fun _ => hpassed, fun _ => ⟨_, ho⟩⟩,
      fun _ => hsteps⟩
  · have hfails : ¬ ∀ a ∈ passed ++ [last], ∃ n, a.verdict job = some (.ok n) := by
      intro hall
      obtain ⟨n, hn⟩ := hall last (by simp)
      obtain ⟨-, hv⟩ | ⟨e, -, hv⟩ := hlast <;> simp [hv] at hn
    refine ⟨passed ++ [last], ⟨⟨rest, by simp [← hsteps]⟩, t, ht, by simp [hcalls]⟩, ?_, ?_,
      fun hall => absurd hall hfails⟩
    · rw [List.dropLast_concat]
      exact hpassed
    · refine iff_of_false ?_ hfails
      rintro ⟨report, hreport⟩
      obtain ⟨rfl, -⟩ | ⟨e, rfl, -⟩ := hlast <;> simp [ho, Except.map] at hreport

theorem Tries.unique {attempts' : List (Attempt s.lockout c)} (h : s.Tries c job w past attempts)
    (h' : s.Tries c job w past attempts') : attempts = attempts' := by
  obtain ⟨t, ht, hcalls⟩ := h.calls
  obtain ⟨t', ht', hcalls'⟩ := h'.calls
  obtain rfl : t = t' := List.append_cancel_left (ht.symm.trans ht')
  exact Attempt.eq_of_exchanges h.steps h'.steps (hcalls.symm.trans hcalls')

theorem Tries.ends_well (htries : s.Tries c job w past attempts) (hvalid : job.validate = .ok ())
    (hsucceed : ∀ a ∈ attempts, a.Succeeds) :
    ∃ report, ((s.deployer.runOn c job).play w past).1 = some (.ok report) := by
  obtain ⟨_, htries', -, hends, -⟩ := exists_tries s c w past hvalid
  obtain rfl := htries.unique htries'
  exact hends.mpr fun a ha => (hsucceed a ha).passes

theorem Tries.reply (htries : s.Tries c job w past attempts) {a : Attempt s.lockout c}
    (ha : a ∈ attempts) : ∃ before, a.2 = w before (a.1.order s.lockout c) := by
  obtain ⟨t, ht, hcalls⟩ := htries.calls
  obtain ⟨t', ht', -, hreplies⟩ := does_play w (s.deployer.runOn c job) past
  obtain rfl : t = t' := List.append_cancel_left (ht.symm.trans ht')
  exact hreplies a.exchange (List.mem_of_mem_filter (hcalls ▸ List.mem_map_of_mem ha))

/-- In some world the job is run so that every call succeeds, and leaves this on its host. -/
def Deploys (s : Settings) (c : Connection ι) (h : Host δ) (sent : Path → Bytes) (job : Job)
    (t t' : Contents δ) : Prop :=
  ∃ w past attempts, s.Tries c job w past attempts ∧ (∀ a ∈ attempts, a.Succeeds) ∧
    h.Leave sent attempts t t'

theorem Deploys.leave {h : Host δ} {sent : Path → Bytes} {t t' : Contents δ}
    (hvalid : job.validate = .ok ()) (hdeploys : s.Deploys c h sent job t t') :
    ∃ attempts : List (Attempt s.lockout c), attempts.map (·.1) = job.steps ∧
      (∀ a ∈ attempts, a.Succeeds) ∧ h.Leave sent attempts t t' := by
  obtain ⟨w, past, attempts, htries, hsucceed, hleave⟩ := hdeploys
  obtain ⟨_, htries', -, -, hsteps⟩ := exists_tries s c w past hvalid
  obtain rfl := htries.unique htries'
  exact ⟨attempts, hsteps fun a ha => (hsucceed a ha).passes, hsucceed, hleave⟩

theorem exists_attempts_of_obliging (s : Settings) (c : Connection Target)
    (hvalid : job.validate = .ok ()) :
    ∃ attempts : List (Attempt s.lockout c), s.Tries c job World.obliging [] attempts ∧
      (∀ a ∈ attempts, a.Succeeds) ∧ attempts.map (·.1) = job.steps := by
  obtain ⟨attempts, htries, -, -, hsteps⟩ := s.exists_tries c World.obliging [] hvalid
  have hsucceed : ∀ a ∈ attempts, a.Succeeds := by
    intro a ha
    obtain ⟨before, hreply⟩ := htries.reply ha
    exact Attempt.succeeds_of_obliging hreply
  exact ⟨attempts, htries, hsucceed, hsteps fun a ha => (hsucceed a ha).passes⟩

theorem exists_deploys (s : Settings) (c : Connection Target) {h : Host δ} {sent : Path → Bytes}
    {t : Contents δ} {first second : String → Step} {names : δ → String → Prop}
    (hvalid : job.validate = .ok ())
    (hsteps : job.steps = (job.lock.map Step.lockCheck).toList ++
      (job.remotePaths.map first ++ job.remotePaths.map second))
    (hfirst : h.Can sent s.lockout c first job.remotePaths names)
    (hsecond : h.Can sent s.lockout c second job.remotePaths names) (ht : t.Free names) :
    ∃ t', s.Deploys c h sent job t t' := by
  obtain ⟨attempts, htries, hsucceed, hall⟩ := s.exists_attempts_of_obliging c hvalid
  rw [hsteps] at hall
  obtain ⟨locks, others, rfl, hlocks, hothers⟩ := List.map_eq_append_iff.mp hall
  obtain ⟨firsts, seconds, rfl, hfirsts, hseconds⟩ := List.map_eq_append_iff.mp hothers
  have hsucceed' := hsucceed
  simp only [List.forall_mem_append] at hsucceed'
  have hlocked : h.Leave sent locks t t :=
    Host.leave_locks fun a ha => hlocks ▸ List.mem_map_of_mem ha
  obtain ⟨t₁, hleave, ht₁⟩ := hfirst.exists_leave hfirsts hsucceed'.2.1 ht
  obtain ⟨t', hleave', -⟩ := hsecond.exists_leave hseconds hsucceed'.2.2 ht₁
  exact ⟨t', _, _, _, htries, hsucceed, Host.leave_append.mpr ⟨t, hlocked,
    Host.leave_append.mpr ⟨t₁, hleave, hleave'⟩⟩⟩

end Deployer.Settings

def Job.toTwoSpellings (mode : DeployMode) : Job where
  name := "dev1"
  target := { name := "basicssh", host := "shards.example.net" }
  credentials := .standard
  artifact := ⟨⟨"build/libs/plugin-1.0.jar"⟩, "1.0"⟩
  remotePaths := ["/srv/plugins", "/srv/./plugins//"]
  mode
  lock := none

end Rollout
