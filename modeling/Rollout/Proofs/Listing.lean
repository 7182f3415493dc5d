import Rollout.Proofs.Consistency
import Rollout.Proofs.Request

/-!
What a listing says of the tasks of a plan, and what becomes of a task that is asked for by the name
it is listed under. Every destination is listed twice, and its row foretells the job; but blanks in
front of a destination's name are lost on the way back, so such a row does not lead to its task.
-/

namespace Rollout

namespace Text

theorem trimLeft_append {cs rest : List Char} {c : Char} (hc : isBlank c = false) :
    trimLeft (cs ++ c :: rest) = trimLeft cs ++ c :: rest := by
  induction cs with
  | nil => simp [trimLeft, hc]
  | cons d cs ih =>
    cases hd : isBlank d with
    | true =>
      simp only [trimLeft, List.cons_append, List.dropWhile_cons, hd, if_true]
      exact ih
    | false => simp [trimLeft, hd]

theorem trimRight_append {cs : List Char} {c : Char} (hc : isBlank c = false) :
    trimRight (cs ++ [c]) = cs ++ [c] := by
  simp [trimRight, hc]

theorem trimLeft_eq_nil {cs : List Char} : trimLeft cs = [] ↔ cs.all isBlank = true := by
  rw [trimLeft, List.dropWhile_eq_nil_iff, List.all_eq_true]

theorem withoutEnding?_append (cs ending : List Char) : withoutEnding? ending (cs ++ ending) = some cs := by
  rw [withoutEnding?, if_pos (List.isSuffixOf_iff_suffix.mpr (List.suffix_append ..))]
  simp

def trimStart (s : String) : String := .ofList (trimLeft s.toList)

/-- A text that begins at once, with something else than a blank. -/
def Flush (s : String) : Prop := s ≠ "" ∧ ∀ c, s.toList.head? = some c → isBlank c = false

theorem flush_iff {s : String} : Flush s ↔ isVoid s = false ∧ trimStart s = s := by
  have hempty : s = "" ↔ s.toList = [] := by simp
  have hsame : trimStart s = s ↔ trimLeft s.toList = s.toList := by
    rw [trimStart, ← String.toList_inj, String.toList_ofList]
  rw [Flush, Ne, hempty, hsame, isVoid]
  cases s.toList with
  | nil => simp
  | cons c cs =>
    cases hc : isBlank c with
    | true =>
      have hlen := (List.dropWhile_sublist isBlank (l := cs)).length_le
      simp only [List.head?_cons, Option.some.injEq, trimLeft, List.dropWhile_cons, hc, if_true]
      constructor
      · rintro ⟨-, h⟩
        simpa [hc] using h c rfl
      · rintro ⟨-, h⟩
        rw [h] at hlen
        simp at hlen
    | false => simp [trimLeft, hc]

end Text

open Rehearsal

def Lock.Request.shown : Lock.Request → String
  | ⟨domain, shard, .claim _ _ minutes⟩ =>
    "claim " ++ domain ++ "/" ++ shard ++ " for " ++ toString minutes.toNat ++ " min"
  | ⟨domain, shard, .checkOnly⟩ => "check " ++ domain ++ "/" ++ shard

namespace Task

/-! ### Names -/

theorem Variant.suffix_eq (variant : Variant) : ∃ middle last,
    variant.suffix.toList = '-' :: middle ++ [last] ∧ Text.isBlank last = false := by
  cases variant with
  | locking => exact ⟨"deploy-loc".toList, 'k', by decide, by decide⟩
  | plain => exact ⟨"deplo".toList, 'y', by decide, by decide⟩

theorem trimChars_name (t : Task) :
    Text.trimChars t.name.toList = Text.trimLeft t.destination.toList ++ t.variant.suffix.toList := by
  -- the dash of the ending stops what is taken off in front, its last letter what is taken off behind
  obtain ⟨middle, last, hsuffix, hlast⟩ := t.variant.suffix_eq
  have hdash : Text.isBlank '-' = false := by decide
  rw [name, String.toList_append, Text.trimChars, hsuffix, List.cons_append,
    Text.trimLeft_append hdash, ← List.cons_append, ← List.append_assoc, Text.trimRight_append hlast,
    List.append_assoc]

theorem ofVariant?_append (variant : Variant) (cs : List Char) :
    ofVariant? variant (cs ++ variant.suffix.toList) = some ⟨.ofList cs, variant⟩ := by
  rw [ofVariant?, Text.withoutEnding?_append]
  rfl

theorem ofVariant?_locking_of_plain (cs : List Char) :
    ofVariant? .locking (cs ++ Variant.plain.suffix.toList) = none := by
  rw [ofVariant?, Option.map_eq_none_iff, Text.withoutEnding?, if_neg]
  intro hsuffix
  obtain ⟨start, h⟩ := List.isSuffixOf_iff_suffix.mp hsuffix
  -- the two endings differ in their last letter already
  have hlast := congrArg List.getLast? h
  have hlocking : Variant.locking.suffix.toList = "-deploy-loc".toList ++ ['k'] := by decide
  have hplain : Variant.plain.suffix.toList = "-deplo".toList ++ ['y'] := by decide
  rw [hlocking, hplain, ← List.append_assoc, ← List.append_assoc] at hlast
  simp at hlast

theorem orElse_ofVariant? (variant : Variant) (cs : List Char) :
    (ofVariant? .locking (cs ++ variant.suffix.toList)).orElse
      (fun _ => ofVariant? .plain (cs ++ variant.suffix.toList)) = some ⟨.ofList cs, variant⟩ := by
  cases variant with
  | locking =>
    rw [ofVariant?_append]
    rfl
  | plain =>
    rw [ofVariant?_locking_of_plain, ofVariant?_append]
    rfl

theorem parse?_name (t : Task) : parse? t.name =
    if Text.isVoid t.destination then none else some ⟨Text.trimStart t.destination, t.variant⟩ := by
  have hvoid : Text.trimStart t.destination = "" ↔ Text.isVoid t.destination = true := by
    rw [Text.isVoid, ← Text.trimLeft_eq_nil, Text.trimStart, String.ofList_eq_empty_iff]
  rw [parse?, trimChars_name, orElse_ofVariant?, ← Text.trimStart, Option.filter_some]
  simp only [ne_eq, hvoid]
  cases Text.isVoid t.destination <;> rfl

theorem parse?_name_eq_self {t : Task} : parse? t.name = some t ↔ Text.Flush t.destination := by
  obtain ⟨destination, variant⟩ := t
  rw [parse?_name, Text.flush_iff]
  cases Text.isVoid destination <;> simp

/-! ### Rows -/

def row (variant : Variant) (d : Plan.Destination) : Listing := listing ⟨d.name, variant⟩ d

theorem shown_request (l : Plan.LockSpec) (holder note : String) :
    (l.request holder note).shown = describe l := by
  rw [Plan.LockSpec.request, describe]
  split <;> rfl

theorem list_eq {plan : Plan} (h : plan.Coherent) :
    list plan = plan.destinations.map (row .locking) ++ plan.destinations.map (row .plain) := by
  have hrows (variant : Variant) :
      (plan.destinations.map fun d => (⟨d.name, variant⟩ : Task)).filterMap
          (fun t => (plan.destination? t.destination).map t.listing) =
        plan.destinations.map (row variant) := by
    rw [List.filterMap_map]
    -- the lookup by name leads back to the destination itself, so that no row is left out
    refine List.filterMap_eq_map_iff_forall_eq_some.mpr fun d hd => ?_
    have hfound : plan.destination? d.name = some d := h.destination?_eq_some.mpr ⟨hd, rfl⟩
    change (plan.destination? d.name).map _ = _
    rw [hfound]
    rfl
  rw [list, all]
  simp only [List.flatMap_cons, List.flatMap_nil, List.append_nil, List.filterMap_append, hrows]

theorem mem_list_iff {plan : Plan} (h : plan.Coherent) {r : Listing} :
    r ∈ list plan ↔ ∃ variant, ∃ d ∈ plan.destinations, row variant d = r := by
  simp only [list_eq h, List.mem_append, List.mem_map]
  constructor
  · rintro (hr | hr)
    · exact ⟨.locking, hr⟩
    · exact ⟨.plain, hr⟩
  · rintro ⟨variant, hr⟩
    cases variant with
    | locking => exact .inl hr
    | plain => exact .inr hr

/-! ### Requests -/

structure Listing.Foretells (plan : Plan) (r : Listing) (job : Job) : Prop where
  name : job.name = r.name
  remote : ∃ remote, plan.remote? r.remote = some remote ∧
    job.target = remote.target ∧ job.credentials = remote.credentials
  mode : job.mode.label = r.mode
  paths : job.remotePaths = r.paths
  lock : r.lock = job.lock.map Lock.Request.shown

variable {plan : Plan} {project holder : String} {inputs : Inputs} {operator : Operator}
  {variant : Variant} {d : Plan.Destination}

theorem find_row_eq_ok (h : plan.Coherent) (hd : d ∈ plan.destinations) :
    find plan (row variant d).name = .ok (⟨d.name, variant⟩, d) ↔ Text.Flush d.name := by
  have hfound : plan.destination? d.name = some d := h.destination?_eq_some.mpr ⟨hd, rfl⟩
  rw [find_eq_ok, and_iff_left hfound]
  exact parse?_name_eq_self

theorem parse?_row : parse? (row variant d).name =
    if Text.isVoid d.name then none else some ⟨Text.trimStart d.name, variant⟩ :=
  parse?_name _

theorem find_row {other : Plan.Destination} (hvoid : Text.isVoid d.name = false)
    (hother : plan.destination? (Text.trimStart d.name) = some other) :
    find plan (row variant d).name = .ok (⟨Text.trimStart d.name, variant⟩, other) := by
  rw [find_eq_ok, parse?_row, hvoid]
  exact ⟨rfl, hother⟩

theorem known_row : Known plan (row variant d).name ↔
    Text.isVoid d.name = false ∧ ∃ other, plan.destination? (Text.trimStart d.name) = some other := by
  rw [Known, parse?_row]
  cases Text.isVoid d.name <;> simp

theorem jobsOf_eq_unknown_iff {answers : LocalCommand.Answers} {name : String} :
    jobsOf plan [name] inputs operator answers = .error (.unknownTask name) ↔ ¬ Known plan name := by
  constructor
  · intro h
    rcases error_of_bind h with h | ⟨tasks, -, h⟩
    · obtain ⟨before, other, after, -, -, hother⟩ := error_of_mapM h
      obtain ⟨hunknown, hname⟩ := find_eq_error hother
      cases hname
      exact hunknown
    · -- with the task found, no later stage fails like this
      rcases error_of_bind h with h | ⟨project, -, h⟩
      · cases (project_eq_error h).2
      · exact absurd h (settle_ne.1 name)
  · intro hunknown
    rw [known_iff, not_exists] at hunknown
    cases hfind : find plan name with
    | ok found => exact absurd hfind (hunknown found)
    | error e =>
      obtain rfl := (find_eq_error hfind).2
      rw [jobsOf, List.mapM_cons, hfind]
      rfl

theorem label_modeOf : (modeOf d project).label = d.mode.label := by
  rw [modeOf]
  cases d.mode <;> rfl

theorem foretells_of_jobOf {job : Job} (hflush : Text.Flush d.name)
    (h : jobOf plan project holder inputs (⟨d.name, variant⟩, d) = .ok job) :
    (row variant d).Foretells plan job := by
  obtain ⟨remote, hremote, rfl⟩ := job_of_jobOf h
  have hstart := congrArg String.toList (Text.flush_iff.mp hflush).2
  rw [Text.trimStart, String.toList_ofList] at hstart
  have hname : Text.trim (Task.name ⟨d.name, variant⟩) = Task.name ⟨d.name, variant⟩ := by
    rw [Text.trim, trimChars_name, hstart, ← String.toList_append, String.ofList_toList]
    rfl
  refine ⟨hname, ⟨remote, hremote, rfl, rfl⟩, label_modeOf, rfl, ?_⟩
  change (lockOf variant d).map describe = ((lockOf variant d).map _).map _
  rw [Option.map_map]
  exact congrArg (Option.map · _) (funext fun l => (shown_request l ..).symm)

def labText : String := "
remotes.lab.host = \"lab.example.net\"

[destinations.qa]
remote = \"lab\"
mode = \"symlink-swap\"
paths = [\"/qa\"]
lock = \x7bdomain = \"lab\", shard = \"qa\", minutes = 15\x7d
"

def labHost : Plan.Remote := ⟨{ name := "lab", host := "lab.example.net" }, .standard⟩

def labQa : Plan.Destination :=
  ⟨"qa", "lab", .symlinkSwap, ["/qa"], some { domain := "lab", shard := "qa", minutes := 15 }, none⟩

def lab : Plan := ⟨.standard, [("lab", labHost)], [labQa]⟩

theorem accepted_lab : lab.Accepted := by
  have hparse : Plan.parse .standard labText = .ok lab := ok_of_toOption (by decide +kernel)
  exact Plan.accepted_of_parse hparse

theorem flush_qa : Text.Flush labQa.name := ⟨by decide, by simp [labQa]; decide⟩

/-- A listed task is found again, with its destination, exactly when the name of the destination
begins at once. Without the blanks in front that name may be another destination's, which is then found
in its place; it is an unknown task's exactly when it is blank or else no destination's. -/
theorem list_resolves_iff (plan : Plan) (hplan : plan.Accepted) :
    (∀ r, r ∈ list plan ↔ ∃ variant, ∃ d ∈ plan.destinations, row variant d = r) ∧
      ∀ variant, ∀ d ∈ plan.destinations,
        (find plan (row variant d).name = .ok (⟨d.name, variant⟩, d) ↔ Text.Flush d.name) ∧
        (∀ other, Text.isVoid d.name = false → plan.destination? (Text.trimStart d.name) = some other →
          find plan (row variant d).name = .ok (⟨Text.trimStart d.name, variant⟩, other)) ∧
        ∀ inputs operator answers scene,
          (∃ log, Comes (resolve plan [(row variant d).name] inputs operator
              (LocalCommand.recorder answers)) scene
              (.error (.unknownTask (row variant d).name)) log) ↔
            Text.isVoid d.name = true ∨ plan.destination? (Text.trimStart d.name) = none := by
  have hcoherent := hplan.coherent
  refine ⟨fun r => mem_list_iff hcoherent, fun variant d hd => ?_⟩
  refine ⟨find_row_eq_ok hcoherent hd, fun other => find_row, ?_⟩
  intro inputs operator answers scene
  rw [comes_resolve_iff, jobsOf_eq_unknown_iff, known_row]
  cases Text.isVoid d.name <;> simp [Option.eq_none_iff_forall_ne_some]

theorem list_resolves_of_lab : find lab "qa-deploy" = .ok (⟨"qa", .plain⟩, labQa) := by
  obtain ⟨-, hresolves⟩ := list_resolves_iff lab accepted_lab
  exact (hresolves .plain labQa (by decide)).1.mpr flush_qa

def spacedText : String := "
remotes.lab.host = \"lab\"

[destinations.\" dev\"]
remote = \"lab\"
mode = \"overwrite\"
paths = [\"/dev\"]
"

def spaced : Plan :=
  ⟨.standard, [("lab", ⟨{ name := "lab", host := "lab" }, .standard⟩)],
    [⟨" dev", "lab", .overwrite, ["/dev"], none, none⟩]⟩

/-- A task that is listed, and that nobody can ask for. -/
theorem list_offers_unknown :
    Plan.parse .standard spacedText = .ok spaced ∧
      (∃ r ∈ list spaced, r.name = " dev-deploy") ∧
      ∀ inputs operator answers scene, ∃ log,
        Comes (resolve spaced [" dev-deploy"] inputs operator (LocalCommand.recorder answers)) scene
          (.error (.unknownTask " dev-deploy")) log :=
  ⟨ok_of_toOption (by decide +kernel), by decide, fun _ _ _ _ => comes_resolve_iff.mpr rfl⟩

/-- Every destination is listed twice, first with its lock and then without, by ascending names; and
where the name of the destination begins at once, what the row says holds of the job that its name
asks for. -/
theorem list_foretells (plan : Plan) (hplan : plan.Accepted) :
    list plan = plan.destinations.map (row .locking) ++ plan.destinations.map (row .plain) ∧
      (list plan).length = 2 * plan.destinations.length ∧
      (plan.destinations.map (·.name)).Pairwise (· < ·) ∧
      ∀ variant, ∀ d ∈ plan.destinations, Text.Flush d.name →
        ∀ inputs operator answers scene jobs log,
          Comes (resolve plan [(row variant d).name] inputs operator (LocalCommand.recorder answers))
              scene (.ok jobs) log →
            ∃ job, jobs = [job] ∧ (row variant d).Foretells plan job := by
  have hcoherent := hplan.coherent
  have hlist := list_eq hcoherent
  refine ⟨hlist, ?_, hcoherent.ascending, fun variant d hd hflush => ?_⟩
  · rw [hlist, List.length_append, List.length_map, List.length_map]
    omega
  · intro inputs operator answers scene jobs log h
    obtain ⟨project, holder, hjobs⟩ := yields_of_jobsOf (comes_resolve_iff.mp ⟨log, h⟩)
    cases hjobs with
    | cons hjob hnone =>
      cases hnone
      obtain ⟨found, hfound, hjob⟩ := hjob
      rw [(find_row_eq_ok hcoherent hd).mpr hflush] at hfound
      cases hfound
      exact ⟨_, rfl, foretells_of_jobOf hflush hjob⟩

def labJob : Job :=
  ⟨"qa-deploy-lock", labHost.target, .standard, ⟨⟨"build/plugin-1.0.jar"⟩, "1.0"⟩, ["/qa"],
    .symlinkSwap "plugin", some (.claim "lab" "qa" "jane" 15)⟩

theorem list_foretells_of_lab :
    (list lab).map (·.name) = ["qa-deploy-lock", "qa-deploy"] ∧
      (row .locking labQa).lock = some "claim lab/qa for 15 min" ∧
      (row .locking labQa).Foretells lab labJob := by
  obtain ⟨hlist, -, -, hforetells⟩ := list_foretells lab accepted_lab
  let inputs : Inputs := { artifact := labJob.artifact }
  let jane : Operator := { lockoutName := some "jane" }
  let gitless : LocalCommand.Answers := fun program _ => .error ⟨program, "missing"⟩
  have hjobs : jobsOf lab ["qa-deploy-lock"] inputs jane gitless = .ok [labJob] :=
    ok_of_toOption (by decide +kernel)
  obtain ⟨log, hcomes⟩ : ∃ log, Comes (resolve lab ["qa-deploy-lock"] inputs jane
      (LocalCommand.recorder fun _ => gitless)) ⟨[], []⟩ (.ok [labJob]) log := comes_resolve_iff.mpr hjobs
  obtain ⟨job, hjob, hforetold⟩ := hforetells .locking labQa (by decide) flush_qa inputs jane
    (fun _ => gitless) ⟨[], []⟩ [labJob] log hcomes
  cases hjob
  exact ⟨by rw [hlist]; rfl, rfl, hforetold⟩

end Task

end Rollout
