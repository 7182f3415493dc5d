import Rollout.Proofs.Listing

/-!
The locks that jobs ask for. A lock is claimed for somebody: the holder of all the claims of a request
is one name, and no blank one, whether it is configured or git knows it; and it is claimed for a time.
-/

namespace Rollout

namespace Text

theorem runs_miss_blanks : ∀ run ∈ lowercaseRuns, ∀ blanks ∈ blankRanges, 0 < blanks.1 ∧
    ((run.2.1 + run.2.2.2 : Int) < blanks.1 ∨ (blanks.2 : Int) < run.1 + run.2.2.2) := by
  decide +kernel

theorem isBlank_lowerChar {c : Char} (hc : isBlank c = false) : isBlank (lowerChar c) = false := by
  rw [lowerChar]
  dsimp only
  split
  · next lo hi step offset hrun =>
    have hmem := List.mem_of_find?_eq_some hrun
    have hrange := List.find?_some hrun
    simp only [Bool.and_eq_true, decide_eq_true_eq] at hrange
    by_cases hvalid : (c.toNat + offset).toNat.isValidChar
    · rw [Char.ofNat, dif_pos hvalid]
      change inRanges blankRanges (c.toNat + offset).toNat = false
      rw [inRanges, List.any_eq_false]
      intro blanks hblanks
      have hmiss := runs_miss_blanks _ hmem _ hblanks
      simp only [Bool.and_eq_true, decide_eq_true_eq] at hmiss ⊢
      omega
    · rw [Char.ofNat, dif_neg hvalid]
      decide
  · exact hc

theorem all_isBlank_of_lowerFrom {before cs : List Char} (h : (lowerFrom before cs).all isBlank = true) :
    cs.all isBlank = true := by
  induction cs generalizing before with
  | nil => rfl
  | cons c rest ih =>
    rw [lowerFrom, List.all_append, Bool.and_eq_true] at h
    obtain ⟨hhere, hrest⟩ := h
    rw [List.all_cons, ih hrest, Bool.and_true]
    -- the two characters with forms of their own never become blank
    split_ifs at hhere
    · exact absurd hhere (by decide)
    · exact absurd hhere (by decide)
    · exact absurd hhere (by decide)
    · by_contra hc
      have hlower := isBlank_lowerChar (Bool.eq_false_iff.mpr hc)
      simp [hlower] at hhere

theorem isVoid_of_lowercase {s : String} (h : isVoid (lowercase s) = true) : isVoid s = true := by
  rw [isVoid, lowercase, String.toList_ofList] at h
  exact all_isBlank_of_lowerFrom h

theorem trim_eq_empty {s : String} (h : isVoid (trim s) = true) : trim s = "" := by
  rw [isVoid, trim, String.toList_ofList, ← trimLeft_eq_nil] at h
  rw [← trim_trim, trim, trim, String.toList_ofList, trimChars, h]
  rfl

end Text

namespace Operator

theorem lockoutName_ofVariables {lookup : String → Option String} {name : String}
    (h : (ofVariables lookup).lockoutName = some name) : Text.isVoid name = false := by
  simpa using (Option.filter_eq_some_iff.mp h).2

theorem isVoid_of_holder {o : Operator} {answers : LocalCommand.Answers} {name : String}
    (ho : ∀ name, o.lockoutName = some name → Text.isVoid name = false)
    (h : o.holder answers = .ok name) : Text.isVoid name = false := by
  rw [holder, holderName] at h
  split at h
  · next configured hconfigured =>
    cases h
    exact ho _ hconfigured
  · dsimp only [Bind.bind, Pure.pure] at h
    split at h
    · cases h
    · next output _ =>
      split_ifs at h with hknown
      obtain rfl := Except.ok.inj h
      rw [Bool.eq_false_iff]
      intro hvoid
      rw [Text.trim_eq_empty (Text.isVoid_of_lowercase hvoid)] at hknown
      simp [Text.lowercase, Text.lowerFrom] at hknown

end Operator

open Rehearsal

namespace Task

inductive Asks (t : Task) (d : Plan.Destination) (holder note : String) : Option Lock.Request → Prop
  | nothing : t.variant = .plain ∨ d.lock = none → Asks t d holder note none
  | check {l} : t.variant = .locking → d.lock = some l →
      Text.isVoid l.domain = false → Text.isVoid l.shard = false → l.checkOnly = true →
      Asks t d holder note (some ⟨l.domain, l.shard, .checkOnly⟩)
  | claim {l} : t.variant = .locking → d.lock = some l →
      Text.isVoid l.domain = false → Text.isVoid l.shard = false → l.checkOnly = false →
      1 ≤ l.minutes → Text.isVoid holder = false →
      Asks t d holder note (some ⟨l.domain, l.shard, .claim holder note l.minutes⟩)

variable {plan : Plan} {project holder : String} {inputs : Inputs} {operator : Operator}
  {tasks : List (Task × Plan.Destination)}

theorem asks_of_lockOf {t : Task} {d : Plan.Destination} {note : String}
    (hlock : ∀ l, d.lock = some l → l.Consistent)
    (hholder : t.claims d = true → Text.isVoid holder = false) :
    Asks t d holder note ((lockOf t.variant d).map (·.request holder note)) := by
  cases hvariant : t.variant with
  | plain => exact .nothing (.inl hvariant)
  | locking =>
    change Asks t d holder note (d.lock.map _)
    cases hl : d.lock with
    | none => exact .nothing (.inr hl)
    | some l =>
      obtain ⟨hdomain, hshard, hbounded⟩ := hlock l hl
      rw [Option.map_some, Plan.LockSpec.request]
      split_ifs with hcheck
      · exact .check hvariant hl hdomain hshard hcheck
      · have hclaims : t.claims d = true := by
          rw [claims, hvariant, lockOf, hl]
          simpa using hcheck
        exact .claim hvariant hl hdomain hshard (Bool.eq_false_iff.mpr hcheck)
          (hbounded.resolve_left hcheck) (hholder hclaims)

theorem isVoid_of_holderOf {answers : LocalCommand.Answers} {found : Task × Plan.Destination}
    (hoperator : ∀ name, operator.lockoutName = some name → Text.isVoid name = false)
    (h : holderOf tasks operator answers = .ok holder) (hfound : found ∈ tasks)
    (hclaims : found.1.claims found.2 = true) : Text.isVoid holder = false := by
  rw [holderOf, if_pos (List.any_eq_true.mpr ⟨found, hfound, hclaims⟩)] at h
  exact Operator.isVoid_of_holder hoperator (ok_of_mapError h)

/-- Every job asks for the lock of its task, and all that claim one claim it for the same holder. -/
theorem resolve_asks (plan : Plan) (hplan : plan.Accepted) (names : List String) (inputs : Inputs)
    (operator : Operator)
    (hoperator : ∀ name, operator.lockoutName = some name → Text.isVoid name = false)
    (answers : List Invocation → LocalCommand.Answers) (scene : Scene (List Invocation))
    (jobs : List Job) (log : List Invocation)
    (h : Comes (resolve plan names inputs operator (LocalCommand.recorder answers)) scene
      (.ok jobs) log) :
    ∃ holder, List.Forall₂ (fun name job => ∃ t d, parse? name = some t ∧
      plan.destination? t.destination = some d ∧
        Asks t d holder inputs.lockNote job.lock) names jobs := by
  have hcoherent := hplan.coherent
  obtain ⟨tasks, hfound, hjobs⟩ := ok_of_bind (comes_resolve_iff.mp ⟨log, h⟩)
  obtain ⟨project, -, hjobs⟩ := ok_of_bind hjobs
  obtain ⟨holder, hholder, hjobs⟩ := ok_of_bind hjobs
  have hheld : ∀ found ∈ tasks, found.1.claims found.2 = true → Text.isVoid holder = false :=
    fun found hmem => isVoid_of_holderOf hoperator hholder hmem
  have hjobs := (List.forall₂_and_left _ _).mpr ⟨hheld, forall₂_of_mapM hjobs⟩
  refine ⟨holder, (forall₂_comp (forall₂_of_mapM hfound) hjobs).imp fun name job hmade => ?_⟩
  obtain ⟨⟨t, d⟩, hname, hheld, hjob⟩ := hmade
  obtain ⟨ht, hd⟩ := find_eq_ok.mp hname
  obtain ⟨remote, -, rfl⟩ := job_of_jobOf hjob
  have hmem := (hcoherent.destination?_eq_some.mp hd).1
  exact ⟨t, d, ht, hd, asks_of_lockOf (hcoherent.locks d hmem) hheld⟩

theorem resolve_asks_of_lab : ∃ holder,
    Asks ⟨"qa", .locking⟩ labQa holder Lock.defaultNote (some (.claim "lab" "qa" "jane" 15)) := by
  let inputs : Inputs := { artifact := labJob.artifact }
  let unset : Operator := .ofVariables fun _ => none
  let git : LocalCommand.Answers := fun _ _ => .ok ⟨some 0, "Jane\n", ""⟩
  have hjobs : jobsOf lab ["qa-deploy-lock"] inputs unset git = .ok [labJob] :=
    ok_of_toOption (by decide +kernel)
  obtain ⟨log, hcomes⟩ : ∃ log, Comes (resolve lab ["qa-deploy-lock"] inputs unset
      (LocalCommand.recorder fun _ => git)) ⟨[], []⟩ (.ok [labJob]) log := comes_resolve_iff.mpr hjobs
  obtain ⟨holder, hasks⟩ := resolve_asks lab accepted_lab ["qa-deploy-lock"] inputs unset
    (fun _ => Operator.lockoutName_ofVariables) (fun _ => git) ⟨[], []⟩ [labJob] log hcomes
  cases hasks with
  | cons hfirst _ =>
    obtain ⟨t, d, ht, hd, hasks⟩ := hfirst
    obtain rfl : ⟨"qa", .locking⟩ = t := Option.some.inj ht
    obtain rfl : labQa = d := Option.some.inj hd
    exact ⟨holder, hasks⟩

end Task

end Rollout
