import Rollout.Proofs.Group
import Rollout.Proofs.Interleaving

/-!
Workers that stop. Before each of its moves the world says whether a worker goes on, so that it may
stop in a call as well as between two of them, or before the first. A batch tells of every job all the
same.
-/

namespace Rollout

variable {ι κ α : Type} {cs : List (Exchange ι)}

namespace Program

def falter : Program ι α → Program ι α
  | .done a => .ask .turn fun
    | true => .done a
    | false => .stop
  | .stop => .stop
  | .ask a next => .ask .turn fun
    | true => .ask a fun r => (next r).falter
    | false => .stop

theorem does_turn {next : Bool → Program ι α} {o : Option α} :
    (ask .turn next).Does cs o ↔ (next true).Does cs o ∨ (next false).Does cs o := by
  rw [does_ask]
  constructor
  · rintro ⟨r, _, rfl, h⟩
    cases r with
    | true => exact .inl h
    | false => exact .inr h
  · rintro (h | h)
    · exact ⟨true, cs, rfl, h⟩
    · exact ⟨false, cs, rfl, h⟩

theorem exists_does (p : Program ι α) : ∃ cs o, p.Does cs o := by
  induction p with
  | done a => exact ⟨_, _, does_done.mpr ⟨rfl, rfl⟩⟩
  | stop => exact ⟨_, _, does_stop.mpr ⟨rfl, rfl⟩⟩
  | ask a next ih =>
    have reply : a.Reply := by
      cases a with
      | note e => exact ()
      | turn => exact true
      | connect request => exact none
      | exec polling session command => exact none
      | upload session source destination => exact none
    obtain ⟨cs, o, h⟩ := ih reply
    exact ⟨_, o, does_ask.mpr ⟨reply, cs, rfl, h⟩⟩

theorem does_falter {p : Program ι α} {o : Option α} :
    p.falter.Does cs o ↔ p.Does cs o ∨ o = none ∧ ∃ rest o', p.Does (cs ++ rest) o' := by
  induction p generalizing cs with
  | done a =>
    simp only [falter, does_turn, does_done, does_stop]
    constructor
    · rintro (h | ⟨rfl, rfl⟩)
      · exact .inl h
      · exact .inr ⟨rfl, [], some a, rfl, rfl⟩
    · rintro (h | ⟨rfl, rest, o', h, -⟩)
      · exact .inl h
      · exact .inr ⟨(List.append_eq_nil_iff.mp h).1, rfl⟩
  | stop =>
    simp only [falter, does_stop]
    constructor
    · exact .inl
    · rintro (h | ⟨rfl, rest, o', h, -⟩)
      · exact h
      · exact ⟨(List.append_eq_nil_iff.mp h).1, rfl⟩
  | ask a next ih =>
    simp only [falter, does_turn, does_stop]
    constructor
    · rintro (h | ⟨rfl, rfl⟩)
      · obtain ⟨r, u, rfl, hr⟩ := does_ask.mp h
        obtain hr | ⟨rfl, rest, o', hr⟩ := (ih r).mp hr
        · exact .inl (does_ask.mpr ⟨r, u, rfl, hr⟩)
        · exact .inr ⟨rfl, rest, o', does_ask.mpr ⟨r, u ++ rest, List.append_assoc .., hr⟩⟩
      · obtain ⟨rest, o', h⟩ := exists_does (ask a next)
        exact .inr ⟨rfl, rest, o', h⟩
    · rintro (h | ⟨rfl, rest, o', h⟩)
      · obtain ⟨r, u, rfl, hr⟩ := does_ask.mp h
        exact .inl (does_ask.mpr ⟨r, u, rfl, (ih r).mpr (.inl hr)⟩)
      · -- what has been done is nothing yet, or begins with the answer to the question
        cases cs with
        | nil => exact .inr ⟨rfl, rfl⟩
        | cons x cs =>
          obtain ⟨r, u, heq, hr⟩ := does_ask.mp h
          have hmore {done : List (Exchange ι)} (hu : u = done ++ rest) :
              (next r).falter.Does done none := by
            rw [hu] at hr
            exact (ih r).mpr (.inr ⟨rfl, rest, o', hr⟩)
          left
          rw [does_ask]
          cases ha : a.isCall with
          | true =>
            simp only [calls_cons, ha] at heq ⊢
            obtain ⟨rfl, hu⟩ := List.cons.inj heq
            exact ⟨r, cs, rfl, hmore hu.symm⟩
          | false =>
            simp only [calls_cons, ha] at heq ⊢
            exact ⟨r, x :: cs, rfl, hmore heq.symm⟩

end Program

/-- A program whose workers may be stopped at any moment. -/
structure Frail (ι α : Type) where
  program : Program ι α

instance : Stage (Frail ι) where
  pure a := ⟨.done a⟩
  bind p f := ⟨p.program >>= fun a => (f a).program⟩
  note e := ⟨Stage.note e⟩
  gather ps := ⟨Program.gather (ps.map fun p => p.program.falter)⟩

open Program

namespace Batch

def outcomes (reason : List Entry → String) (jobs : List Job)
    (results : List (Option (List (Nat × Outcome)))) : List Outcome :=
  collect jobs.length
    ((groups jobs).zipWith (fun group result => result.getD (stopped reason group)) results).flatten

def Answers (group : List Entry) (produced : List (Nat × Outcome)) : Prop :=
  produced.map (fun o => (o.1, o.2.job)) = group.map fun entry => (entry.1, entry.2.name)

variable (reason : List Entry → String)

theorem answers_stopped (group : List Entry) : Answers group (stopped reason group) := by
  simp [Answers, stopped]

theorem answers_getD {group : List Entry} {result : Option (List (Nat × Outcome))}
    (h : ∀ produced, result = some produced → Answers group produced) :
    Answers group (result.getD (stopped reason group)) := by
  cases result with
  | none => exact answers_stopped reason group
  | some produced => exact h produced rfl

theorem labels_of_answers {groups : List (List Entry)} {results : List (Option (List (Nat × Outcome)))}
    (h : List.Forall₂ (fun group result => ∀ produced, result = some produced →
      Answers group produced) groups results) :
    Answers groups.flatten
      (groups.zipWith (fun group result => result.getD (stopped reason group)) results).flatten := by
  induction h with
  | nil => rfl
  | cons hgroup _ ih =>
    have hfirst := answers_getD reason hgroup
    rw [Answers] at hfirst ih ⊢
    rw [List.zipWith_cons_cons, List.flatten_cons, List.flatten_cons, List.map_append,
      List.map_append, hfirst, ih]

theorem outcomes_of_answers {jobs : List Job} {results : List (Option (List (Nat × Outcome)))}
    (h : List.Forall₂ (fun group result => ∀ produced, result = some produced →
      Answers group produced) (groups jobs) results) :
    (outcomes reason jobs results).map Outcome.job = jobs.map Job.name ∧
      ∀ group result, (group, result) ∈ (groups jobs).zip results →
        ∀ o ∈ result.getD (stopped reason group), (outcomes reason jobs results)[o.1]? = some o.2 := by
  have hlabels := labels_of_answers reason h
  have hpos : ((((groups jobs).zipWith (fun group result => result.getD (stopped reason group))
      results).flatten).map (·.1)).Perm (List.range jobs.length) := by
    have hfst := congrArg (List.map Prod.fst) hlabels
    rw [List.map_map, List.map_map] at hfst
    rw [← number_map_fst]
    exact hfst ▸ (groups_flatten_perm jobs).map _
  obtain ⟨hlen, hget⟩ := collect_getElem? hpos
  rw [← outcomes] at hlen
  constructor
  · apply List.ext_getElem?
    intro i
    rw [List.getElem?_map, List.getElem?_map]
    cases hi : jobs[i]? with
    | none =>
      have hle : (outcomes reason jobs results).length ≤ i := hlen ▸ List.getElem?_eq_none_iff.mp hi
      rw [List.getElem?_eq_none hle]
      rfl
    | some job =>
      have hmem : (i, job.name) ∈ (groups jobs).flatten.map fun entry => (entry.1, entry.2.name) :=
        List.mem_map_of_mem ((groups_flatten_perm jobs).mem_iff.mpr (mem_number.mpr hi))
      rw [← hlabels] at hmem
      obtain ⟨o, ho, hlabel⟩ := List.mem_map.mp hmem
      obtain ⟨rfl, hname⟩ := Prod.mk.inj hlabel
      have ho' : (outcomes reason jobs results)[o.1]? = some o.2 := hget ho
      rw [ho', Option.map_some, hname]
      rfl
  · intro group result hzip o ho
    apply hget
    refine List.mem_flatten.mpr ⟨_, ?_, ho⟩
    rw [← List.map_uncurry_zip_eq_zipWith]
    exact List.mem_map_of_mem (f := Function.uncurry fun group result => result.getD (stopped reason group)) hzip

end Batch

namespace Deployer

theorem answers_of_does_runGroup (d : Deployer (Frail ι) κ) {slot : Option (Connection κ)}
    {group : List Batch.Entry} {produced : List (Nat × Outcome)}
    (h : (d.runGroup slot group).program.Does cs (some produced)) :
    Batch.Answers group produced := by
  induction group generalizing slot cs produced with
  | nil =>
    obtain ⟨-, h⟩ := does_done.mp h
    cases h
    rfl
  | cons entry rest ih =>
    obtain ⟨i, job⟩ := entry
    rw [runGroup] at h
    obtain ⟨_, ⟨result, left⟩, cs, rfl, -, h⟩ | ⟨-, h⟩ := does_bind.mp h
    · have hrest {cs} (h : ((d.runGroup left rest).program >>= fun os =>
          pure ((i, ⟨job.name, result⟩) :: os)).Does cs (some produced)) :
          Batch.Answers ((i, job) :: rest) produced := by
        obtain ⟨o, ho, hproduced⟩ := (does_bind_quiet does_pure).mp h
        cases o with
        | none => cases hproduced
        | some os =>
          cases hproduced
          have hos := ih ho
          simp only [Batch.Answers, List.map_cons, List.cons.injEq, true_and] at hos ⊢
          exact hos
      cases result with
      | ok report => exact hrest h
      | error e => exact hrest (does_note_bind.mp h)
    · cases h

theorem does_runBatch {d : Deployer (Frail ι) κ} {jobs : List Job} {o : Option (List Outcome)} :
    (d.runBatch jobs).program.Does cs o ↔
      ∃ workers : List (List (Exchange ι) × Option (List (Nat × Outcome))),
        List.Forall₂ (fun group r => (d.runGroup none group).program.falter.Does r.1 r.2)
          (Batch.groups jobs) workers ∧
        Weaves (workers.map (·.1)) cs ∧
          o = some (Batch.outcomes d.stopReason jobs (workers.map (·.2))) := by
  rw [runBatch, runGroups]
  refine (does_bind_quiet does_pure).trans ?_
  constructor
  · rintro ⟨_, hgroups, rfl⟩
    obtain ⟨_, hgather, rfl⟩ := (does_bind_quiet does_pure).mp hgroups
    obtain ⟨workers, hworkers, hweave, rfl⟩ := does_gather.mp hgather
    exact ⟨workers, by simpa using hworkers, hweave, rfl⟩
  · rintro ⟨workers, hworkers, hweave, rfl⟩
    refine ⟨_, (does_bind_quiet does_pure).mpr ⟨_, does_gather.mpr ⟨workers, ?_, hweave, rfl⟩, rfl⟩, rfl⟩
    simpa using hworkers

/-- However its workers run and stop, a batch has one outcome for each job, in order. The jobs of a
worker that stopped are told to have lost it, and all others have what their own worker produced. -/
theorem runBatch_outcomes (d : Deployer (Frail ι) κ) (jobs : List Job) (w : World ι)
    (past : List (Exchange ι)) :
    ∃ (t : List (Exchange ι)) (outcomes : List Outcome)
        (workers : List (List (Exchange ι) × Option (List (Nat × Outcome)))),
      (d.runBatch jobs).program.play w past = (some outcomes, past ++ t) ∧
        (Batch.groups jobs).flatten.Perm (Batch.number jobs) ∧
        List.Forall₂ (fun group r => (d.runGroup none group).program.falter.Does r.1 r.2)
          (Batch.groups jobs) workers ∧
        Weaves (workers.map (·.1)) (calls t) ∧
        outcomes.map Outcome.job = jobs.map Job.name ∧
        ∀ group calls result, (group, calls, result) ∈ (Batch.groups jobs).zip workers →
          match result with
          | none => ∀ entry ∈ group, outcomes[entry.1]? =
              some ⟨entry.2.name, .error (.workerStopped entry.2.name (d.stopReason group))⟩
          | some produced => (d.runGroup none group).program.Does calls (some produced) ∧
              Batch.Answers group produced ∧ ∀ o ∈ produced, outcomes[o.1]? = some o.2 := by
  obtain ⟨t, ht, hdoes, -⟩ := does_play w (d.runBatch jobs).program past
  obtain ⟨workers, hworkers, hweave, ho⟩ := does_runBatch.mp hdoes
  have hanswers : List.Forall₂ (fun group result => ∀ produced, result = some produced →
      Batch.Answers group produced) (Batch.groups jobs) (workers.map (·.2)) := by
    rw [List.forall₂_map_right_iff]
    refine hworkers.imp fun group r hr produced hp => ?_
    obtain hdone | ⟨hnone, -⟩ := does_falter.mp hr
    · exact d.answers_of_does_runGroup (hp ▸ hdone)
    · cases hp ▸ hnone
  obtain ⟨hnames, hplaces⟩ := Batch.outcomes_of_answers d.stopReason hanswers
  refine ⟨t, _, workers, Prod.ext ho ht, Batch.groups_flatten_perm jobs, hworkers, hweave, hnames, ?_⟩
  intro group calls result hzip
  have hworker := (List.forall₂_iff_zip.mp hworkers).2 hzip
  have hresult : (group, result) ∈ (Batch.groups jobs).zip (workers.map (·.2)) := by
    rw [List.zip_map_right]
    exact List.mem_map_of_mem hzip
  have hstands := hplaces group result hresult
  cases result with
  | none =>
    intro entry hentry
    exact hstands _ (List.mem_map_of_mem hentry)
  | some produced =>
    obtain hdone | ⟨⟨⟩, -⟩ := does_falter.mp hworker
    exact ⟨hdone, d.answers_of_does_runGroup hdone, hstands⟩

end Deployer

end Rollout
