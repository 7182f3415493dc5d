import Rollout.Proofs.Custody

/-!
When a group opens a session, and how long it keeps it. Opening a connection shows in the log before
anything else is done for it, whether or not the remote host is asked in the end.
-/

namespace Rollout

variable {ι α β : Type}

def Event.isOpening (e : Event) : Bool := "Connecting to ".toList.isPrefixOf e.message.toList

def Ask.isOpening : Ask ι → Bool
  | .note e => e.isOpening
  | _ => false

def openings (t : List (Exchange ι)) : Nat := t.countP (·.1.isOpening)

namespace Program

theorem runs_bind {p : Program ι α} {f : α → Program ι β} {t : List (Exchange ι)} {o : Option β} :
    (p >>= f).Runs t o ↔
      (∃ s a u, t = s ++ u ∧ p.Runs s (some a) ∧ (f a).Runs u o) ∨ (p.Runs t none ∧ o = none) := by
  induction p generalizing t with
  | done a =>
    change (f a).Runs t o ↔ _
    simp [Runs]
  | stop =>
    change (stop : Program ι β).Runs t o ↔ _
    simp [Runs]
  | ask a next ih =>
    change (ask a fun r => next r >>= f).Runs t o ↔ _
    simp only [Runs, ih]
    constructor
    · rintro ⟨r, _, rfl, ⟨s, b, u, rfl, hp, hf⟩ | ⟨hp, rfl⟩⟩
      · exact .inl ⟨_, b, u, rfl, ⟨r, s, rfl, hp⟩, hf⟩
      · exact .inr ⟨⟨r, _, rfl, hp⟩, rfl⟩
    · rintro (⟨_, b, u, rfl, ⟨r, s, rfl, hp⟩, hf⟩ | ⟨⟨r, s, rfl, hp⟩, rfl⟩)
      · exact ⟨r, s ++ u, rfl, .inl ⟨s, b, u, rfl, hp, hf⟩⟩
      · exact ⟨r, s, rfl, .inr ⟨hp, rfl⟩⟩

theorem runs_bind_pure {p : Program ι α} {g : α → β} {t : List (Exchange ι)} {o : Option β} :
    (p >>= fun a => pure (g a)).Runs t o ↔ ∃ r, p.Runs t r ∧ o = r.map g := by
  rw [runs_bind]
  constructor
  · rintro (⟨s, a, u, rfl, hp, rfl, rfl⟩ | ⟨hp, rfl⟩)
    · exact ⟨some a, by rwa [List.append_nil], rfl⟩
    · exact ⟨none, hp, rfl⟩
  · rintro ⟨_ | a, hp, rfl⟩
    · exact .inr ⟨hp, rfl⟩
    · exact .inl ⟨t, a, [], (List.append_nil t).symm, hp, rfl, rfl⟩

theorem runs_play (w : World ι) (p : Program ι α) (past : List (Exchange ι)) :
    ∃ t, (p.play w past).2 = past ++ t ∧ p.Runs t (p.play w past).1 := by
  induction p generalizing past with
  | done a => exact ⟨[], by simp [play], rfl, rfl⟩
  | stop => exact ⟨[], by simp [play], rfl, rfl⟩
  | ask a next ih =>
    obtain ⟨t, hpast, hruns⟩ := ih (w past a) (past ++ [⟨a, w past a⟩])
    exact ⟨⟨a, w past a⟩ :: t, by simp [play, hpast], w past a, t, rfl, hruns⟩

def Settled : Program ι α → Prop
  | .done _ => True
  | .stop => True
  | .ask a next => a.isOpening = false ∧ ∀ r, (next r).Settled

theorem Settled.bind {p : Program ι α} {f : α → Program ι β} (hp : p.Settled)
    (hf : ∀ a, (f a).Settled) : (p >>= f).Settled := by
  induction p with
  | done a => exact hf a
  | stop => trivial
  | ask a next ih => exact ⟨hp.1, fun r => ih r (hp.2 r)⟩

theorem Settled.openings {p : Program ι α} (hp : p.Settled) {t : List (Exchange ι)} {o : Option α}
    (h : p.Runs t o) : openings t = 0 := by
  induction p generalizing t with
  | done a =>
    obtain ⟨rfl, -⟩ := h
    rfl
  | stop =>
    obtain ⟨rfl, -⟩ := h
    rfl
  | ask a next ih =>
    obtain ⟨r, t, rfl, h⟩ := h
    rw [Rollout.openings, List.countP_cons_of_neg (by simp [hp.1]), ← Rollout.openings]
    exact ih r (hp.2 r) h

theorem settled_pure (a : α) : (pure a : Program ι α).Settled := trivial

theorem settled_call {a : Ask ι} {back : a.Reply → Option α} (ha : a.isOpening = false) :
    (call a back).Settled := by
  refine ⟨ha, fun r => ?_⟩
  dsimp only
  split <;> trivial

theorem settled_note {level : Level} {message : String} {fields : List (String × String)}
    (h : "Connecting to ".toList.isPrefixOf message.toList = false) :
    (Stage.note ⟨level, message, fields⟩ : Program ι Unit).Settled :=
  ⟨h, fun _ => trivial⟩

end Program

open Program

section Settled

variable {files : FileSystem} {operator : Operator} {c : Connection ι} {s : Deployer.Settings}
  {job : Job}

namespace Credential

theorem Provider.settled_attempt (p : Provider) :
    (p.attempt files operator : Program ι Outcome).Settled := by
  rw [attempt]
  cases p.outcome files operator with
  | accepted identity => exact settled_pure _
  | skipped why =>
    cases why with
    | keyUnreadable path fault => exact (settled_note rfl).bind fun _ => settled_pure _
    | _ => exact settled_pure _

theorem Chain.settled_collect (providers : List Provider) :
    (collect files operator providers : Program ι (List Resolved)).Settled := by
  induction providers with
  | nil => exact settled_pure _
  | cons p rest ih =>
    rw [collect]
    apply p.settled_attempt.bind
    intro found
    cases found with
    | skipped why => exact (settled_note (by simp [List.isPrefixOf])).bind fun _ => ih
    | accepted identity =>
      apply (settled_note (by simp [List.isPrefixOf])).bind
      intro _
      split
      · exact ih.bind fun _ => settled_pure _
      · exact settled_pure _

theorem Chain.settled_resolve (chain : Chain) :
    (chain.resolve files operator : Program ι (List Resolved)).Settled :=
  (settled_note (by decide)).bind fun _ => settled_collect chain.providers

end Credential

namespace Connection

theorem settled_checkHostKeyPolicy (target : Target) :
    (checkHostKeyPolicy target : Program ι (Except Error Unit)).Settled := by
  rw [checkHostKeyPolicy]
  split
  · exact (settled_note (by simp [List.isPrefixOf])).bind fun _ => settled_pure _
  · exact settled_pure _

theorem settled_noteRejected (identities : List Credential.Resolved) :
    (noteRejected identities : Program ι Unit).Settled := by
  induction identities with
  | nil => exact settled_pure _
  | cons r rest ih => exact (settled_note (by simp [List.isPrefixOf])).bind fun _ => ih

theorem settled_execute (command : String) : (c.execute transport command).Settled := by
  apply (settled_note (by simp [List.isPrefixOf])).bind
  intro _
  apply (settled_call rfl).bind
  intro reply
  cases reply with
  | error failure => exact settled_pure _
  | ok result => exact (settled_note (by decide)).bind fun _ => settled_pure _

theorem settled_upload (source : Path) (destination : String) :
    (c.upload transport source destination).Settled := by
  apply (settled_note (by simp [List.isPrefixOf])).bind
  intro _
  apply (settled_call rfl).bind
  intro reply
  cases reply with
  | error failure => exact settled_pure _
  | ok bytes => exact (settled_note (by decide)).bind fun _ => settled_pure _

theorem openings_establish {polling : Polling} {target : Target} {chain : Credential.Chain}
    {t : List (Exchange ι)} {o : Option (Except Error (Connection ι))}
    (h : (establish transport files operator polling target chain).Runs t o) :
    openings t = 1 := by
  obtain ⟨r, t, rfl, h⟩ := h
  rw [openings, List.countP_cons_of_pos (by simp [Ask.isOpening, Event.isOpening, List.isPrefixOf]),
    ← openings]
  apply congrArg (· + 1)
  refine Settled.openings ?_ h
  apply (settled_checkHostKeyPolicy target).bind
  intro checked
  cases checked with
  | error e => exact settled_pure _
  | ok u =>
    apply (Credential.Chain.settled_resolve chain).bind
    intro identities
    dsimp only
    split
    · exact (settled_note (by decide)).bind fun _ => settled_pure _
    · split
      · exact settled_pure _
      · apply (settled_call rfl).bind
        intro reply
        rcases reply with failure | session
        · cases failure with
          | authRejected user => exact (settled_noteRejected identities).bind fun _ => settled_pure _
          | _ => exact settled_pure _
        · exact (settled_note (by simp [List.isPrefixOf])).bind fun _ => settled_pure _

end Connection

theorem Lockout.settled_acquire (l : Lockout) (request : Lock.Request) :
    (l.acquire transport c request).Settled := by
  apply (Connection.settled_execute _).bind
  intro reply
  cases reply with
  | error e => exact settled_pure _
  | ok result =>
    dsimp only
    split
    · exact (settled_note (by decide)).bind fun _ => settled_pure _
    · exact (settled_note (by decide)).bind fun _ => settled_pure _

namespace Deployer

theorem settled_perform (step : Step) : (s.deployer.perform c job step).Settled := by
  cases step with
  | lockCheck request =>
    apply (Lockout.settled_acquire s.lockout request).bind
    intro answer
    rcases answer with (_ | _) | _ <;> exact settled_pure _
  | clean directory command =>
    apply (Connection.settled_execute command).bind
    intro reply
    cases reply with
    | error e => exact settled_pure _
    | ok result =>
      dsimp only
      split
      · exact settled_pure _
      · exact (settled_note (by decide)).bind fun _ => settled_pure _
  | transfer source destination =>
    exact (Connection.settled_upload source destination).bind fun _ => settled_pure _
  | relink directory command =>
    apply (Connection.settled_execute command).bind
    intro reply
    cases reply with
    | error e => exact settled_pure _
    | ok result =>
      dsimp only
      split <;> exact settled_pure _

theorem settled_performAll (steps : List Step) (report : Report) :
    (s.deployer.performAll c job report steps).Settled := by
  induction steps generalizing report with
  | nil => exact settled_pure _
  | cons step rest ih =>
    apply (settled_note (by simp [List.isPrefixOf])).bind
    intro _
    apply (settled_perform step).bind
    intro r
    cases r with
    | error e => exact settled_pure _
    | ok bytes => exact ih _

theorem settled_runOn : (s.deployer.runOn c job).Settled := by
  rw [runOn]
  cases job.validate with
  | error e => exact settled_pure _
  | ok u =>
    apply (settled_note (by decide)).bind
    intro _
    apply (settled_performAll _ _).bind
    intro r
    cases r with
    | error e => exact settled_pure _
    | ok report => exact (settled_note (by decide)).bind fun _ => settled_pure _

end Deployer

end Settled

/-- A job that was taken up, and all that happened until the next one was. -/
structure Leg (ι : Type) where
  entry : Batch.Entry
  found : Option (Connection ι)
  trace : List (Exchange ι)
  result : Option (Except DeployError Report)

namespace Leg

def turn (l : Leg ι) : Turn ι := ⟨l.entry, l.found, calls l.trace, l.result⟩

def isValid (l : Leg ι) : Bool := l.turn.isValid

def broke (l : Leg ι) : Bool := l.turn.broke

def outcome (l : Leg ι) : Option (Nat × Outcome) := l.turn.outcome

end Leg

def complaint (job : Job) : Except DeployError Report → List (Exchange ι)
  | .ok _ => []
  | .error e =>
    [⟨.note ⟨.warn, "Deploy failed", [("job", job.name), ("error", e.message)]⟩, ()⟩]

/-- How a group goes: each job is run over the session that it finds, and leaves one to the next. -/
inductive Relay (s : Deployer.Settings) :
    Option (Connection ι) → List Batch.Entry → List (Leg ι) → Prop
  | done {slot} : Relay s slot [] []
  | next {slot entry t result left rest legs} :
      (s.deployer.runShared slot entry.2).Runs t (some (result, left)) → Relay s left rest legs →
      Relay s slot (entry :: rest) (⟨entry, slot, t ++ complaint entry.2 result, some result⟩ :: legs)
  | lost {slot entry t rest} : (s.deployer.runShared slot entry.2).Runs t none →
      Relay s slot (entry :: rest) [⟨entry, slot, t, none⟩]

section Legs

variable {s : Deployer.Settings} {slot : Option (Connection ι)} {job : Job} {t : List (Exchange ι)}
  {group : List Batch.Entry}

theorem openings_append (t u : List (Exchange ι)) : openings (t ++ u) = openings t + openings u :=
  List.countP_append

theorem Program.openings_bind {p : Program ι α} {f : α → Program ι β} {n : Nat}
    (hp : ∀ {t o}, p.Runs t o → openings t = n) (hf : ∀ a, (f a).Settled) {o : Option β}
    (h : (p >>= f).Runs t o) : openings t = n := by
  obtain ⟨t, a, u, rfl, hrun, hrest⟩ | ⟨hrun, -⟩ := runs_bind.mp h
  · rw [openings_append, hp hrun, (hf a).openings hrest, Nat.add_zero]
  · exact hp hrun

theorem Deployer.openings_runShared
    {o : Option (Except DeployError Report × Option (Connection ι))}
    (h : (s.deployer.runShared slot job).Runs t o) :
    openings t = if job.validate matches .ok () ∧ slot = none then 1 else 0 := by
  rw [runShared] at h
  cases hvalid : job.validate with
  | error e =>
    rw [hvalid] at h
    obtain ⟨rfl, -⟩ := h
    simp [openings]
  | ok u =>
    rw [hvalid] at h
    cases slot with
    | some c =>
      have hnone := (settled_runOn.bind fun _ => settled_pure _).openings h
      simpa using hnone
    | none =>
      have hone : openings t = 1 := by
        refine openings_bind (fun hopen => ?_) (fun opened => ?_) h
        · exact openings_bind Connection.openings_establish (fun _ => settled_pure _) hopen
        · cases opened with
          | error e => exact settled_pure _
          | ok c => exact settled_runOn.bind fun _ => settled_pure _
      simpa using hone

theorem calls_complaint (job : Job) (result : Except DeployError Report) :
    calls (complaint job result : List (Exchange ι)) = [] := by
  cases result <;> rfl

theorem openings_complaint (job : Job) (result : Except DeployError Report) :
    openings (complaint job result : List (Exchange ι)) = 0 := by
  cases result with
  | ok report => rfl
  | error e => simp [openings, complaint, Ask.isOpening, Event.isOpening, List.isPrefixOf]

theorem Relay.shift {legs : List (Leg ι)} (h : Relay s slot group legs) :
    Shift s slot group (legs.map Leg.turn) := by
  induction h with
  | done => exact .done
  | @next _ entry t result left rest legs hrun _ ih =>
    rw [List.map_cons, Leg.turn, calls_append, calls_complaint, List.append_nil]
    exact .next (Deployer.shares_of_does_runShared ⟨_, hrun, rfl⟩) ih
  | lost hrun => exact .lost (Deployer.shares_of_does_runShared ⟨_, hrun, rfl⟩)

theorem Relay.openings {legs : List (Leg ι)} (h : Relay s slot group legs) :
    ∀ l ∈ legs, openings l.trace = if l.isValid ∧ l.found = none then 1 else 0 := by
  induction h with
  | done => simp
  | @next _ entry t result left rest legs hrun _ ih =>
    refine List.forall_mem_cons.mpr ⟨?_, ih⟩
    rw [openings_append, openings_complaint, Deployer.openings_runShared hrun]
    rfl
  | lost hrun =>
    refine List.forall_mem_singleton.mpr ?_
    exact Deployer.openings_runShared hrun

theorem relay_of_runs_runGroup {o : Option (List (Nat × Outcome))}
    (h : (s.deployer.runGroup slot group).Runs t o) :
    ∃ legs, Relay s slot group legs ∧ t = legs.flatMap Leg.trace ∧ o = legs.mapM Leg.outcome := by
  induction group generalizing slot t o with
  | nil =>
    obtain ⟨rfl, rfl⟩ := h
    exact ⟨[], .done, rfl, rfl⟩
  | cons entry rest ih =>
    rw [Deployer.runGroup] at h
    obtain ⟨t, ⟨result, left⟩, u, rfl, hrun, hrest⟩ | ⟨hrun, rfl⟩ := runs_bind.mp h
    · obtain ⟨v, r, rfl, hr, rfl⟩ : ∃ v r, u = complaint entry.2 result ++ v ∧
          (s.deployer.runGroup left rest).Runs v r ∧
          o = r.map ((entry.1, ⟨entry.2.name, result⟩) :: ·) := by
        cases result with
        | ok report =>
          obtain ⟨r, hr, ho⟩ := runs_bind_pure.mp hrest
          exact ⟨u, r, rfl, hr, ho⟩
        | error e =>
          obtain ⟨_, v, rfl, hv⟩ := hrest
          obtain ⟨r, hr, ho⟩ := runs_bind_pure.mp hv
          exact ⟨v, r, rfl, hr, ho⟩
      obtain ⟨legs, hlegs, rfl, rfl⟩ := ih hr
      refine ⟨_, .next hrun hlegs, by simp, ?_⟩
      rw [List.mapM_cons]
      cases legs.mapM Leg.outcome <;> rfl
    · exact ⟨_, .lost hrun, by simp, rfl⟩

end Legs

namespace Exchange

def session? : Exchange ι → Option ι
  | ⟨.exec _ session _, _⟩ => some session
  | ⟨.upload session _ _, _⟩ => some session
  | _ => none

def isBroken : Exchange ι → Bool
  | ⟨.exec .., some (.error _)⟩ => true
  | ⟨.upload .., some (.error _)⟩ => true
  | _ => false

theorem handOver_of_isBroken {held : Option (Held ι)} {x : Exchange ι} (h : x.isBroken = true) :
    handOver held x = none := by
  obtain ⟨a, r⟩ := x
  cases a with
  | note e => cases h
  | turn => cases h
  | connect request => cases h
  | exec polling session command =>
    rcases r with _ | _ | _
    · rfl
    · rfl
    · cases h
  | upload session source destination =>
    rcases r with _ | _ | _
    · rfl
    · rfl
    · cases h

theorem Permitted.session? {held : Option (Held ι)} {x : Exchange ι} {session : ι}
    (h : Permitted held x) (hx : x.session? = some session) :
    held.map (·.session) = some session := by
  obtain ⟨a, r⟩ := x
  cases a <;> cases hx <;> exact h

end Exchange

theorem Custody.reopened {held : Option (Held ι)} {before between after : List (Exchange ι)}
    {x y : Exchange ι} {session : ι} (h : Custody held (before ++ x :: (between ++ y :: after)))
    (hx : x.isBroken = true) (hy : y.session? = some session) :
    ∃ request, ⟨.connect request, some (.ok session)⟩ ∈ between := by
  obtain ⟨-, -, hrest⟩ := custody_append.mp h
  rw [Exchange.handOver_of_isBroken hx] at hrest
  obtain ⟨-, hpermitted, -⟩ := custody_append.mp hrest
  obtain ⟨h, hhand, rfl⟩ := Option.map_eq_some_iff.mp (hpermitted.session? hy)
  exact ⟨h.request, connect_of_hand hhand⟩

theorem Shift.found_eq_none_iff {s : Deployer.Settings} {group : List Batch.Entry}
    {earlier later : List (Turn ι)} {turn : Turn ι}
    (h : Shift s none group (earlier ++ turn :: later)) :
    turn.found = none ↔ ∀ last ∈ (earlier.filter Turn.isValid).getLast?, last.broke := by
  rw [← Option.isNone_iff_eq_none, ← Option.isSome_eq_false_iff, h.found_isSome]
  cases (earlier.filter Turn.isValid).getLast? <;> simp

theorem flatMap_calls_turn (legs : List (Leg ι)) :
    (legs.map Leg.turn).flatMap Turn.calls = calls (legs.flatMap Leg.trace) := by
  induction legs with
  | nil => rfl
  | cons l legs ih =>
    rw [List.map_cons, List.flatMap_cons, List.flatMap_cons, calls_append, ih]
    rfl

/-- In any world, a job of a group opens a connection just when it is valid and no session is left to
it: none of the jobs before it was valid, or the last valid one lost its connection or got none. No
more than one session is in hand at any time, it is kept until a call on it fails, and what is called
on later was opened later. -/
theorem Deployer.runGroup_sessions (s : Settings) (w : World ι) (past : List (Exchange ι))
    (group : List Batch.Entry) :
    ∃ legs : List (Leg ι),
      (s.deployer.runGroup none group).play w past =
        (legs.mapM Leg.outcome, past ++ legs.flatMap Leg.trace) ∧
      Relay s none group legs ∧
      (∀ earlier leg later, legs = earlier ++ leg :: later →
        (openings leg.trace = if leg.isValid ∧
          ∀ last ∈ (earlier.filter Leg.isValid).getLast?, last.broke then 1 else 0) ∧
        Kept (hand none (earlier.flatMap Leg.trace))
          (hand none ((earlier ++ [leg]).flatMap Leg.trace)) leg.result) ∧
      Custody none (legs.flatMap Leg.trace) ∧
      ∀ before x between y after session,
        legs.flatMap Leg.trace = before ++ x :: (between ++ y :: after) → x.isBroken →
        y.session? = some session →
        ∃ request, ⟨.connect request, some (.ok session)⟩ ∈ between := by
  obtain ⟨t, ht, hruns⟩ := runs_play w (s.deployer.runGroup none group) past
  obtain ⟨legs, hrelay, rfl, houtcome⟩ := relay_of_runs_runGroup hruns
  have hshift := hrelay.shift
  have hcustody : Custody none (legs.flatMap Leg.trace) := by
    rw [← custody_calls, ← flatMap_calls_turn]
    exact hshift.custody rfl
  refine ⟨legs, Prod.ext houtcome ht, hrelay, ?_, hcustody, ?_⟩
  · rintro earlier leg later rfl
    rw [List.map_append, List.map_cons] at hshift
    constructor
    · rw [hrelay.openings leg (by simp)]
      have hfound := hshift.found_eq_none_iff
      have hvalid : (earlier.map Leg.turn).filter Turn.isValid =
          (earlier.filter Leg.isValid).map Leg.turn := List.filter_map
      rw [hvalid, List.getLast?_map] at hfound
      have hiff : leg.found = none ↔
          ∀ last ∈ (earlier.filter Leg.isValid).getLast?, last.broke := by
        refine hfound.trans ?_
        cases (earlier.filter Leg.isValid).getLast? <;> simp [Leg.broke]
      simp only [hiff]
    · have hkept := hshift.kept Shift.fit_none
      rw [← List.map_singleton (f := Leg.turn), ← List.map_append, flatMap_calls_turn,
        flatMap_calls_turn, hand_calls, hand_calls] at hkept
      exact hkept
  · rintro before x between y after session heq hx hy
    exact (heq ▸ hcustody).reopened hx hy

end Rollout
