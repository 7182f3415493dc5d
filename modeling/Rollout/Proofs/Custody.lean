import Rollout.Proofs.Shift

/-!
The session in hand. Jobs that share a session call on it alone, let go of it with the first call
that fails, and open another one only with empty hands.
-/

namespace Rollout

open Program

structure Held (ι : Type) where
  request : ConnectRequest
  session : ι

variable {ι : Type} {held : Option (Held ι)}

namespace Exchange

def handOver (held : Option (Held ι)) : Exchange ι → Option (Held ι)
  | ⟨.note _, _⟩ => held
  | ⟨.turn, _⟩ => held
  | ⟨.connect request, some (.ok session)⟩ => some ⟨request, session⟩
  | ⟨.connect _, _⟩ => none
  | ⟨.exec .., some (.ok _)⟩ => held
  | ⟨.exec .., _⟩ => none
  | ⟨.upload .., some (.ok _)⟩ => held
  | ⟨.upload .., _⟩ => none

def Permitted (held : Option (Held ι)) : Exchange ι → Prop
  | ⟨.note _, _⟩ => True
  | ⟨.turn, _⟩ => True
  | ⟨.connect _, _⟩ => held = none
  | ⟨.exec _ session _, _⟩ => held.map (·.session) = some session
  | ⟨.upload session _ _, _⟩ => held.map (·.session) = some session

theorem handOver_cases {x : Exchange ι} {h : Held ι} (hx : handOver held x = some h) :
    held = some h ∨ x = ⟨.connect h.request, some (.ok h.session)⟩ := by
  obtain ⟨a, r⟩ := x
  cases a with
  | note e => exact .inl hx
  | turn => exact .inl hx
  | connect request =>
    rcases r with _ | _ | session
    · cases hx
    · cases hx
    · cases hx
      exact .inr rfl
  | exec polling session command =>
    rcases r with _ | _ | _
    · cases hx
    · cases hx
    · exact .inl hx
  | upload session source destination =>
    rcases r with _ | _ | _
    · cases hx
    · cases hx
    · exact .inl hx

end Exchange

def hand (held : Option (Held ι)) (t : List (Exchange ι)) : Option (Held ι) :=
  t.foldl Exchange.handOver held

/-- At any time no more than one session is in hand, and all calls are made on it. -/
def Custody : Option (Held ι) → List (Exchange ι) → Prop
  | _, [] => True
  | held, x :: t => Exchange.Permitted held x ∧ Custody (Exchange.handOver held x) t

@[simp] theorem hand_nil : hand held [] = held := rfl

@[simp] theorem hand_cons (x : Exchange ι) (t : List (Exchange ι)) :
    hand held (x :: t) = hand (Exchange.handOver held x) t := rfl

@[simp] theorem hand_append (s t : List (Exchange ι)) :
    hand held (s ++ t) = hand (hand held s) t :=
  List.foldl_append

theorem custody_append {s t : List (Exchange ι)} :
    Custody held (s ++ t) ↔ Custody held s ∧ Custody (hand held s) t := by
  induction s generalizing held with
  | nil => simp [Custody]
  | cons x s ih => simp [Custody, ih, and_assoc]

theorem hand_calls (t : List (Exchange ι)) : hand held (calls t) = hand held t := by
  induction t generalizing held with
  | nil => rfl
  | cons x t ih =>
    obtain ⟨a, r⟩ := x
    rw [calls_cons]
    cases a <;> simp [Ask.isCall, Exchange.handOver, ih]

theorem custody_calls {t : List (Exchange ι)} : Custody held (calls t) ↔ Custody held t := by
  induction t generalizing held with
  | nil => rfl
  | cons x t ih =>
    obtain ⟨a, r⟩ := x
    rw [calls_cons]
    cases a <;> simp [Ask.isCall, Custody, Exchange.Permitted, Exchange.handOver, ih]

theorem connect_of_hand {t : List (Exchange ι)} {h : Held ι} (hhand : hand none t = some h) :
    ⟨.connect h.request, some (.ok h.session)⟩ ∈ t := by
  induction t using List.reverseRecOn with
  | nil => cases hhand
  | append_singleton t x ih =>
    rw [hand_append] at hhand
    rcases Exchange.handOver_cases hhand with hbefore | rfl
    · exact List.mem_append_left _ (ih hbefore)
    · exact List.mem_append_right _ (.head _)

def keptBy {α : Type} (held : Option (Held ι)) : Option (Except DeployError α) → Option (Held ι)
  | none => none
  | some (.error (.connection _)) => none
  | some _ => held

section Course

variable {l : Lockout} {c : Connection ι} {job : Job} {h : Held ι}

theorem Step.handOver_order (job : Job) (step : Step) (r : (step.order l c).Reply)
    (hsession : h.session = c.session) :
    Exchange.Permitted (some h) ⟨step.order l c, r⟩ ∧
      Exchange.handOver (some h) ⟨step.order l c, r⟩ = keptBy (some h) (step.verdict l c job r) ∧
      ∀ invalid, step.verdict l c job r ≠ some (.error (.invalidJob invalid)) := by
  cases step with
  | lockCheck request =>
    refine ⟨congrArg some hsession, ?_⟩
    rcases r with _ | _ | result
    · exact ⟨rfl, by simp [verdict]⟩
    · exact ⟨rfl, by simp [verdict]⟩
    · by_cases hexit : result.exitCode = 0 <;>
        simp [verdict, hexit, keptBy, Exchange.handOver, order]
  | clean directory command =>
    refine ⟨congrArg some hsession, ?_⟩
    rcases r with _ | _ | _ <;> exact ⟨rfl, by simp [verdict]⟩
  | transfer source destination =>
    refine ⟨congrArg some hsession, ?_⟩
    rcases r with _ | _ | _ <;> exact ⟨rfl, by simp [verdict]⟩
  | relink directory command =>
    refine ⟨congrArg some hsession, ?_⟩
    rcases r with _ | _ | result
    · exact ⟨rfl, by simp [verdict]⟩
    · exact ⟨rfl, by simp [verdict]⟩
    · by_cases hexit : result.exitCode = 0 <;>
        simp [verdict, hexit, keptBy, Exchange.handOver, order]

theorem Course.custody {steps : List Step} {cs : List (Exchange ι)}
    {o : Option (Except DeployError Nat)} (hcourse : Course l c job steps cs o)
    (hsession : h.session = c.session) :
    Custody (some h) cs ∧ hand (some h) cs = keptBy (some h) o ∧
      ∀ invalid, o ≠ some (.error (.invalidJob invalid)) := by
  induction hcourse with
  | done => exact ⟨trivial, rfl, by simp⟩
  | @pass step r n rest cs o hr _ ih =>
    obtain ⟨hpermitted, hover, -⟩ := step.handOver_order job r hsession
    obtain ⟨hcustody, hhand, hvalid⟩ := ih
    rw [hr] at hover
    refine ⟨⟨hpermitted, hover ▸ hcustody⟩, ?_⟩
    rw [hand_cons, hover]
    refine ⟨hhand.trans ?_, fun invalid ho => ?_⟩
    · rcases o with _ | (_ | _) | _ <;> rfl
    · rcases o with _ | e | _ <;> cases ho
      exact hvalid invalid rfl
  | @fail step r e rest hr =>
    obtain ⟨hpermitted, hover, hvalid⟩ := step.handOver_order job r hsession
    exact ⟨⟨hpermitted, trivial⟩, hr ▸ hover, hr ▸ hvalid⟩
  | @lost step r rest hr =>
    obtain ⟨hpermitted, hover, -⟩ := step.handOver_order job r hsession
    exact ⟨⟨hpermitted, trivial⟩, hr ▸ hover, by simp⟩

end Course

/-- What becomes of the session in hand when a job ends. It is lost with the connection, and one
that was opened for the job is kept like one that was there. -/
def Kept (before after : Option (Held ι)) : Option (Except DeployError Report) → Prop
  | none => after = none
  | some (.error (.connection _)) => after = none
  | some (.error (.invalidJob _)) => after = before
  | some _ => after.isSome ∧ ∀ h ∈ before, after = some h

section Shares

variable {s : Deployer.Settings} {c : Connection ι} {job : Job} {cs : List (Exchange ι)}
  {slot : Option (Connection ι)}

theorem Deployer.custody_runOn (h : Held ι) (before : Option (Held ι))
    {r : Option (Except DeployError Report)} (hvalid : job.validate = .ok ())
    (hrun : (s.deployer.runOn c job).Does cs r) (hsession : h.session = c.session)
    (hbefore : ∀ h' ∈ before, h' = h) :
    Custody (some h) cs ∧ Kept before (hand (some h) cs) r ∧
      (hand (some h) cs).map (·.session) = (r.bind c.left).map (·.session) := by
  obtain ⟨o, hcourse, rfl⟩ := (does_runOn hvalid).mp hrun
  obtain ⟨hcustody, hhand, hinvalid⟩ := hcourse.custody hsession
  refine ⟨hcustody, ?_⟩
  rw [hhand]
  have hkept : (some h).isSome ∧ ∀ h' ∈ before, some h = some h' :=
    ⟨rfl, fun h' hh => congrArg some (hbefore h' hh).symm⟩
  rcases o with _ | e | bytes
  · exact ⟨rfl, rfl⟩
  · cases e with
    | connection error => exact ⟨rfl, rfl⟩
    | invalidJob invalid => exact absurd rfl (hinvalid invalid)
    | lockBusy => exact ⟨hkept, congrArg some hsession⟩
    | relinkFailed => exact ⟨hkept, congrArg some hsession⟩
    | workerStopped => exact ⟨hkept, congrArg some hsession⟩
  · exact ⟨hkept, congrArg some hsession⟩

def Gained (cs : List (Exchange ι)) : Option (Except DeployError (Connection ι)) → Prop
  | some (.ok c) => ∃ request, cs = [⟨.connect request, some (.ok c.session)⟩]
  | _ => hand none cs = none

theorem Deployer.custody_connect {o : Option (Except DeployError (Connection ι))}
    (h : (s.deployer.connect job).Does cs o) : Custody none cs ∧ Gained cs o := by
  rw [does_connect] at h
  cases hvet : Connection.vet s.files s.operator job.target job.credentials with
  | error e =>
    rw [hvet] at h
    obtain ⟨rfl, rfl⟩ := h
    exact ⟨trivial, rfl⟩
  | ok request =>
    rw [hvet] at h
    obtain ⟨r, rfl, rfl⟩ := h
    refine ⟨⟨rfl, trivial⟩, ?_⟩
    rcases r with _ | _ | session
    · rfl
    · rfl
    · exact ⟨request, rfl⟩

theorem Shares.custody {o : Option (Except DeployError Report × Option (Connection ι))}
    (h : Shares s slot job cs o) (hfit : held.map (·.session) = slot.map (·.session)) :
    Custody held cs ∧ Kept held (hand held cs) (o.map (·.1)) ∧
      (hand held cs).map (·.session) = (o.bind (·.2)).map (·.session) := by
  cases h with
  | invalid hvalid => exact ⟨trivial, rfl, hfit⟩
  | refused _ hslot hopen =>
    subst hslot
    obtain rfl : held = none := by simpa using hfit
    obtain ⟨hcustody, hhand⟩ := Deployer.custody_connect hopen
    exact ⟨hcustody, hhand, congrArg _ hhand⟩
  | adrift _ hslot hopen =>
    subst hslot
    obtain rfl : held = none := by simpa using hfit
    obtain ⟨hcustody, hhand⟩ := Deployer.custody_connect hopen
    exact ⟨hcustody, hhand, congrArg _ hhand⟩
  | @opened cs cs' c r hvalid hslot hopen hrun =>
    subst hslot
    obtain rfl : held = none := by simpa using hfit
    obtain ⟨-, request, rfl⟩ := Deployer.custody_connect hopen
    obtain ⟨hcustody, hkept, hleft⟩ :=
      Deployer.custody_runOn ⟨request, c.session⟩ none hvalid hrun rfl (by simp)
    refine ⟨⟨rfl, hcustody⟩, ?_, ?_⟩
    · rcases r with _ | _ | _ <;> exact hkept
    · refine hleft.trans ?_
      rcases r with _ | _ | _ <;> rfl
  | @reused cs c r hvalid hslot hrun =>
    subst hslot
    obtain ⟨h, rfl, hsession⟩ := Option.map_eq_some_iff.mp hfit
    obtain ⟨hcustody, hkept, hleft⟩ := Deployer.custody_runOn h (some h) hvalid hrun hsession
      fun _ hh => (Option.some.inj hh).symm
    refine ⟨hcustody, ?_, ?_⟩
    · rcases r with _ | _ | _ <;> exact hkept
    · rw [hleft]
      rcases r with _ | _ | _ <;> rfl

end Shares

namespace Shift

variable {s : Deployer.Settings} {slot : Option (Connection ι)} {group : List Batch.Entry}
  {turns earlier later : List (Turn ι)} {turn : Turn ι}

theorem fit_none : (none : Option (Held ι)).map (·.session) =
    (none : Option (Connection ι)).map (·.session) := rfl

theorem custody (h : Shift s slot group turns)
    (hfit : held.map (·.session) = slot.map (·.session)) :
    Custody held (turns.flatMap Turn.calls) := by
  induction h generalizing held with
  | done => trivial
  | next hshares _ ih =>
    obtain ⟨hcustody, -, hleft⟩ := hshares.custody hfit
    exact custody_append.mpr ⟨hcustody, ih hleft⟩
  | lost hshares => exact custody_append.mpr ⟨(hshares.custody hfit).1, trivial⟩

theorem hand_found (h : Shift s slot group (earlier ++ turn :: later))
    (hfit : held.map (·.session) = slot.map (·.session)) :
    (hand held (earlier.flatMap Turn.calls)).map (·.session) = turn.found.map (·.session) := by
  generalize hturns : earlier ++ turn :: later = turns at h
  induction h generalizing earlier held with
  | done => simp at hturns
  | next hshares _ ih =>
    cases earlier with
    | nil =>
      obtain ⟨rfl, -⟩ := List.cons.inj hturns
      exact hfit
    | cons t earlier =>
      obtain ⟨rfl, hrest⟩ := List.cons.inj hturns
      rw [List.flatMap_cons, hand_append]
      exact ih (hshares.custody hfit).2.2 hrest
  | lost hshares =>
    obtain ⟨rfl, hturn⟩ := (List.append_eq_singleton_iff.mp hturns).resolve_right (by simp)
    obtain ⟨rfl, -⟩ := List.cons.inj hturn
    exact hfit

theorem kept (h : Shift s slot group (earlier ++ turn :: later))
    (hfit : held.map (·.session) = slot.map (·.session)) :
    Kept (hand held (earlier.flatMap Turn.calls))
      (hand held ((earlier ++ [turn]).flatMap Turn.calls)) turn.result := by
  obtain ⟨o, hshares, hresult⟩ := h.shares
  rw [List.flatMap_append, hand_append, List.flatMap_singleton, hresult]
  exact (hshares.custody (h.hand_found hfit)).2.1

end Shift

end Rollout
