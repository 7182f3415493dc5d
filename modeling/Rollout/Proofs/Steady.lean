import Rollout.Proofs.Course

/-!
Remote hosts that answer the same request in the same way, whenever it is made and on whatever
session to them. Over any two sessions to the same target a job takes the same course.
-/

namespace Rollout

open Program

variable {ι : Type}

inductive Order
  | command (text : String)
  | upload (source : Path) (destination : String)

/-- Remote hosts whose answers go by the request alone; of a session only the target counts. -/
structure Steady (ι : Type) where
  target : ι → Target
  opens : ConnectRequest → Except Failure Unit
  exec : Target → (command : String) → Except Failure CommandResult
  upload : Target → (source : Path) → (destination : String) → Except Failure Nat

namespace Steady

variable (h : Steady ι)

def Gives : Exchange ι → Prop
  | ⟨.note _, _⟩ => True
  | ⟨.turn, _⟩ => True
  | ⟨.connect request, r⟩ =>
    ∃ answer, r = some answer ∧ answer.map h.target = (h.opens request).map fun _ => request.target
  | ⟨.exec _ session command, r⟩ => r = some (h.exec (h.target session) command)
  | ⟨.upload session source destination, r⟩ =>
    r = some (h.upload (h.target session) source destination)

def record (key : Target.Key) : Exchange ι → Option Order
  | ⟨.note _, _⟩ => none
  | ⟨.turn, _⟩ => none
  | ⟨.connect _, _⟩ => none
  | ⟨.exec _ session command, _⟩ =>
    if (h.target session).key = key then some (.command command) else none
  | ⟨.upload session source destination, _⟩ =>
    if (h.target session).key = key then some (.upload source destination) else none

def recorded (key : Target.Key) (t : List (Exchange ι)) : List Order := t.filterMap (h.record key)

@[simp] theorem recorded_append (key : Target.Key) (t u : List (Exchange ι)) :
    h.recorded key (t ++ u) = h.recorded key t ++ h.recorded key u :=
  List.filterMap_append

theorem recorded_cons (key : Target.Key) (x : Exchange ι) (t : List (Exchange ι)) :
    h.recorded key (x :: t) = (h.record key x).toList ++ h.recorded key t := by
  cases hx : h.record key x <;> simp [recorded, hx]

theorem recorded_calls (key : Target.Key) (t : List (Exchange ι)) :
    h.recorded key (calls t) = h.recorded key t := by
  induction t with
  | nil => rfl
  | cons x t ih =>
    rw [calls_cons, recorded_cons]
    obtain ⟨_ | _ | _ | _ | _, r⟩ := x <;> simp [Ask.isCall, recorded_cons, record, ih]

def At (c : Connection ι) (target : Target) : Prop := c.target = target ∧ h.target c.session = target

end Steady

def Step.toOrder (l : Lockout) : Step → Order
  | .lockCheck request => .command (l.commandFor request)
  | .clean _ command => .command command
  | .transfer source destination => .upload source destination
  | .relink _ command => .command command

section Course

variable {h : Steady ι} {l : Lockout} {c c' : Connection ι} {target : Target} {job : Job}

theorem Step.record_order (hc : h.At c target) (key : Target.Key) (step : Step)
    (r : (step.order l c).Reply) :
    h.record key ⟨step.order l c, r⟩ = if target.key = key then some (step.toOrder l) else none := by
  cases step <;> simp [order, Steady.record, hc.2, toOrder]

theorem Step.verdict_congr (hc : h.At c target) (hc' : h.At c' target) {step : Step}
    {r : (step.order l c).Reply} {r' : (step.order l c').Reply} (hr : h.Gives ⟨step.order l c, r⟩)
    (hr' : h.Gives ⟨step.order l c', r'⟩) :
    step.verdict l c job r = step.verdict l c' job r' ∧ step.verdict l c job r ≠ none := by
  obtain ⟨hc, hs⟩ := hc
  obtain ⟨hc', hs'⟩ := hc'
  cases step <;>
  · obtain rfl : r = _ := hr
    obtain rfl : r' = _ := hr'
    simp [verdict, hc, hc', hs, hs']

theorem Course.agree {steps : List Step} {cs cs' : List (Exchange ι)}
    {o o' : Option (Except DeployError Nat)} (hc : h.At c target) (hc' : h.At c' target)
    (hcourse : Course l c job steps cs o) (hcourse' : Course l c' job steps cs' o')
    (hcs : ∀ x ∈ cs, h.Gives x) (hcs' : ∀ x ∈ cs', h.Gives x) :
    o = o' ∧ o ≠ none ∧ ∀ key, h.recorded key cs = h.recorded key cs' := by
  have record_congr {step : Step} (r : (step.order l c).Reply) (r' : (step.order l c').Reply)
      (key : Target.Key) : h.record key ⟨_, r⟩ = h.record key ⟨_, r'⟩ :=
    (Step.record_order hc key step r).trans (Step.record_order hc' key step r').symm
  have verdict_congr {step : Step} {r : (step.order l c).Reply} {r' : (step.order l c').Reply}
      (hr : h.Gives ⟨_, r⟩) (hr' : h.Gives ⟨_, r'⟩) :
      step.verdict l c job r = step.verdict l c' job r' :=
    (Step.verdict_congr hc hc' hr hr').1
  -- the answers to the first step say the same, so that both courses go on with the same rule
  induction hcourse generalizing cs' o' with
  | done =>
    cases hcourse'
    exact ⟨rfl, by simp, fun _ => rfl⟩
  | pass hv _ ih =>
    obtain ⟨hr, hrest⟩ := List.forall_mem_cons.mp hcs
    cases hcourse' with
    | pass hv' hcourse' =>
      obtain ⟨hr', hrest'⟩ := List.forall_mem_cons.mp hcs'
      cases hv.symm.trans ((verdict_congr hr hr').trans hv')
      obtain ⟨rfl, hsome, hrec⟩ := ih hcourse' hrest hrest'
      refine ⟨rfl, by simpa [addBytes] using hsome, fun key => ?_⟩
      rw [h.recorded_cons, h.recorded_cons, record_congr, hrec]
    | fail hv' => cases hv.symm.trans ((verdict_congr hr (hcs' _ (.head _))).trans hv')
    | lost hv' => cases hv.symm.trans ((verdict_congr hr (hcs' _ (.head _))).trans hv')
  | fail hv =>
    have hr := hcs _ (.head _)
    cases hcourse' with
    | pass hv' => cases hv.symm.trans ((verdict_congr hr (hcs' _ (.head _))).trans hv')
    | fail hv' =>
      cases hv.symm.trans ((verdict_congr hr (hcs' _ (.head _))).trans hv')
      refine ⟨rfl, by simp, fun key => ?_⟩
      rw [h.recorded_cons, h.recorded_cons, record_congr]
    | lost hv' => cases hv.symm.trans ((verdict_congr hr (hcs' _ (.head _))).trans hv')
  | lost hv =>
    have hr := hcs _ (.head _)
    exact absurd hv (Step.verdict_congr hc hc hr hr).2

theorem Course.recorded_of_ne {steps : List Step} {cs : List (Exchange ι)}
    {o : Option (Except DeployError Nat)} (hc : h.At c target) (hcourse : Course l c job steps cs o)
    {key : Target.Key} (hkey : target.key ≠ key) : h.recorded key cs = [] := by
  induction hcourse with
  | done => rfl
  | pass _ _ ih => rw [h.recorded_cons, Step.record_order hc, if_neg hkey, ih]; rfl
  | fail _ => rw [h.recorded_cons, Step.record_order hc, if_neg hkey]; rfl
  | lost _ => rw [h.recorded_cons, Step.record_order hc, if_neg hkey]; rfl

end Course

theorem Steady.does_play {h : Steady ι} {w : World ι} (hw : ∀ past a, h.Gives ⟨a, w past a⟩)
    {α : Type} (p : Program ι α) :
    p.Does (calls (p.play w []).2) (p.play w []).1 ∧ ∀ x ∈ (p.play w []).2, h.Gives x := by
  obtain ⟨t, ht, hdoes, hmem⟩ := Program.does_play w p []
  rw [ht, List.nil_append]
  refine ⟨hdoes, fun x hx => ?_⟩
  obtain ⟨before, hx⟩ := hmem x hx
  exact (show x = ⟨x.1, w before x.1⟩ from Sigma.ext rfl (heq_of_eq hx)) ▸ hw before x.1

def Steady.obliging : Steady Target where
  target := id
  opens _ := .ok ()
  exec _ _ := .ok ⟨0, [], []⟩
  upload _ _ _ := .ok 10

theorem Steady.gives_obliging (past : List (Exchange Target)) (a : Ask Target) :
    Steady.obliging.Gives ⟨a, World.obliging past a⟩ := by
  cases a with
  | note _ => trivial
  | turn => trivial
  | connect request => exact ⟨.ok request.target, rfl, rfl⟩
  | exec _ _ _ => rfl
  | upload _ _ _ => rfl

end Rollout
