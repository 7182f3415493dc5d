import Mathlib.Data.List.Forall2
import Rollout.Batch
import Rollout.Inspect
import Rollout.Proofs.Chain
import Rollout.Rehearsal.World

/-!
Passphrases stay secret. A passphrase goes into the identities of connect requests and nowhere else:
two runs that differ in it alone come to the same and are told apart by nobody who does not look into
these requests.
-/

namespace Rollout

namespace Identity

def veiled : Identity → Identity
  | .keyFile path passphrase => .keyFile path (passphrase.map fun _ => "")
  | .agentSocket path => .agentSocket path
  | .platformAgent => .platformAgent

end Identity

namespace Credential

def Resolved.veiled (r : Resolved) : Resolved := { r with identity := r.identity.veiled }

def Outcome.veiled : Outcome → Outcome
  | .accepted identity => .accepted identity.veiled
  | .skipped why => .skipped why

end Credential

def ConnectRequest.veiled (r : ConnectRequest) : ConnectRequest :=
  { r with identities := r.identities.map (·.veiled) }

theorem ConnectRequest.veiled_congr {target : Target} {user : String} {verify : Bool}
    {identities identities' : List Credential.Resolved}
    (h : identities.map (·.veiled) = identities'.map (·.veiled)) :
    veiled ⟨target, user, identities, verify⟩ = veiled ⟨target, user, identities', verify⟩ := by
  simp only [veiled, h]

def Operator.entrusted (o : Operator) (passphrase : String) : Operator :=
  { o with passphrase := some passphrase }

namespace Inspect

theorem identity_veiled (i : Identity) : identity i.veiled = identity i := by
  cases i with
  | keyFile p passphrase => cases passphrase <;> rfl
  | agentSocket p => rfl
  | platformAgent => rfl

theorem resolved_veiled (r : Credential.Resolved) : resolved r.veiled = resolved r := by
  simp only [resolved, Credential.Resolved.veiled, identity_veiled]

theorem map_resolved_veiled (identities : List Credential.Resolved) :
    (identities.map (·.veiled)).map resolved = identities.map resolved := by
  simp [Function.comp_def, resolved_veiled]

theorem connectRequest_veiled (r : ConnectRequest) : connectRequest r.veiled = connectRequest r := by
  simp only [connectRequest, ConnectRequest.veiled, map_resolved_veiled]

end Inspect

namespace Credential

variable {m : Type → Type} [Stage m] [LawfulMonad m] (files : FileSystem) (operator : Operator)
  (a b : String)

namespace Provider

theorem loadKey_veiled (path : Path) :
    (loadKey files (operator.entrusted a) path).veiled =
      (loadKey files (operator.entrusted b) path).veiled := by
  unfold loadKey
  cases readKey files path with
  | error fault => rfl
  | ok text =>
    dsimp only
    cases keyFault? text.toList <;> rfl

theorem outcome_veiled (p : Provider) :
    (p.outcome files (operator.entrusted a)).veiled =
      (p.outcome files (operator.entrusted b)).veiled := by
  rw [outcome, outcome]
  cases p.source with
  | environmentKeyFile =>
    cases h : operator.identityFile with
    | none => simp [Operator.entrusted, h]
    | some path => simpa [Operator.entrusted, h] using loadKey_veiled files operator a b path
  | conventionalKeyFile key =>
    cases h : operator.home with
    | none => simp [Operator.entrusted, h]
    | some home => simpa [Operator.entrusted, h] using loadKey_veiled files operator a b _
  | agentSocket => rfl
  | platformAgent => rfl

theorem resolved?_veiled (p : Provider) :
    (p.resolved? files operator).map Resolved.veiled =
      match (p.outcome files operator).veiled with
      | .accepted identity => some ⟨p.name, identity⟩
      | .skipped _ => none := by
  rw [resolved?]
  cases p.outcome files operator <;> rfl

theorem resolved?_entrusted (p : Provider) :
    (p.resolved? files (operator.entrusted a)).map Resolved.veiled =
      (p.resolved? files (operator.entrusted b)).map Resolved.veiled := by
  rw [resolved?_veiled, resolved?_veiled, outcome_veiled files operator a b]

theorem ends_entrusted (p : Provider) :
    p.ends files (operator.entrusted a) = p.ends files (operator.entrusted b) := by
  have h := congrArg Option.isSome (resolved?_entrusted files operator a b p)
  rw [Option.isSome_map, Option.isSome_map] at h
  rw [ends, ends, h]

theorem visit_veiled (p : Provider) :
    (p.visit files operator : m Unit) =
      (outcomeEvent? (p.outcome files operator).veiled).forM Stage.note >>= fun _ =>
        Stage.info (p.verdict (p.outcome files operator).veiled) := by
  rw [visit, attempt_bind]
  cases p.outcome files operator <;> rfl

theorem visit_entrusted :
    (visit files (operator.entrusted a) : Provider → m Unit) =
      visit files (operator.entrusted b) := by
  funext p
  rw [visit_veiled, visit_veiled, outcome_veiled files operator a b]

end Provider

namespace Chain

theorem tried_entrusted (providers : List Provider) :
    tried files (operator.entrusted a) providers = tried files (operator.entrusted b) providers := by
  simp only [tried, Provider.ends_entrusted files operator a b]

theorem yield_entrusted (providers : List Provider) :
    (yield files (operator.entrusted a) providers).map Resolved.veiled =
      (yield files (operator.entrusted b) providers).map Resolved.veiled := by
  rw [yield_eq, yield_eq, List.map_filterMap, List.map_filterMap, tried_entrusted files operator a b]
  simp only [Provider.resolved?_entrusted files operator a b]

end Chain

end Credential

/-- A likeness of computations that is kept when one goes on after the other and when many go side by
side. -/
structure Likeness (m : Type → Type) [Stage m] where
  Alike {α : Type} : m α → m α → Prop
  refl {α : Type} (p : m α) : Alike p p
  bind {α β : Type} {p q : m α} {f g : α → m β} :
    Alike p q → (∀ a, Alike (f a) (g a)) → Alike (p >>= f) (q >>= g)
  gather {α : Type} {ps qs : List (m α)} :
    List.Forall₂ Alike ps qs → Alike (Stage.gather ps) (Stage.gather qs)

namespace Likeness

variable {m : Type → Type} [Stage m] {α β : Type}

def equality (m : Type → Type) [Stage m] : Likeness m where
  Alike := Eq
  refl _ := rfl
  bind h hf := by rw [h, funext hf]
  gather h := by
    rw [List.forall₂_eq_eq_eq] at h
    rw [h]

variable (l : Likeness m)

theorem bind_left (p : m α) {f g : α → m β} (h : ∀ a, l.Alike (f a) (g a)) :
    l.Alike (p >>= f) (p >>= g) :=
  l.bind (l.refl p) h

theorem bind_right {p q : m α} (h : l.Alike p q) (f : α → m β) : l.Alike (p >>= f) (q >>= f) :=
  l.bind h fun a => l.refl (f a)

/-- Connecting makes no difference between passphrases. -/
def Blind {ι : Type} (t : Transport m ι) : Prop :=
  ∀ r r' : ConnectRequest, r.veiled = r'.veiled → l.Alike (t.connect r) (t.connect r')

end Likeness

def Deployer.entrusted {m : Type → Type} {ι : Type} (d : Deployer m ι) (passphrase : String) :
    Deployer m ι :=
  { d with operator := d.operator.entrusted passphrase }

section Alike

variable {m : Type → Type} [Stage m] {ι α : Type} (l : Likeness m)
  {files : FileSystem} {operator : Operator} {d : Deployer m ι} {a b : String}

theorem Connection.noteRejected_veiled (identities : List Credential.Resolved) :
    (noteRejected (identities.map (·.veiled)) : m Unit) = noteRejected identities := by
  induction identities with
  | nil => rfl
  | cons r rest ih =>
    rw [List.map_cons, noteRejected, noteRejected, ih]
    rfl

theorem Deployer.perform_entrusted (c : Connection ι) (job : Job) (step : Step) :
    (d.entrusted a).perform c job step = d.perform c job step := by
  cases step <;> rfl

theorem Deployer.performAll_entrusted (c : Connection ι) (job : Job) (report : Report)
    (steps : List Step) :
    (d.entrusted a).performAll c job report steps = d.performAll c job report steps := by
  induction steps generalizing report with
  | nil => rfl
  | cons step rest ih => simp only [performAll, perform_entrusted, ih]

theorem Deployer.runOn_entrusted (c : Connection ι) (job : Job) :
    (d.entrusted a).runOn c job = d.runOn c job := by
  simp only [runOn, performAll_entrusted]

variable [LawfulMonad m]

theorem Credential.Chain.resolve_alike {f g : List Resolved → m α} (chain : Chain)
    (h : ∀ r r' : List Resolved, r.map Resolved.veiled = r'.map Resolved.veiled → l.Alike (f r) (g r')) :
    l.Alike (chain.resolve files (operator.entrusted a) >>= f)
      (chain.resolve files (operator.entrusted b) >>= g) := by
  have hyield := yield_entrusted files operator a b chain.providers
  rw [yield_eq, yield_eq] at hyield
  simp only [resolve_eq, tried_entrusted files operator a b,
    Provider.visit_entrusted files operator a b, bind_assoc, pure_bind] at hyield ⊢
  exact l.bind_left _ fun _ => l.bind_left _ fun _ => h _ _ hyield

theorem Connection.establish_alike {t : Transport m ι} (ht : l.Blind t) (polling : Polling)
    (target : Target) (chain : Credential.Chain) :
    l.Alike (establish t files (operator.entrusted a) polling target chain)
      (establish t files (operator.entrusted b) polling target chain) := by
  refine l.bind_left _ fun _ => l.bind_left _ fun checked => ?_
  cases checked with
  | error e => exact l.refl _
  | ok _ =>
    refine Credential.Chain.resolve_alike l chain fun r r' h => ?_
    have hempty : r.isEmpty = r'.isEmpty := by
      simpa [List.isEmpty_map] using congrArg List.isEmpty h
    have hnote : (noteRejected r : m Unit) = noteRejected r' := by
      rw [← noteRejected_veiled, ← noteRejected_veiled r', h]
    rw [hempty, hnote]
    split
    · exact l.refl _
    · have hlogin (p : String) : (operator.entrusted p).login = operator.login := rfl
      simp only [hlogin]
      cases target.user.orElse fun _ => operator.login with
      | none => exact l.refl _
      | some user => exact l.bind_right (ht _ _ (ConnectRequest.veiled_congr h)) _

namespace Deployer

variable {l} (hd : l.Blind d.transport)

include hd

theorem connect_alike (job : Job) :
    l.Alike ((d.entrusted a).connect job) ((d.entrusted b).connect job) :=
  l.bind_right (Connection.establish_alike l hd d.polling job.target job.credentials) _

theorem runShared_alike (slot : Option (Connection ι)) (job : Job) :
    l.Alike ((d.entrusted a).runShared slot job) ((d.entrusted b).runShared slot job) := by
  rw [runShared, runShared]
  cases job.validate with
  | error e => exact l.refl _
  | ok _ =>
    simp only [runOn_entrusted]
    cases slot with
    | some c => exact l.refl _
    | none => exact l.bind_right (connect_alike hd job) _

theorem runGroup_alike (slot : Option (Connection ι)) (group : List Batch.Entry) :
    l.Alike ((d.entrusted a).runGroup slot group) ((d.entrusted b).runGroup slot group) := by
  induction group generalizing slot with
  | nil => exact l.refl _
  | cons entry rest ih =>
    refine l.bind (runShared_alike hd slot entry.2) fun (result, left) => ?_
    cases result with
    | error e => exact l.bind_left _ fun _ => l.bind_right (ih left) _
    | ok report => exact l.bind_right (ih left) _

theorem runBatch_alike (jobs : List Job) :
    l.Alike ((d.entrusted a).runBatch jobs) ((d.entrusted b).runBatch jobs) := by
  refine l.bind_right (l.bind_right (l.gather ?_) _) _
  induction Batch.groups jobs with
  | nil => exact .nil
  | cons group rest ih => exact .cons (runGroup_alike hd none group) ih

end Deployer

end Alike

namespace Program

variable {ι α β : Type}

def askVeiled : (a : Ask ι) → (a.Reply → Program ι α) → Program ι α
  | .note e, next => .ask (.note e) next
  | .turn, next => .ask .turn next
  | .connect request, next => .ask (.connect request.veiled) next
  | .exec polling session command, next => .ask (.exec polling session command) next
  | .upload session source destination, next => .ask (.upload session source destination) next

def veil : Program ι α → Program ι α
  | .done a => .done a
  | .stop => .stop
  | .ask a next => askVeiled a fun r => (next r).veil

theorem veil_bind (p : Program ι α) (f : α → Program ι β) :
    (p >>= f).veil = p.veil >>= fun a => (f a).veil := by
  induction p with
  | done a => rfl
  | stop => rfl
  | ask a next ih =>
    change askVeiled a (fun r => (next r >>= f).veil) = _
    simp only [ih]
    cases a <;> rfl

theorem veil_map (f : α → β) (p : Program ι α) : (p.map f).veil = p.veil.map f := by
  induction p with
  | done a => rfl
  | stop => rfl
  | ask a next ih =>
    simp only [map, veil, ih]
    cases a <;> rfl

theorem veil_attempt (p : Program ι α) : p.attempt.veil = p.veil.attempt := by
  induction p with
  | done a => rfl
  | stop => rfl
  | ask a next ih =>
    simp only [attempt, veil, ih]
    cases a <;> rfl

theorem beside_asks (a b : Ask ι) (next : a.Reply → Program ι α) (next' : b.Reply → Program ι β) :
    (ask a next).beside (ask b next') = ask .turn fun first =>
      if first then ask a fun r => (next r).beside (ask b next')
      else ask b fun r => (ask a next).beside (next' r) := by
  simp only [beside]
  rw [besideAsk]
  refine congrArg (ask .turn) (funext fun first => ?_)
  cases first <;> rfl

theorem askVeiled_beside (a b : Ask ι) (next : a.Reply → Program ι α) (next' : b.Reply → Program ι β) :
    (askVeiled a next).beside (askVeiled b next') = ask .turn fun first =>
      if first then askVeiled a fun r => (next r).beside (askVeiled b next')
      else askVeiled b fun r => (askVeiled a next).beside (next' r) := by
  cases a <;> cases b <;> exact beside_asks ..

theorem veil_beside (p : Program ι α) (q : Program ι β) :
    (p.beside q).veil = p.veil.beside q.veil := by
  induction p generalizing q with
  | done a => simp only [beside, veil, veil_map, veil_attempt]
  | stop => simp only [beside, veil, veil_map, veil_attempt]
  | ask a next ihp =>
    induction q with
    | done b => simp only [beside_done, veil_map, veil_attempt, veil]
    | stop => simp only [beside_stop, veil_map, veil_attempt, veil]
    | ask b next' ihq =>
      rw [beside_asks, veil, veil, veil, askVeiled_beside]
      refine congrArg (ask .turn) (funext fun first => ?_)
      cases first with
      | true => exact congrArg (askVeiled a) (funext fun r => ihp r (ask b next'))
      | false => exact congrArg (askVeiled b) (funext ihq)

theorem veil_gather (ps : List (Program ι α)) : (gather ps).veil = gather (ps.map veil) := by
  induction ps with
  | nil => rfl
  | cons p ps ih => simp only [gather, veil_map, veil_beside, ih, List.map_cons]

def likeness (ι : Type) : Likeness (Program ι) where
  Alike p q := p.veil = q.veil
  refl _ := rfl
  bind h hf := by simp only [veil_bind, h, hf]
  gather h := by
    have hveils := List.forall₂_map_left_iff.mpr (List.forall₂_map_right_iff.mpr h)
    rw [List.forall₂_eq_eq_eq] at hveils
    exact (veil_gather _).trans ((congrArg gather hveils).trans (veil_gather _).symm)

end Program

def Exchange.veiled {ι : Type} : Exchange ι → Exchange ι
  | ⟨.connect request, r⟩ => ⟨.connect request.veiled, r⟩
  | x => x

/-- The world that does not look at passphrases, and answers as if there were none to look at. -/
def World.unseeing {ι : Type} (w : World ι) : World ι := fun past a =>
  match a with
  | .connect request => w (past.map (·.veiled)) (.connect request.veiled)
  | a => w (past.map (·.veiled)) a

namespace Program

theorem play_veil {ι α : Type} (w : World ι) (p : Program ι α) (past : List (Exchange ι)) :
    p.veil.play w (past.map (·.veiled)) =
      ((p.play w.unseeing past).1, (p.play w.unseeing past).2.map (·.veiled)) := by
  induction p generalizing past with
  | done a => rfl
  | stop => rfl
  | ask a next ih =>
    cases a <;> simp only [veil, askVeiled, play, ← ih, List.map_append] <;> rfl

end Program

theorem Rehearsal.World.connect_veiled (r : ConnectRequest) : connect r.veiled = connect r := by
  funext w
  simp [connect, ConnectRequest.veiled, Function.comp_def, Credential.Resolved.veiled]

theorem Rehearsal.Script.blind_transport (script : Script) :
    (Likeness.equality (Rehearsal World)).Blind script.transport := fun r r' h =>
  show step (World.connect r) = step (World.connect r') by
    rw [← World.connect_veiled, h, World.connect_veiled]

/-- Whichever passphrase an operator has for the key file, a batch comes to the same outcomes, and it
notes, connects to, executes and uploads the same, however the turns of its workers fall: the
passphrases in connect requests apart, if nobody looks at those. Written out, the operator, the
identities resolved and the requests that hold them are the same too. -/
theorem Deployer.runBatch_keeps_secret {ι : Type} (s : Settings) (script : Rehearsal.Script)
    (a b : String) (jobs : List Job) :
    (∀ (w : World ι) (past : List (Exchange ι)),
      let run := fun p => ((s.deployer.entrusted p).runBatch jobs).play w.unseeing past
      (run a).1 = (run b).1 ∧ (run a).2.map (·.veiled) = (run b).2.map (·.veiled)) ∧
    (∀ scene : Scene Rehearsal.World,
      let deployer : Deployer (Rehearsal Rehearsal.World) Target.Key :=
        ⟨script.transport, s.files, s.operator, s.lockout, s.polling, s.stopReason⟩
      let run := fun p => ((deployer.entrusted p).runBatch jobs).run scene
      run a = run b) ∧
    Inspect.operator (s.operator.entrusted a) = Inspect.operator (s.operator.entrusted b) ∧
    ∀ chain : Credential.Chain,
      let identities := fun p =>
        Credential.Chain.yield s.files (s.operator.entrusted p) chain.providers
      (identities a).map Inspect.resolved = (identities b).map Inspect.resolved ∧
      ∀ target user verify,
        Inspect.connectRequest ⟨target, user, identities a, verify⟩ =
          Inspect.connectRequest ⟨target, user, identities b, verify⟩ := by
  refine ⟨fun w past => ?_, fun scene => ?_, rfl, fun chain => ?_⟩
  · have hblind : (Program.likeness ι).Blind s.deployer.transport := fun r r' h =>
      show Program.ask (.connect r.veiled) _ = Program.ask (.connect r'.veiled) _ by rw [h]
    have halike : ((s.deployer.entrusted a).runBatch jobs).veil =
      ((s.deployer.entrusted b).runBatch jobs).veil := runBatch_alike hblind jobs
    exact Prod.mk.inj ((Program.play_veil w _ past).symm.trans
      ((congrArg (·.play w (past.map (·.veiled))) halike).trans (Program.play_veil w _ past)))
  · intro deployer run
    have halike : (Likeness.equality _).Alike
        ((deployer.entrusted a).runBatch jobs) ((deployer.entrusted b).runBatch jobs) :=
      runBatch_alike script.blind_transport jobs
    exact congrArg (fun p : Rehearsal Rehearsal.World _ => p.run scene) halike
  · have hyield := Credential.Chain.yield_entrusted s.files s.operator a b chain.providers
    refine ⟨?_, fun target user verify => ?_⟩
    · rw [← Inspect.map_resolved_veiled, hyield, Inspect.map_resolved_veiled]
    · rw [← Inspect.connectRequest_veiled, ConnectRequest.veiled_congr hyield,
        Inspect.connectRequest_veiled]

end Rollout
