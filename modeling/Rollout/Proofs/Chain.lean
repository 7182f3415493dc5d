import Rollout.Proofs.First
import Rollout.Proofs.Opening

/-!
Walking a credential chain. The providers that are attempted are those up to the first that is
accepted and lets no other run after it; each leaves its line in the log, and the accepted ones are
the result.
-/

namespace Rollout

namespace Program

variable {ι α β : Type}

theorem bind_done (p : Program ι α) : p.bind .done = p := by
  induction p with
  | done a => rfl
  | stop => rfl
  | ask a next ih => exact congrArg (ask a) (funext ih)

theorem bind_bind {γ : Type} (p : Program ι α) (f : α → Program ι β) (g : β → Program ι γ) :
    (p.bind f).bind g = p.bind fun a => (f a).bind g := by
  induction p with
  | done a => rfl
  | stop => rfl
  | ask a next ih => exact congrArg (ask a) (funext ih)

instance : LawfulMonad (Program ι) :=
  LawfulMonad.mk' _ bind_done (fun _ _ => rfl) bind_bind

@[simp] theorem play_pure (w : World ι) (a : α) (past : List (Exchange ι)) :
    (pure a : Program ι α).play w past = (some a, past) :=
  rfl

theorem play_note_bind (w : World ι) (e : Event) (f : Unit → Program ι β) (past : List (Exchange ι)) :
    ((Stage.note e : Program ι Unit) >>= f).play w past = (f ()).play w (past ++ [⟨.note e, ()⟩]) :=
  rfl

def noted (events : List Event) : List (Exchange ι) := events.map fun e => ⟨.note e, ()⟩

end Program

namespace Credential

variable {ι : Type} {m : Type → Type} [Stage m] [LawfulMonad m]
  {files : FileSystem} {operator : Operator}

namespace Provider

def resolved? (files : FileSystem) (operator : Operator) (p : Provider) : Option Resolved :=
  match p.outcome files operator with
  | .accepted identity => some ⟨p.name, identity⟩
  | .skipped _ => none

def ends (files : FileSystem) (operator : Operator) (p : Provider) : Bool :=
  (p.resolved? files operator).isSome && !p.continueOnSuccess

def verdict (p : Provider) : Outcome → String
  | .accepted _ => "USING - " ++ p.name
  | .skipped why => "SKIP - " ++ p.name ++ ": " ++ why.message

def outcomeEvent? : Outcome → Option Event
  | .accepted _ => none
  | .skipped why => why.event?

def visit (files : FileSystem) (operator : Operator) (p : Provider) : m Unit := do
  Stage.info (p.verdict (← p.attempt files operator))

def log (files : FileSystem) (operator : Operator) (p : Provider) : List Event :=
  (outcomeEvent? (p.outcome files operator)).toList ++
    [⟨.info, p.verdict (p.outcome files operator), []⟩]

theorem attempt_bind {α : Type} (p : Provider) (f : Outcome → m α) :
    p.attempt files operator >>= f =
      (outcomeEvent? (p.outcome files operator)).forM Stage.note >>= fun _ =>
        f (p.outcome files operator) := by
  rw [attempt]
  cases p.outcome files operator with
  | accepted identity => simp [outcomeEvent?]
  | skipped why => cases hevent : why.event? <;> simp [outcomeEvent?, hevent]

theorem play_visit_bind {α : Type} (w : World ι) (p : Provider) (f : Unit → Program ι α)
    (past : List (Exchange ι)) :
    (p.visit files operator >>= f).play w past =
      (f ()).play w (past ++ Program.noted (p.log files operator)) := by
  rw [visit, log, attempt_bind]
  cases outcomeEvent? (p.outcome files operator) with
  | none => rfl
  | some event => simp [Program.noted, Stage.info, Program.play_note_bind]

end Provider

namespace Chain

/-- The providers up to the first that ends the chain. -/
def tried (files : FileSystem) (operator : Operator) (providers : List Provider) : List Provider :=
  upTo (·.ends files operator) providers

theorem tried_cons (p : Provider) (rest : List Provider) :
    tried files operator (p :: rest) =
      p :: if p.ends files operator then [] else tried files operator rest :=
  upTo_cons p rest

theorem collect_eq (providers : List Provider) :
    (collect files operator providers : m (List Resolved)) = do
      forM (tried files operator providers) (Provider.visit files operator)
      return (tried files operator providers).filterMap (·.resolved? files operator) := by
  induction providers with
  | nil => simp [collect, tried]
  | cons p rest ih =>
    rw [tried_cons, collect, ih, Provider.attempt_bind]
    cases h : p.outcome files operator with
    | skipped why =>
      simp [Provider.visit, Provider.attempt_bind, Provider.ends, Provider.resolved?,
        Provider.verdict, h]
    | accepted identity =>
      cases hp : p.continueOnSuccess <;>
        simp [Provider.visit, Provider.attempt_bind, Provider.ends, Provider.resolved?,
          Provider.verdict, h, hp]

theorem resolve_eq (chain : Chain) :
    (chain.resolve files operator : m (List Resolved)) = do
      Stage.info "Using the following authentication attempts:"
      forM (tried files operator chain.providers) (Provider.visit files operator)
      return (tried files operator chain.providers).filterMap (·.resolved? files operator) := by
  rw [resolve, collect_eq]

theorem yield_eq (providers : List Provider) :
    yield files operator providers =
      (tried files operator providers).filterMap (·.resolved? files operator) := by
  induction providers with
  | nil => rfl
  | cons p rest ih =>
    rw [tried_cons, yield, ih]
    cases h : p.outcome files operator with
    | skipped why => simp [Provider.ends, Provider.resolved?, h]
    | accepted identity =>
      cases hp : p.continueOnSuccess <;> simp [Provider.ends, Provider.resolved?, h, hp]

theorem play_visits (w : World ι) (providers : List Provider) (found : List Resolved)
    (past : List (Exchange ι)) :
    (forM providers (Provider.visit files operator) >>= fun _ => pure found : Program ι _).play w past =
      (some found, past ++ Program.noted (providers.flatMap (·.log files operator))) := by
  induction providers generalizing past with
  | nil => simp [Program.noted, Program.play_pure]
  | cons p rest ih =>
    rw [List.forM_cons, bind_assoc, Provider.play_visit_bind, ih]
    simp [Program.noted]

def sources (files : FileSystem) (operator : Operator) (providers : List Provider) : List Provider :=
  (tried files operator providers).filter fun p => (p.resolved? files operator).isSome

theorem sources_cons (p : Provider) (rest : List Provider) :
    sources files operator (p :: rest) =
      if (p.resolved? files operator).isSome then
        p :: if p.continueOnSuccess then sources files operator rest else []
      else sources files operator rest := by
  rw [sources, tried_cons, Provider.ends]
  cases h : p.resolved? files operator with
  | none => simp [sources, h]
  | some r => cases hp : p.continueOnSuccess <;> simp [sources, h]

theorem sources_sublist (providers : List Provider) :
    (sources files operator providers).Sublist providers :=
  List.filter_sublist.trans (List.take_sublist ..)

theorem continueOnSuccess_of_mem_dropLast {providers : List Provider} {p : Provider}
    (h : p ∈ (sources files operator providers).dropLast) : p.continueOnSuccess := by
  induction providers with
  | nil => cases h
  | cons q rest ih =>
    rw [sources_cons] at h
    split at h
    · split at h
      next hq =>
        cases hrest : sources files operator rest with
        | nil => simp [hrest] at h
        | cons r rs =>
          rw [hrest, List.dropLast_cons_cons, ← hrest, List.mem_cons] at h
          obtain rfl | h := h
          · exact hq
          · exact ih h
      next => cases h
    · exact ih h

theorem forall₂_sources (providers : List Provider) :
    List.Forall₂ (fun p r => p.outcome files operator = .accepted r.identity ∧ r.provider = p.name)
      (sources files operator providers) (yield files operator providers) := by
  induction providers with
  | nil => exact .nil
  | cons p rest ih =>
    rw [sources_cons, yield]
    cases h : p.outcome files operator with
    | skipped why => simpa [Provider.resolved?, h] using ih
    | accepted identity =>
      cases hp : p.continueOnSuccess <;> simp [Provider.resolved?, h, ih]

theorem yield_eq_nil_iff {providers : List Provider} :
    yield files operator providers = [] ↔
      ∀ p ∈ providers, ∃ why, p.outcome files operator = .skipped why := by
  induction providers with
  | nil => simp [yield]
  | cons p rest ih =>
    rw [yield]
    cases h : p.outcome files operator with
    | skipped why => simp [h, ih]
    | accepted identity => cases p.continueOnSuccess <;> simp [h]

theorem tried_append {providers : List Provider} {p : Provider} (hp : p ∈ providers)
    (hends : p.ends files operator) (more : List Provider) :
    tried files operator (providers ++ more) = tried files operator providers := by
  rw [tried, upTo_append, if_pos (List.any_eq_true.mpr ⟨p, hp, hends⟩), List.append_nil, tried]

/-- A chain attempts its providers in order, up to the first that is accepted and does not let later
ones run; each attempt is made once and leaves its line in the log, and the accepted identities are the
result. -/
theorem resolve_walks (files : FileSystem) (operator : Operator) (chain : Chain) (w : World ι)
    (past : List (Exchange ι)) :
    let tried := chain.providers.take (chain.providers.findIdx (·.ends files operator) + 1)
    let found := tried.filterMap (·.resolved? files operator)
    (chain.resolve files operator : Program ι (List Resolved)) = (do
      Stage.info "Using the following authentication attempts:"
      forM tried fun p => do Stage.info (p.verdict (← p.attempt files operator))
      return found) ∧
    (chain.resolve files operator : Program ι _).play w past =
      (some found, past ++ Program.noted
        (⟨.info, "Using the following authentication attempts:", []⟩ ::
          tried.flatMap (·.log files operator))) ∧
    (∃ sources, sources.Sublist chain.providers ∧
      List.Forall₂ (fun p r => p.outcome files operator = .accepted r.identity ∧ r.provider = p.name)
        sources found ∧
      ∀ p ∈ sources.dropLast, p.continueOnSuccess) ∧
    (found = [] ↔ ∀ p ∈ chain.providers, ∃ why, p.outcome files operator = .skipped why) ∧
    ∀ p ∈ chain.providers, p.ends files operator → ∀ more,
      (resolve files operator ⟨chain.providers ++ more⟩ : Program ι _) = chain.resolve files operator := by
  intro tried found
  have hfound : yield files operator chain.providers = found := yield_eq _
  refine ⟨resolve_eq chain, ?_, ?_, ?_, fun p hp hends more => ?_⟩
  · rw [resolve_eq, Stage.info, Program.play_note_bind, play_visits]
    simp [tried, found, Chain.tried, upTo, Program.noted]
  · exact ⟨sources files operator chain.providers, sources_sublist _,
      hfound ▸ forall₂_sources _, fun p hp => continueOnSuccess_of_mem_dropLast hp⟩
  · rw [← hfound, yield_eq_nil_iff]
  · rw [resolve_eq, resolve_eq, tried_append hp hends]

end Chain

end Credential

end Rollout
