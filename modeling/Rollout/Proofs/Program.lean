import Mathlib.Data.List.Basic
import Mathlib.Data.Option.Basic
import Rollout.Transport

/-!
Runs as trees of questions. A program asks the world around it one thing after the other, and goes
on as the answer says. Nothing is known of the world: an answer may go by everything that was asked
and answered before, and a remote call may never come back.
-/

namespace Rollout

inductive Ask (ι : Type)
  | note (event : Event)
  /-- Whether the first of two workers moves next. -/
  | turn
  | connect (request : ConnectRequest)
  | exec (polling : Polling) (session : ι) (command : String)
  | upload (session : ι) (source : Path) (destination : String)

namespace Ask

@[reducible] def Reply {ι : Type} : Ask ι → Type
  | .note _ => Unit
  | .turn => Bool
  | .connect _ => Option (Except Failure ι)
  | .exec .. => Option (Except Failure CommandResult)
  | .upload .. => Option (Except Failure Nat)

def isCall {ι : Type} : Ask ι → Bool
  | .note _ => false
  | .turn => false
  | .connect _ => true
  | .exec .. => true
  | .upload .. => true

end Ask

abbrev Exchange (ι : Type) := (a : Ask ι) × a.Reply

/-- Answers questions, each in view of all exchanges before it. -/
abbrev World (ι : Type) := List (Exchange ι) → (a : Ask ι) → a.Reply

def World.obliging : World Target := fun _ a =>
  match a with
  | .note _ => ()
  | .turn => true
  | .connect request => some (.ok request.target)
  | .exec .. => some (.ok ⟨0, [], []⟩)
  | .upload .. => some (.ok 10)

variable {ι α β : Type}

def calls (t : List (Exchange ι)) : List (Exchange ι) := t.filter fun x => x.1.isCall

@[simp] theorem calls_nil : calls ([] : List (Exchange ι)) = [] := rfl

@[simp] theorem calls_append (s t : List (Exchange ι)) : calls (s ++ t) = calls s ++ calls t :=
  List.filter_append ..

theorem calls_cons (x : Exchange ι) (t : List (Exchange ι)) :
    calls (x :: t) = if x.1.isCall then x :: calls t else calls t := by
  cases h : x.1.isCall <;> simp [calls, h]

inductive Program (ι α : Type)
  | done (a : α)
  | stop
  | ask (a : Ask ι) (next : a.Reply → Program ι α)

namespace Program

def bind : Program ι α → (α → Program ι β) → Program ι β
  | .done a, f => f a
  | .stop, _ => .stop
  | .ask a next, f => .ask a fun r => (next r).bind f

instance : Monad (Program ι) where
  pure := .done
  bind := bind

def call (a : Ask ι) (back : a.Reply → Option β) : Program ι β :=
  .ask a fun r => match back r with
    | some b => .done b
    | none => .stop

def transport : Transport (Program ι) ι where
  connect request := call (.connect request) id
  exec polling session command := call (.exec polling session command) id
  upload session source destination := call (.upload session source destination) id

def Runs : Program ι α → List (Exchange ι) → Option α → Prop
  | .done a, t, o => t = [] ∧ o = some a
  | .stop, t, o => t = [] ∧ o = none
  | .ask a next, t, o => ∃ r rest, t = ⟨a, r⟩ :: rest ∧ (next r).Runs rest o

/-- The remote calls a program may make, and what it then comes to. -/
def Does (p : Program ι α) (cs : List (Exchange ι)) (o : Option α) : Prop :=
  ∃ t, p.Runs t o ∧ calls t = cs

section Does

variable {cs : List (Exchange ι)} {o : Option β}

@[simp] theorem does_done {a : β} : (done a : Program ι β).Does cs o ↔ cs = [] ∧ o = some a := by
  constructor
  · rintro ⟨_, ⟨rfl, rfl⟩, rfl⟩
    exact ⟨rfl, rfl⟩
  · rintro ⟨rfl, rfl⟩
    exact ⟨[], ⟨rfl, rfl⟩, rfl⟩

@[simp] theorem does_pure {a : β} : (pure a : Program ι β).Does cs o ↔ cs = [] ∧ o = some a :=
  does_done

@[simp] theorem does_stop : (stop : Program ι β).Does cs o ↔ cs = [] ∧ o = none := by
  constructor
  · rintro ⟨_, ⟨rfl, rfl⟩, rfl⟩
    exact ⟨rfl, rfl⟩
  · rintro ⟨rfl, rfl⟩
    exact ⟨[], ⟨rfl, rfl⟩, rfl⟩

theorem does_ask {a : Ask ι} {next : a.Reply → Program ι β} :
    (ask a next).Does cs o ↔ ∃ r rest, cs = calls [⟨a, r⟩] ++ rest ∧ (next r).Does rest o := by
  constructor
  · rintro ⟨_, ⟨r, t, rfl, hrun⟩, rfl⟩
    exact ⟨r, calls t, calls_append [_] t, t, hrun, rfl⟩
  · rintro ⟨r, _, rfl, t, hrun, rfl⟩
    exact ⟨⟨a, r⟩ :: t, ⟨r, t, rfl, hrun⟩, calls_append [_] t⟩

theorem does_bind {p : Program ι α} {f : α → Program ι β} :
    (p >>= f).Does cs o ↔
      (∃ s a u, cs = s ++ u ∧ p.Does s (some a) ∧ (f a).Does u o) ∨ (p.Does cs none ∧ o = none) := by
  induction p generalizing cs with
  | done a =>
    change (f a).Does cs o ↔ _
    simp
  | stop =>
    change (stop : Program ι β).Does cs o ↔ _
    simp
  | ask a next ih =>
    change (ask a fun r => next r >>= f).Does cs o ↔ _
    simp only [does_ask, ih]
    constructor
    · rintro ⟨r, _, rfl, ⟨s, b, u, rfl, hp, hf⟩ | ⟨hp, rfl⟩⟩
      · exact .inl ⟨_, b, u, (List.append_assoc ..).symm, ⟨r, s, rfl, hp⟩, hf⟩
      · exact .inr ⟨⟨r, _, rfl, hp⟩, rfl⟩
    · rintro (⟨_, b, u, rfl, ⟨r, s, rfl, hp⟩, hf⟩ | ⟨⟨r, s, rfl, hp⟩, rfl⟩)
      · exact ⟨r, s ++ u, List.append_assoc .., .inl ⟨s, b, u, rfl, hp, hf⟩⟩
      · exact ⟨r, s, rfl, .inr ⟨hp, rfl⟩⟩

theorem does_bind_of_quiet {p : Program ι α} {f : α → Program ι β} {a : α}
    (hp : ∀ {cs o}, p.Does cs o ↔ cs = [] ∧ o = some a) : (p >>= f).Does cs o ↔ (f a).Does cs o := by
  simp [does_bind, hp]

theorem does_bind_quiet {p : Program ι α} {f : α → Program ι β} {g : α → β}
    (hf : ∀ {a cs o}, (f a).Does cs o ↔ cs = [] ∧ o = some (g a)) :
    (p >>= f).Does cs o ↔ ∃ r, p.Does cs r ∧ o = r.map g := by
  rw [does_bind]
  constructor
  · rintro (⟨s, a, u, rfl, hp, hu⟩ | ⟨hp, rfl⟩)
    · obtain ⟨rfl, rfl⟩ := hf.mp hu
      exact ⟨some a, by rwa [List.append_nil], rfl⟩
    · exact ⟨none, hp, rfl⟩
  · rintro ⟨_ | a, hp, rfl⟩
    · exact .inr ⟨hp, rfl⟩
    · exact .inl ⟨cs, a, [], (List.append_nil cs).symm, hp, hf.mpr ⟨rfl, rfl⟩⟩

theorem does_bind_of_call {p : Program ι α} {f : α → Program ι β} {g : α → β} {a : Ask ι}
    {h : a.Reply → Option α} (hp : ∀ {o}, p.Does cs o ↔ ∃ r, cs = [⟨a, r⟩] ∧ o = h r)
    (hf : ∀ {a cs o}, (f a).Does cs o ↔ cs = [] ∧ o = some (g a)) :
    (p >>= f).Does cs o ↔ ∃ r, cs = [⟨a, r⟩] ∧ o = (h r).map g := by
  rw [does_bind_quiet hf]
  constructor
  · rintro ⟨_, hr, rfl⟩
    obtain ⟨r, rfl, rfl⟩ := hp.mp hr
    exact ⟨r, rfl, rfl⟩
  · rintro ⟨r, rfl, rfl⟩
    exact ⟨h r, hp.mpr ⟨r, rfl, rfl⟩, rfl⟩

theorem does_call_bind {a : Ask ι} {back : a.Reply → Option α} {f : α → Program ι β} :
    (call a back >>= f).Does cs o ↔ ∃ r rest, cs = calls [⟨a, r⟩] ++ rest ∧
      match back r with
      | some b => (f b).Does rest o
      | none => rest = [] ∧ o = none := by
  change (ask a fun r => bind _ f).Does cs o ↔ _
  rw [does_ask]
  refine exists_congr fun r => exists_congr fun rest => and_congr_right fun _ => ?_
  cases back r with
  | none => exact does_stop
  | some b => rfl

end Does

def play (w : World ι) : Program ι α → List (Exchange ι) → Option α × List (Exchange ι)
  | .done a, past => (some a, past)
  | .stop, past => (none, past)
  | .ask a next, past => (next (w past a)).play w (past ++ [⟨a, w past a⟩])

theorem does_play (w : World ι) (p : Program ι α) (past : List (Exchange ι)) :
    ∃ t, (p.play w past).2 = past ++ t ∧ p.Does (calls t) (p.play w past).1 ∧
      ∀ x ∈ t, ∃ before, x.2 = w before x.1 := by
  induction p generalizing past with
  | done a => exact ⟨[], by simp [play], does_done.mpr ⟨rfl, rfl⟩, by simp⟩
  | stop => exact ⟨[], by simp [play], does_stop.mpr ⟨rfl, rfl⟩, by simp⟩
  | ask a next ih =>
    obtain ⟨t, hpast, hdoes, hw⟩ := ih (w past a) (past ++ [⟨a, w past a⟩])
    refine ⟨⟨a, w past a⟩ :: t, by simp [play, hpast],
      does_ask.mpr ⟨_, _, calls_append [_] t, hdoes⟩, ?_⟩
    rintro x (_ | ⟨_, hx⟩)
    · exact ⟨past, rfl⟩
    · exact hw x hx

end Program

end Rollout
