import Rollout.Proofs.Ssh

/-!
Peers on record. Every call is put down with its reply, so that it can be told afterwards what was
asked and what came of it; and a running command may be used in any order.
-/

namespace Rollout

namespace Ssh

abbrev Answered := (c : Call) × c.Reply

structure Recorded (σ : Type) where
  peer : σ
  log : List Answered := []

instance {σ : Type} [Peer σ] : Peer (Recorded σ) where
  answer c w :=
    let answered := Peer.answer c w.peer
    (answered.1, ⟨answered.2, w.log ++ [⟨c, answered.1⟩]⟩)

instance {σ : Type} [Peer σ] [EndsCommands σ] : EndsCommands (Recorded σ) where
  backlog w := EndsCommands.backlog w.peer
  backlog_setBlocking := EndsCommands.backlog_setBlocking
  backlog_setTimeout := EndsCommands.backlog_setTimeout
  backlog_read := EndsCommands.backlog_read
  backlog_idle hl hout herr hopen := EndsCommands.backlog_idle (σ := σ) hl hout herr hopen

def taken (handle : Handle) (s : Stream) (log : List Answered) : Bytes :=
  log.flatMap fun
    | ⟨.read h t _, reply⟩ => if h = handle ∧ t = s then received reply else []
    | _ => []

@[simp] theorem taken_append (handle : Handle) (s : Stream) (log more : List Answered) :
    taken handle s (log ++ more) = taken handle s log ++ taken handle s more :=
  List.flatMap_append

namespace Channel

/-- What can be done with a running command before it is asked how it ended. -/
inductive Act
  | readOut (limit : Nat)
  | readErr (limit : Nat)
  | look
  | await (interval : Duration)

def handed : Except Failure Bytes → Bytes
  | .ok bytes => bytes
  | .error _ => []

theorem handed_outcome (operation : String) (reply : Except ReadFault Bytes) :
    handed (outcome operation reply) = received reply := by
  rcases reply with (_ | _ | _) | _ <;> rfl

section Acting

variable {σ : Type} [Peer σ]

def perform (c : Channel σ) : Act → Bytes × Channel σ
  | .readOut limit => (handed (c.readOut limit).1, (c.readOut limit).2)
  | .readErr limit => ([], (c.readErr limit).2)
  | .look => ([], c.isClosed.2)
  | .await interval => ([], (c.await interval).2)

def performAll (c : Channel σ) : List Act → Bytes × Channel σ
  | [] => ([], c)
  | act :: rest =>
    let later := (c.perform act).2.performAll rest
    ((c.perform act).1 ++ later.1, later.2)

theorem performAll_append (c : Channel σ) (acts more : List Act) :
    (c.performAll (acts ++ more)).2 = ((c.performAll acts).2.performAll more).2 := by
  induction acts generalizing c with
  | nil => rfl
  | cons act rest ih => exact ih _

theorem keeps_performed (c : Channel σ) :
    ExecChannel.Keeps fun c' : Channel σ => ∃ acts, (c.performAll acts).2 = c' := by
  have step {c₁ c₂ : Channel σ} (act : Act) (hact : (c₁.perform act).2 = c₂)
      (h : ∃ acts, (c.performAll acts).2 = c₁) : ∃ acts, (c.performAll acts).2 = c₂ := by
    obtain ⟨acts, rfl⟩ := h
    exact ⟨acts ++ [act], by rw [performAll_append]; exact hact⟩
  constructor
  · intro limit c₁ r c₂ h
    exact step (.readOut limit) (congrArg Prod.snd h)
  · intro limit c₁ r c₂ h
    exact step (.readErr limit) (congrArg Prod.snd h)
  · intro c₁ r c₂ h
    exact step .look (congrArg Prod.snd h)
  · intro interval c₁ r c₂ h
    exact step (.await interval) (congrArg Prod.snd h)

theorem perform_kept (c : Channel σ) (act : Act) :
    (c.perform act).2.session = c.session ∧ (c.perform act).2.handle = c.handle := by
  have hkeeps := keeps_handle (σ := σ) c.session c.handle
  cases act with
  | readOut limit => exact hkeeps.readOut rfl ⟨rfl, rfl⟩
  | readErr limit => exact hkeeps.readErr rfl ⟨rfl, rfl⟩
  | look => exact hkeeps.isClosed rfl ⟨rfl, rfl⟩
  | await interval => exact hkeeps.await rfl ⟨rfl, rfl⟩

theorem readOut_of_parked {c : Channel σ} (limit : Nat) (h : c.parked ≠ []) :
    c.readOut limit = (.ok (c.parked.take limit), { c with parked := c.parked.drop limit }) :=
  if_neg (mt List.isEmpty_iff.mp h)

theorem readOut_of_none {c : Channel σ} (limit : Nat) (h : c.parked = []) :
    c.readOut limit =
      (outcome "read stdout" (ask (.read c.handle .stdout limit) c.peer).1,
        { c with peer := (ask (.read c.handle .stdout limit) c.peer).2 }) :=
  if_pos (List.isEmpty_iff.mpr h)

theorem log_boundedRead (session handle : Handle) (interval : Duration) (w : Recorded σ) :
    (boundedRead session handle interval w).2.log = w.log ++
      [⟨.setBlocking session true, ()⟩,
       ⟨.setTimeout session (waitFor interval), ()⟩,
       ⟨.read handle .stdout waitChunk, (boundedRead session handle interval w).1⟩,
       ⟨.setTimeout session 0, ()⟩, ⟨.setBlocking session false, ()⟩] := by
  change ((((w.log ++ [_]) ++ [_]) ++ [_]) ++ [_]) ++ [_] = _
  simp only [List.append_assoc]
  rfl

theorem caught_cases (reply : Except ReadFault Bytes) :
    caught reply = .ok (received reply) ∨
      ∃ failure, caught reply = .error failure ∧ received reply = [] := by
  rcases reply with (_ | _ | reason) | bytes
  · exact .inl rfl
  · exact .inl rfl
  · exact .inr ⟨_, rfl, rfl⟩
  · exact .inl rfl

theorem await_cases (interval : Duration) (c : Channel σ) :
    c.await interval = (.ok (), c) ∨
      let read := boundedRead c.session c.handle interval c.peer
      c.parked = [] ∧ (c.await interval).1 = (caught read.1).map (fun _ => ()) ∧
        (c.await interval).2 = { c with peer := read.2, parked := received read.1 } := by
  rw [await]
  split
  · exact .inl rfl
  · rename_i hwaits
    have hnone : c.parked = [] := by simp at hwaits; exact hwaits.2
    refine .inr ⟨hnone, ?_⟩
    dsimp only
    obtain hcaught | ⟨failure, hcaught, hreceived⟩ :=
      caught_cases (boundedRead c.session c.handle interval c.peer).1
    · rw [hcaught, hnone]
      exact ⟨rfl, rfl⟩
    · rw [hcaught, hreceived, ← hnone]
      exact ⟨rfl, rfl⟩

end Acting

end Channel

end Ssh

end Rollout
