import Rollout.Proofs.Channel
import Rollout.Rehearsal.Host
import Rollout.Ssh.Transport

/-!
How a command ends over a secure shell session. Once the server has closed the channel it has said all
that it is going to say of the end: a status, a signal, both or neither.
-/

namespace Rollout

namespace Ssh

structure Ending where
  status : Option Int
  signal : Option String

def Ending.code (e : Ending) : Int :=
  if e.signal.isSome && e.status.getD 0 = 0 then -1 else e.status.getD 0

theorem Ending.code_eq_zero {e : Ending} :
    e.code = 0 ↔ e.signal = none ∧ (e.status = none ∨ e.status = some 0) := by
  obtain ⟨_ | status, _ | signal⟩ := e
  · simp [code]
  · simp [code]
  · simp [code]
  · by_cases h : status = 0 <;> simp [code, h]

/-- A peer that passes on what its server says; zero is read for a status that never came. -/
class Reports (σ : Type) [Peer σ] where
  ending : Handle → σ → Ending
  answer_exitStatus : ∀ ch w,
    (Peer.answer (.exitStatus ch) w).1 = .ok ((ending ch w).status.getD 0)
  answer_exitSignal : ∀ ch w, (Peer.answer (.exitSignal ch) w).1 = .ok (ending ch w).signal
  ending_exitStatus : ∀ ch w, ending ch (Peer.answer (.exitStatus ch) w).2 = ending ch w

variable {σ : Type}

theorem Operation.bind_apply {α β : Type} (p : Operation σ α) (f : α → Operation σ β) (w : σ) :
    (p >>= f) w = match p w with
      | (.error failure, w) => (.error failure, w)
      | (.ok a, w) => f a w := by
  change (StateT.bind p (ExceptT.bindCont f)) w = _
  unfold StateT.bind
  change (ExceptT.bindCont f (p w).1) (p w).2 = _
  rcases p w with ⟨_ | a, w⟩ <;> rfl

theorem attempt_apply {α : Type} (name : String) (asked : StateM σ (Except Fault α)) (w : σ) :
    attempt name asked w = ((asked w).1.mapError (Fault.failure name), (asked w).2) := rfl

theorem attempt_of_ok {α : Type} {asked : StateM σ (Except Fault α)} {w : σ} {a : α} (name : String)
    (h : (asked w).1 = .ok a) : attempt name asked w = (.ok a, (asked w).2) := by
  rw [attempt_apply, h]
  rfl

variable [Peer σ]

def awaitClosed (session handle : Handle) : Operation σ Unit := do
  call (.setBlocking session true)
  attempt "close channel" (ask (.awaitClose handle))

def runToClose [EndsCommands σ] (polling : Polling) (session : Handle) (command : String) (w : σ) :
    Except Failure (Handle × Capture) × σ :=
  match start session command w with
  | (.error failure, w) => (.error failure, w)
  | (.ok handle, w) =>
    match ExecChannel.follow polling (Channel.mk w session handle []) with
    | (.error failure, ch) => (.error failure, ch.peer)
    | (.ok captured, ch) =>
      let closed := awaitClosed session handle ch.peer
      (closed.1.map fun _ => (handle, captured), closed.2)

theorem keeps_handle (session handle : Handle) :
    ExecChannel.Keeps fun c : Channel σ => c.session = session ∧ c.handle = handle where
  readOut {n c r c'} hread hc := by
    obtain rfl : (c.readOut n).2 = c' := congrArg Prod.snd hread
    unfold Channel.readOut
    split <;> exact hc
  readErr {n c r c'} hread hc := by
    obtain rfl : (c.readErr n).2 = c' := congrArg Prod.snd hread
    exact hc
  isClosed {c r c'} hlook hc := by
    obtain rfl : c.isClosed.2 = c' := congrArg Prod.snd hlook
    exact hc
  await {n c r c'} hwait hc := by
    obtain rfl : (c.await n).2 = c' := congrArg Prod.snd hwait
    unfold Channel.await
    split
    · exact hc
    · dsimp only
      split <;> exact hc

theorem call_apply (c : Call) (w : σ) : call c w = (.ok (ask c w).1, (ask c w).2) := rfl

theorem askExit_fst [Reports σ] (session handle : Handle) (w : σ) :
    (Channel.askExit session handle w).1 =
      match awaitClosed session handle w with
      | (.error failure, _) => .error failure
      | (.ok (), w) => .ok (Reports.ending handle w).code := by
  simp only [Channel.askExit, awaitClosed, Operation.bind_apply, call_apply]
  rcases attempt "close channel" (ask (.awaitClose handle))
    (ask (.setBlocking session true) w).2 with ⟨_ | _, v⟩
  · rfl
  · have hstatus := attempt_of_ok "read exit status" (Reports.answer_exitStatus handle v)
    have hsignal := Reports.answer_exitSignal handle (Peer.answer (.exitStatus handle) v).2
    rw [Reports.ending_exitStatus] at hsignal
    have hsignalled : Channel.signalled (.ok (Reports.ending handle v).signal) =
        (Reports.ending handle v).signal.isSome := by
      cases (Reports.ending handle v).signal <;> rfl
    simp only [ask, hstatus, hsignal, hsignalled]
    rfl

theorem exec_eq [EndsCommands σ] [Reports σ] (polling : Polling) (session : Handle) (command : String) (w : σ) :
    (exec polling session command w).1 =
      match runToClose polling session command w with
      | (.error failure, _) => .error failure
      | (.ok (handle, captured), w) => .ok (captured.result (Reports.ending handle w).code) := by
  unfold exec runToClose
  rcases start session command w with ⟨_ | handle, w⟩
  · rfl
  · have hkeeps := (keeps_handle session handle).follow polling
      (show (Channel.mk w session handle []).session = session ∧ _ from ⟨rfl, rfl⟩)
    dsimp only [ExecChannel.run]
    revert hkeeps
    rcases ExecChannel.follow polling (Channel.mk w session handle []) with ⟨_ | captured, ch⟩
    · intro _
      rfl
    · rintro ⟨hsession, hhandle⟩
      change (Channel.askExit ch.session ch.handle ch.peer).1.map captured.result = _
      rw [askExit_fst, hsession, hhandle]
      dsimp only
      rcases awaitClosed session handle ch.peer with ⟨_ | _, v⟩ <;> rfl

instance : Reports Rehearsal.Host where
  ending _ h := ⟨h.running.status.map (·.bmod 0x100000000), h.running.signal⟩
  answer_exitStatus _ h := by
    change Except.ok ((h.running.status.getD 0).bmod 0x100000000) = _
    cases h.running.status <;> rfl
  answer_exitSignal _ _ := rfl
  ending_exitStatus _ _ := rfl

end Ssh

end Rollout
