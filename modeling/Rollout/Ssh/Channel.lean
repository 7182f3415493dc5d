import Rollout.Channel
import Rollout.Ssh.Peer

/-!
A running command over a session. The session does not block while the command runs, except for the
wait for output, which is a bounded read of the standard output: what it catches is parked, and
handed out before the channel is read again.
-/

namespace Rollout.Ssh

structure Channel (σ : Type) where
  peer : σ
  session : Handle
  handle : Handle
  /-- Bytes of the standard output that a wait has caught. -/
  parked : Bytes := []

namespace Channel

def waitChunk : Nat := 1024

def outcome (operation : String) : Except ReadFault Bytes → Except Failure Bytes
  | .ok bytes => .ok bytes
  | .error .wouldBlock => .ok []
  | .error (.timedOut reason) => .error (.io operation reason)
  | .error (.broken reason) => .error (.io operation reason)

def caught : Except ReadFault Bytes → Except Failure Bytes
  | .ok bytes => .ok bytes
  | .error .wouldBlock => .ok []
  | .error (.timedOut _) => .ok []
  | .error (.broken reason) => .error (.io "wait for output" reason)

def signalled : Except Fault (Option String) → Bool
  | .ok (some _) => true
  | _ => false

variable {σ : Type} [Peer σ]

def readOut (limit : Nat) (c : Channel σ) : Except Failure Bytes × Channel σ :=
  if c.parked.isEmpty then
    let read := ask (.read c.handle .stdout limit) c.peer
    (outcome "read stdout" read.1, { c with peer := read.2 })
  else (.ok (c.parked.take limit), { c with parked := c.parked.drop limit })

def readErr (limit : Nat) (c : Channel σ) : Except Failure Bytes × Channel σ :=
  let read := ask (.read c.handle .stderr limit) c.peer
  (outcome "read stderr" read.1, { c with peer := read.2 })

/-- A channel with parked bytes does not count as closed. -/
def isClosed (c : Channel σ) : Bool × Channel σ :=
  let ended := ask (.atEnd c.handle) c.peer
  (ended.1 && c.parked.isEmpty, { c with peer := ended.2 })

/-- Reads the standard output with the session blocking for at most the interval. -/
def boundedRead (session handle : Handle) (interval : Duration) : StateM σ (Except ReadFault Bytes) := do
  ask (.setBlocking session true)
  ask (.setTimeout session (waitFor interval))
  let reply ← ask (.read handle .stdout waitChunk)
  ask (.setTimeout session 0)
  ask (.setBlocking session false)
  return reply

def await (interval : Duration) (c : Channel σ) : Except Failure Unit × Channel σ :=
  if interval = .zero || !c.parked.isEmpty then (.ok (), c)
  else
    let read := boundedRead c.session c.handle interval c.peer
    match caught read.1 with
    | .ok bytes => (.ok (), { c with peer := read.2, parked := c.parked ++ bytes })
    | .error failure => (.error failure, { c with peer := read.2 })

/-- Waits for the close, and asks how the command ended. A signal counts as a failure even when no
status came with it. -/
def askExit (session handle : Handle) : Operation σ Int := do
  call (.setBlocking session true)
  attempt "close channel" (ask (.awaitClose handle))
  let status ← attempt "read exit status" (ask (.exitStatus handle))
  let signal ← call (.exitSignal handle)
  return if signalled signal && status = 0 then -1 else status

def exitCode (c : Channel σ) : Except Failure Int × Channel σ :=
  let asked := askExit c.session c.handle c.peer
  (asked.1, { c with peer := asked.2 })

theorem length_outcome {operation : String} {reply : Except ReadFault Bytes} {b : Bytes}
    (h : outcome operation reply = .ok b) : b.length = (received reply).length := by
  match reply, h with
  | .ok _, h => cases h; rfl
  | .error .wouldBlock, h => cases h; rfl

theorem isIdle_of_outcome {operation : String} {reply : Except ReadFault Bytes}
    (h : outcome operation reply = .ok []) : isIdle reply := by
  match reply, h with
  | .ok _, h => cases h; rfl
  | .error .wouldBlock, _ => rfl

theorem length_caught {reply : Except ReadFault Bytes} {b : Bytes} (h : caught reply = .ok b) :
    b.length = (received reply).length := by
  match reply, h with
  | .ok _, h => cases h; rfl
  | .error .wouldBlock, h => cases h; rfl
  | .error (.timedOut _), h => cases h; rfl

instance : ExecChannel (Channel σ) where
  readOut := readOut
  readErr := readErr
  isClosed := isClosed
  await := await
  exitCode := exitCode

variable [EndsCommands σ]

def backlog (c : Channel σ) : Nat := EndsCommands.backlog c.peer + c.parked.length

theorem backlog_boundedRead (session handle : Handle) (interval : Duration) (w : σ) :
    EndsCommands.backlog (boundedRead session handle interval w).2 +
      (received (boundedRead session handle interval w).1).length ≤ EndsCommands.backlog w := by
  let w₁ := (ask (.setBlocking session true) w).2
  let w₂ := (ask (.setTimeout session (waitFor interval)) w₁).2
  let w₃ := (ask (.read handle .stdout waitChunk) w₂).2
  let w₄ := (ask (.setTimeout session 0) w₃).2
  have h₁ : EndsCommands.backlog w₁ ≤ EndsCommands.backlog w := EndsCommands.backlog_setBlocking
  have h₂ : EndsCommands.backlog w₂ ≤ EndsCommands.backlog w₁ := EndsCommands.backlog_setTimeout
  have h₃ := backlog_ask_read handle .stdout waitChunk w₂
  have h₄ : EndsCommands.backlog w₄ ≤ EndsCommands.backlog w₃ := EndsCommands.backlog_setTimeout
  have h₅ : EndsCommands.backlog (ask (.setBlocking session false) w₄).2 ≤ EndsCommands.backlog w₄ :=
    EndsCommands.backlog_setBlocking
  show EndsCommands.backlog (ask (.setBlocking session false) w₄).2 +
    (received (ask (.read handle .stdout waitChunk) w₂).1).length ≤ _
  change EndsCommands.backlog w₃ + _ ≤ _ at h₃
  omega

theorem backlog_readOut {limit : Nat} {c : Channel σ} {b : Bytes} (h : (c.readOut limit).1 = .ok b) :
    (c.readOut limit).2.backlog + b.length ≤ c.backlog := by
  simp only [readOut] at h ⊢
  split at h
  · rename_i hnone
    have hread := backlog_ask_read c.handle .stdout limit c.peer
    have hlength := length_outcome h
    simp only [hnone, if_true, backlog]
    omega
  · rename_i hparked
    obtain rfl := Except.ok.inj h
    simp only [hparked, backlog, List.length_drop, List.length_take, Bool.false_eq_true, if_false]
    omega

theorem backlog_readErr {limit : Nat} {c : Channel σ} {b : Bytes} (h : (c.readErr limit).1 = .ok b) :
    (c.readErr limit).2.backlog + b.length ≤ c.backlog := by
  have hread := backlog_ask_read c.handle .stderr limit c.peer
  have hlength := length_outcome h
  simp only [readErr, backlog]
  omega

theorem backlog_idle {limit : Nat} {c : Channel σ} (hl : 0 < limit)
    (hout : (c.readOut limit).1 = .ok []) (herr : ((c.readOut limit).2.readErr limit).1 = .ok [])
    (hopen : ((c.readOut limit).2.readErr limit).2.isClosed.1 = false) :
    ((c.readOut limit).2.readErr limit).2.isClosed.2.backlog < c.backlog := by
  obtain ⟨peer, session, handle, parked⟩ := c
  cases parked with
  | cons x rest =>
    obtain ⟨k, rfl⟩ := Nat.exists_eq_add_of_lt hl
    simp [readOut] at hout
  | nil =>
    simp only [readOut, readErr, isClosed, List.isEmpty_nil, if_true, Bool.and_true] at hout herr hopen
    exact EndsCommands.backlog_idle hl (isIdle_of_outcome hout) (isIdle_of_outcome herr) hopen

theorem backlog_await {interval : Duration} {c : Channel σ} (h : (c.await interval).1 = .ok ()) :
    (c.await interval).2.backlog ≤ c.backlog := by
  have hread := backlog_boundedRead c.session c.handle interval c.peer
  simp only [await] at h ⊢
  split at h
  · rename_i hsame
    simp [hsame]
  · rename_i hwaits
    simp only [hwaits]
    split at h
    · rename_i bytes hcaught
      have hlength := length_caught hcaught
      simp only [backlog, List.length_append, Bool.false_eq_true, if_false]
      omega
    · simp at h

instance : ExecChannel.Ends (Channel σ) where
  backlog := backlog
  backlog_readOut := backlog_readOut
  backlog_readErr := backlog_readErr
  backlog_idle := backlog_idle
  backlog_await := backlog_await

end Channel

end Rollout.Ssh
