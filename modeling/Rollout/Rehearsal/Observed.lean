import Rollout.Rehearsal.Channel

/-! A channel that keeps a record of the calls made on it, and fails chosen ones. -/

namespace Rollout.Rehearsal

inductive ChannelCall
  | readOut (bytes : Nat)
  | readErr (bytes : Nat)
  | isClosed (closed : Bool)
  | await (interval : Duration)
  | exitCode
  | readOutFailed
  | readErrFailed
  | awaitFailed
  deriving DecidableEq

structure PlannedFault where
  after : Nat
  failure : Failure

def PlannedFault.strike : Option PlannedFault → Option Failure × Option PlannedFault
  | none => (none, none)
  | some ⟨0, failure⟩ => (some failure, none)
  | some ⟨n + 1, failure⟩ => (none, some ⟨n, failure⟩)

structure Observed where
  channel : Channel
  outFault : Option PlannedFault := none
  errFault : Option PlannedFault := none
  awaitFault : Option PlannedFault := none
  calls : List ChannelCall := []

namespace Observed

def readOut (limit : Nat) (o : Observed) : Except Failure Bytes × Observed :=
  match PlannedFault.strike o.outFault with
  | (some failure, left) =>
    (.error failure, { o with outFault := left, calls := .readOutFailed :: o.calls })
  | (none, left) =>
    let (bytes, channel) := o.channel.readOut limit
    (.ok bytes, { o with channel, outFault := left, calls := .readOut bytes.length :: o.calls })

def readErr (limit : Nat) (o : Observed) : Except Failure Bytes × Observed :=
  match PlannedFault.strike o.errFault with
  | (some failure, left) =>
    (.error failure, { o with errFault := left, calls := .readErrFailed :: o.calls })
  | (none, left) =>
    let (bytes, channel) := o.channel.readErr limit
    (.ok bytes, { o with channel, errFault := left, calls := .readErr bytes.length :: o.calls })

def isClosed (o : Observed) : Bool × Observed :=
  let (closed, channel) := o.channel.isClosed
  (closed, { o with channel, calls := .isClosed closed :: o.calls })

def await (interval : Duration) (o : Observed) : Except Failure Unit × Observed :=
  match PlannedFault.strike o.awaitFault with
  | (some failure, left) =>
    (.error failure, { o with awaitFault := left, calls := .awaitFailed :: o.calls })
  | (none, left) =>
    (.ok (),
      { o with channel := o.channel.await, awaitFault := left, calls := .await interval :: o.calls })

theorem backlog_readOut_le (n : Nat) (o : Observed) :
    (readOut n o).2.channel.backlog ≤ o.channel.backlog := by
  have := o.channel.backlog_readOut n
  simp only [readOut]
  split
  · exact Nat.le_refl _
  · simp only
    omega

theorem backlog_readErr_le (n : Nat) (o : Observed) :
    (readErr n o).2.channel.backlog ≤ o.channel.backlog := by
  have := o.channel.backlog_readErr n
  simp only [readErr]
  split
  · exact Nat.le_refl _
  · simp only
    omega

instance : ExecChannel Observed where
  readOut := readOut
  readErr := readErr
  isClosed := isClosed
  await := await
  exitCode o := (o.channel.exit, { o with calls := .exitCode :: o.calls })

instance : ExecChannel.Ends Observed where
  backlog o := o.channel.backlog
  backlog_readOut := by
    intro n o bs h
    simp only [ExecChannel.readOut, readOut] at h ⊢
    split at h
    · simp at h
    · simp only [Except.ok.injEq] at h
      subst h
      exact Nat.le_of_eq (o.channel.backlog_readOut n)
  backlog_readErr := by
    intro n o bs h
    simp only [ExecChannel.readErr, readErr] at h ⊢
    split at h
    · simp at h
    · simp only [Except.ok.injEq] at h
      subst h
      exact Nat.le_of_eq (o.channel.backlog_readErr n)
  backlog_idle := by
    intro n o hn ho he hc
    have h₀ := Channel.backlog_isClosed (c := (readErr n (readOut n o).2).2.channel) hc
    have h₁ := backlog_readOut_le n o
    have h₂ := backlog_readErr_le n (readOut n o).2
    show (isClosed (readErr n (readOut n o).2).2).2.channel.backlog < o.channel.backlog
    simp only [isClosed]
    omega
  backlog_await := by
    intro n o h
    simp only [ExecChannel.await, await] at h ⊢
    split at h
    · simp at h
    · exact Nat.le_refl _

end Observed

end Rollout.Rehearsal
