import Rollout.Channel

/-!
A channel that replays prepared output. The output comes in bursts: each look whether the channel is
closed makes the next burst readable, and once there is none left the channel is closed. A closing
burst becomes readable together with the close signal.
-/

namespace Rollout.Rehearsal

structure Burst where
  stdout : Bytes := []
  stderr : Bytes := []
  closes : Bool := false

structure Channel where
  bursts : List Burst := []
  exit : Except Failure Int := .ok 0
  stdout : Bytes := []
  stderr : Bytes := []
  closed : Bool := false
  largestRead : Nat := 0
  waits : Nat := 0

namespace Burst

def weight (b : Burst) : Nat := b.stdout.length + b.stderr.length + 1

def weights : List Burst → Nat
  | [] => 0
  | b :: rest => b.weight + weights rest

end Burst

namespace Channel

def readOut (limit : Nat) (c : Channel) : Bytes × Channel :=
  let taken := c.stdout.take limit
  (taken, { c with stdout := c.stdout.drop limit, largestRead := max c.largestRead taken.length })

def readErr (limit : Nat) (c : Channel) : Bytes × Channel :=
  let taken := c.stderr.take limit
  (taken, { c with stderr := c.stderr.drop limit, largestRead := max c.largestRead taken.length })

def isClosed (c : Channel) : Bool × Channel :=
  if c.closed then (true, c)
  else match c.bursts with
    | [] => (true, { c with closed := true })
    | b :: rest =>
      (b.closes,
        { c with
          bursts := rest, stdout := c.stdout ++ b.stdout, stderr := c.stderr ++ b.stderr,
          closed := b.closes })

def await (c : Channel) : Channel := { c with waits := c.waits + 1 }

def backlog (c : Channel) : Nat :=
  c.stdout.length + c.stderr.length + Burst.weights c.bursts

theorem backlog_readOut (n : Nat) (c : Channel) :
    (c.readOut n).2.backlog + (c.readOut n).1.length = c.backlog := by
  simp only [readOut, backlog, List.length_drop, List.length_take]
  omega

theorem backlog_readErr (n : Nat) (c : Channel) :
    (c.readErr n).2.backlog + (c.readErr n).1.length = c.backlog := by
  simp only [readErr, backlog, List.length_drop, List.length_take]
  omega

theorem backlog_isClosed {c : Channel} (h : c.isClosed.1 = false) :
    c.isClosed.2.backlog < c.backlog := by
  simp only [isClosed] at h ⊢
  split at h
  · simp at h
  · rename_i hc
    simp only [hc]
    split at h
    · simp at h
    · rename_i b rest hb
      simp only [hb, backlog, Burst.weights, Burst.weight]
      simp
      omega

theorem backlog_open {c : Channel} (ho : c.stdout = []) (he : c.stderr = [])
    (h : (c.isClosed.1 && c.isClosed.2.stdout.isEmpty && c.isClosed.2.stderr.isEmpty) = false) :
    c.isClosed.2.backlog < c.backlog := by
  obtain ⟨bursts, exit, stdout, stderr, closed, _, _⟩ := c
  subst ho he
  cases closed with
  | true => simp [isClosed] at h
  | false =>
    cases bursts with
    | nil => simp [isClosed] at h
    | cons b rest =>
      simp only [isClosed, backlog, Burst.weights, Burst.weight]
      simp

instance : ExecChannel Channel where
  readOut n c := ((.ok (c.readOut n).1), (c.readOut n).2)
  readErr n c := ((.ok (c.readErr n).1), (c.readErr n).2)
  isClosed c := c.isClosed
  await _ c := (.ok (), c.await)
  exitCode c := (c.exit, c)

instance : ExecChannel.Ends Channel where
  backlog c := c.backlog
  backlog_readOut := by
    intro n c bs h
    cases h
    exact Nat.le_of_eq (c.backlog_readOut n)
  backlog_readErr := by
    intro n c bs h
    cases h
    exact Nat.le_of_eq (c.backlog_readErr n)
  backlog_idle := by
    intro n c _ _ _ h
    have h₀ : ((c.readOut n).2.readErr n).2.isClosed.2.backlog < _ := backlog_isClosed h
    have h₁ := c.backlog_readOut n
    have h₂ := (c.readOut n).2.backlog_readErr n
    change ((c.readOut n).2.readErr n).2.isClosed.2.backlog < c.backlog
    omega
  backlog_await := by
    intro _ c _
    exact Nat.le_refl _

end Channel

end Rollout.Rehearsal
