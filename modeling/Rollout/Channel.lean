import Rollout.Transport

/-!
Watching one remote command until its channel is closed and both streams are drained. A close signal
does not mean that nothing is left to read, so both streams are drained once more before the exit
code is asked for.
-/

namespace Rollout

/-- A running remote command. A read gives what is there, and nothing is not the end. -/
class ExecChannel (χ : Type) where
  readOut : (limit : Nat) → χ → Except Failure Bytes × χ
  readErr : (limit : Nat) → χ → Except Failure Bytes × χ
  isClosed : χ → Bool × χ
  await : (interval : Duration) → χ → Except Failure Unit × χ
  exitCode : χ → Except Failure Int × χ

open ExecChannel in
/-- Commands that end. The backlog bounds what a channel still has to say: reading takes it down, and
so does a round that reads nothing of either stream and still finds the channel open. A command
without one can be watched for ever. -/
class ExecChannel.Ends (χ : Type) [ExecChannel χ] where
  backlog : χ → Nat
  backlog_readOut : ∀ {n c b}, (readOut n c).1 = .ok b → backlog (readOut n c).2 + b.length ≤ backlog c
  backlog_readErr : ∀ {n c b}, (readErr n c).1 = .ok b → backlog (readErr n c).2 + b.length ≤ backlog c
  backlog_idle : ∀ {n c}, 0 < n → (readOut n c).1 = .ok [] → (readErr n (readOut n c).2).1 = .ok [] →
    (isClosed (readErr n (readOut n c).2).2).1 = false →
    backlog (isClosed (readErr n (readOut n c).2).2).2 < backlog c
  backlog_await : ∀ {n c}, (await n c).1 = .ok () → backlog (await n c).2 ≤ backlog c

structure Capture where
  stdout : List Bytes := []
  stderr : List Bytes := []

namespace Capture

def isEmpty (c : Capture) : Bool := c.stdout.isEmpty

def push (c : Capture) (out err : Bytes) : Capture := ⟨out :: c.stdout, err :: c.stderr⟩

def followedBy (c later : Capture) : Capture := ⟨later.stdout ++ c.stdout, later.stderr ++ c.stderr⟩

def result (c : Capture) (exitCode : Int) : CommandResult :=
  ⟨exitCode, c.stdout.reverse.flatten, c.stderr.reverse.flatten⟩

end Capture

namespace ExecChannel

open Ends (backlog backlog_readOut backlog_readErr backlog_idle backlog_await)

variable {χ : Type} [ExecChannel χ]

def drain [Ends χ] (limit : Nat) (ch : χ) (captured : Capture) : Except Failure Capture × χ :=
  match _ho : readOut limit ch with
  | (.error e, ch₁) => (.error e, ch₁)
  | (.ok out, ch₁) =>
    match _he : readErr limit ch₁ with
    | (.error e, ch₂) => (.error e, ch₂)
    | (.ok err, ch₂) =>
      if _hn : out = [] ∧ err = [] then (.ok captured, ch₂)
      else drain limit ch₂ (captured.push out err)
termination_by backlog ch
decreasing_by
  have h₁ := backlog_readOut (n := limit) (c := ch) (b := out) (by simp [_ho])
  have h₂ := backlog_readErr (n := limit) (c := ch₁) (b := err) (by simp [_he])
  simp only [_ho, _he] at h₁ h₂
  have : 0 < out.length + err.length := by
    cases out with
    | cons => exact Nat.lt_of_lt_of_le (by simp) (Nat.le_add_right _ _)
    | nil =>
      cases err with
      | cons => simp
      | nil => simp_all
  omega

theorem drain_ends_idle [Ends χ] (limit : Nat) (ch : χ) (captured : Capture) {c : Capture}
    (h : (drain limit ch captured).1 = .ok c) :
    ∃ last : χ, backlog last ≤ backlog ch ∧ (readOut limit last).1 = .ok [] ∧
      (readErr limit (readOut limit last).2).1 = .ok [] ∧
      (readErr limit (readOut limit last).2).2 = (drain limit ch captured).2 := by
  fun_induction drain limit ch captured with
  | case1 => simp at h
  | case2 => simp at h
  | case3 ch captured out ch₁ ho err ch₂ he hn =>
    obtain ⟨rfl, rfl⟩ := hn
    exact ⟨ch, Nat.le_refl _, by simp [ho], by simp [ho, he], by simp [ho, he]⟩
  | case4 ch captured out ch₁ ho err ch₂ he hn ih =>
    have h₁ := backlog_readOut (n := limit) (c := ch) (b := out) (by simp [ho])
    have h₂ := backlog_readErr (n := limit) (c := ch₁) (b := err) (by simp [he])
    simp only [ho, he] at h₁ h₂
    obtain ⟨last, hb, rest⟩ := ih h
    exact ⟨last, by omega, rest⟩

theorem backlog_open_after_drain [Ends χ] {limit : Nat} (hl : 0 < limit) (ch : χ)
    (captured : Capture) {c : Capture} (h : (drain limit ch captured).1 = .ok c)
    (ho : (isClosed (drain limit ch captured).2).1 = false) :
    backlog (isClosed (drain limit ch captured).2).2 < backlog ch := by
  obtain ⟨last, hb, hout, herr, hlast⟩ := drain_ends_idle limit ch captured h
  rw [← hlast] at ho ⊢
  exact Nat.lt_of_lt_of_le (backlog_idle hl hout herr ho) hb

/-- Drains and looks whether the channel is closed, waiting in between when nothing came. A closed
channel is drained once more. -/
def watch [Ends χ] (limit : Nat) (interval : Duration) (hl : 0 < limit) (ch : χ)
    (captured : Capture) :
    Except Failure Capture × χ :=
  match _hd : drain limit ch {} with
  | (.error e, ch₁) => (.error e, ch₁)
  | (.ok more, ch₁) =>
    match _hc : isClosed ch₁ with
    | (true, ch₂) =>
      let last := drain limit ch₂ {}
      (last.1.map (captured.followedBy more).followedBy, last.2)
    | (false, ch₂) =>
      if more.isEmpty then
        match _hw : await interval ch₂ with
        | (.error e, ch₃) => (.error e, ch₃)
        | (.ok (), ch₃) => watch limit interval hl ch₃ (captured.followedBy more)
      else watch limit interval hl ch₂ (captured.followedBy more)
termination_by backlog ch
decreasing_by
  all_goals
    have h₁ := backlog_open_after_drain hl ch {} (c := more) (by simp [_hd]) (by simp [_hd, _hc])
    simp only [_hd, _hc] at h₁
  · have h₂ := backlog_await (n := interval) (c := ch₂) (by simp [_hw])
    simp only [_hw] at h₂
    omega
  · omega

def follow [Ends χ] (polling : Polling) (ch : χ) : Except Failure Capture × χ :=
  watch (max polling.chunkSize 1) polling.interval (by omega) ch {}

/-- Runs a channel to its end, and asks for the exit code. A command that exits with a code other
than zero has not failed. -/
def run [Ends χ] (polling : Polling) (ch : χ) : Except Failure CommandResult × χ :=
  match follow polling ch with
  | (.error e, ch) => (.error e, ch)
  | (.ok captured, ch) =>
    let code := exitCode ch
    (code.1.map captured.result, code.2)

end ExecChannel

end Rollout
