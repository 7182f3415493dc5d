import Rollout.Proofs.Recorded
import Rollout.Proofs.Schedule

/-!
Bytes that a wait has caught. They are parked, and handed out before the channel is read again, so
that the standard output stays whole and in order however waits and reads follow each other; and what
a command says is what is captured of it, whenever it arrives.
-/

namespace Rollout

open Ssh (Stream)

@[simp] theorem Capture.bytes_empty (s : Stream) : ({} : Capture).bytes s = [] := by
  cases s <;> rfl

@[simp] theorem Scheduled.only_nil (s t : Stream) : only s [] t = [] := by
  cases s <;> cases t <;> rfl

theorem Scheduled.only_append (s : Stream) (a b : Bytes) (t : Stream) :
    only s a t ++ only s b t = only s (a ++ b) t := by
  cases s <;> cases t <;> rfl

namespace ExecChannel

variable {χ : Type} [ExecChannel χ] {P : χ → Prop} {owed : χ → Stream → Bytes}

/-- Channels that keep what they owe: no call fails, only a read takes off what is owed, and a closed
channel owes nothing. -/
structure Delivers (P : χ → Prop) (owed : χ → Stream → Bytes) : Prop where
  readOut : ∀ {limit c r c'}, readOut limit c = (r, c') → P c → ∃ b, r = .ok b ∧ P c' ∧
    ∀ s, Scheduled.only .stdout b s ++ owed c' s = owed c s
  readErr : ∀ {limit c r c'}, readErr limit c = (r, c') → P c → ∃ b, r = .ok b ∧ P c' ∧
    ∀ s, Scheduled.only .stderr b s ++ owed c' s = owed c s
  isClosed : ∀ {c r c'}, isClosed c = (r, c') → P c → P c' ∧ (∀ s, owed c' s = owed c s) ∧
    (r = true → ∀ s, owed c s = [])
  await : ∀ {interval c r c'}, await interval c = (r, c') → P c → r = .ok () ∧ P c' ∧
    ∀ s, owed c' s = owed c s

variable [Ends χ]

namespace Delivers

theorem drain (h : Delivers P owed) (limit : Nat) (c : χ) (captured : Capture) (hc : P c) :
    ∃ k c', drain limit c captured = (.ok k, c') ∧ P c' ∧
      ∀ s, k.bytes s ++ owed c' s = captured.bytes s ++ owed c s := by
  fun_induction ExecChannel.drain limit c captured with
  | case1 c captured e c₁ hout =>
    obtain ⟨_, ⟨⟩, -⟩ := h.readOut hout hc
  | case2 c captured out c₁ hout e c₂ herr =>
    obtain ⟨_, ⟨⟩, hc₁, -⟩ := h.readOut hout hc
    obtain ⟨_, ⟨⟩, -⟩ := h.readErr herr hc₁
  | case3 c captured out c₁ hout err c₂ herr hnone =>
    obtain ⟨rfl, rfl⟩ := hnone
    obtain ⟨_, ⟨⟩, hc₁, howed₁⟩ := h.readOut hout hc
    obtain ⟨_, ⟨⟩, hc₂, howed₂⟩ := h.readErr herr hc₁
    refine ⟨captured, c₂, rfl, hc₂, fun s => ?_⟩
    rw [← howed₁, ← howed₂]
    cases s <;> simp [Scheduled.only]
  | case4 c captured out c₁ hout err c₂ herr _ ih =>
    obtain ⟨_, ⟨⟩, hc₁, howed₁⟩ := h.readOut hout hc
    obtain ⟨_, ⟨⟩, hc₂, howed₂⟩ := h.readErr herr hc₁
    obtain ⟨k, last, hdrain, hlast, hk⟩ := ih hc₂
    refine ⟨k, last, hdrain, hlast, fun s => ?_⟩
    rw [hk, ← howed₁, ← howed₂]
    cases s <;> simp [Capture.push, Capture.bytes, Scheduled.only]

theorem watch (h : Delivers P owed) (limit : Nat) (interval : Duration) (hl : 0 < limit) (c : χ)
    (captured : Capture) (hc : P c) :
    ∃ k c', watch limit interval hl c captured = (.ok k, c') ∧
      ∀ s, k.bytes s = captured.bytes s ++ owed c s := by
  have drained {c c₁ : χ} {r : Except Failure Capture} (captured : Capture)
      (hd : ExecChannel.drain limit c {} = (r, c₁)) (hc : P c) : ∃ more, r = .ok more ∧ P c₁ ∧
        ∀ s, (captured.followedBy more).bytes s ++ owed c₁ s = captured.bytes s ++ owed c s := by
    obtain ⟨k, c', hdrain, hc₁, hk⟩ := h.drain limit c {} hc
    rw [hd] at hdrain
    cases hdrain
    refine ⟨k, rfl, hc₁, fun s => ?_⟩
    rw [Capture.bytes_followedBy, List.append_assoc, hk, Capture.bytes_empty, List.nil_append]
  fun_induction ExecChannel.watch limit interval hl c captured with
  | case1 c captured e c₁ hd =>
    obtain ⟨_, ⟨⟩, -⟩ := drained captured hd hc
  | case2 c captured more c₁ hd c₂ hclosed last =>
    obtain ⟨_, ⟨⟩, hc₁, hmore⟩ := drained captured hd hc
    obtain ⟨hc₂, howed, hnone⟩ := h.isClosed hclosed hc₁
    obtain ⟨k, hlast, -, hk⟩ := drained (captured.followedBy more) (c := c₂) rfl hc₂
    refine ⟨(captured.followedBy more).followedBy k, last.2, ?_, fun s => ?_⟩
    · rw [hlast]
      rfl
    · -- A closed channel owes nothing, so the last drain finds nothing.
      have hrest := hk s
      rw [Capture.bytes_followedBy, List.append_assoc, howed, hnone rfl,
        List.append_cancel_left_eq] at hrest
      rw [Capture.bytes_followedBy, (List.append_eq_nil_iff.mp hrest).1, ← hmore, hnone rfl]
  | case3 c captured more c₁ hd c₂ hopen _ e c₃ hw =>
    obtain ⟨_, ⟨⟩, hc₁, -⟩ := drained captured hd hc
    obtain ⟨hc₂, -⟩ := h.isClosed hopen hc₁
    obtain ⟨⟨⟩, -⟩ := h.await hw hc₂
  | case4 c captured more c₁ hd c₂ hopen _ c₃ hw ih =>
    obtain ⟨_, ⟨⟩, hc₁, hmore⟩ := drained captured hd hc
    obtain ⟨hc₂, howed, -⟩ := h.isClosed hopen hc₁
    obtain ⟨-, hc₃, howed'⟩ := h.await hw hc₂
    obtain ⟨k, last, hwatch, hk⟩ := ih hc₃
    exact ⟨k, last, hwatch, fun s => by rw [hk, howed', howed, hmore]⟩
  | case5 c captured more c₁ hd c₂ hopen _ ih =>
    obtain ⟨_, ⟨⟩, hc₁, hmore⟩ := drained captured hd hc
    obtain ⟨hc₂, howed, -⟩ := h.isClosed hopen hc₁
    obtain ⟨k, last, hwatch, hk⟩ := ih hc₂
    exact ⟨k, last, hwatch, fun s => by rw [hk, howed, hmore]⟩

theorem run (h : Delivers P owed) (polling : Polling) (c : χ) (hc : P c) :
    (run polling c).1 = (exitCode (follow polling c).2).1.map fun code =>
      ⟨code, owed c .stdout, owed c .stderr⟩ := by
  obtain ⟨k, c', hfollow, hk⟩ :=
    h.watch (max polling.chunkSize 1) polling.interval (by omega) c {} hc
  change follow polling c = _ at hfollow
  have hout : k.stdout.reverse.flatten = owed c .stdout := hk .stdout
  have herr : k.stderr.reverse.flatten = owed c .stderr := hk .stderr
  rw [ExecChannel.run, hfollow, ← hout, ← herr]
  rfl

end Delivers

end ExecChannel

namespace Ssh

/-! ### Whatever the peer answers -/

namespace Channel

variable {σ : Type} [Peer σ]

theorem boundedRead_taken (session handle : Handle) (interval : Duration) (w : Recorded σ) :
    ∃ more, (boundedRead session handle interval w).2.log = w.log ++ more ∧
      taken handle .stdout more = received (boundedRead session handle interval w).1 ∧
      ∀ a ∈ more, ∀ h limit, a.1 ≠ .read h .stderr limit := by
  refine ⟨_, log_boundedRead session handle interval w, ?_, by simp⟩
  simp [taken]

theorem await_stdout_only (interval : Duration) (c : Channel (Recorded σ)) :
    ∃ more, (c.await interval).2.peer.log = c.peer.log ++ more ∧
      ∀ a ∈ more, ∀ h limit, a.1 ≠ .read h .stderr limit := by
  obtain hsame | ⟨-, -, hread⟩ := await_cases interval c
  · rw [hsame]
    exact ⟨[], (List.append_nil _).symm, by simp⟩
  · rw [hread]
    obtain ⟨more, hlog, -, hstdout⟩ := boundedRead_taken c.session c.handle interval c.peer
    exact ⟨more, hlog, hstdout⟩

theorem perform_taken (c : Channel (Recorded σ)) (act : Act) :
    ∃ more, (c.perform act).2.peer.log = c.peer.log ++ more ∧
      c.parked ++ taken c.handle .stdout more = (c.perform act).1 ++ (c.perform act).2.parked := by
  cases act with
  | readOut limit =>
    by_cases hparked : c.parked = []
    · rw [perform, readOut_of_none limit hparked]
      refine ⟨[⟨.read c.handle .stdout limit, (ask (.read c.handle .stdout limit) c.peer).1⟩], rfl, ?_⟩
      simp [hparked, taken, handed_outcome]
    · rw [perform, readOut_of_parked limit hparked]
      exact ⟨[], (List.append_nil _).symm, by simp [taken, handed]⟩
  | readErr limit =>
    refine ⟨[⟨.read c.handle .stderr limit, (ask (.read c.handle .stderr limit) c.peer).1⟩], rfl, ?_⟩
    simp [perform, readErr, taken]
  | look =>
    refine ⟨[⟨.atEnd c.handle, (ask (.atEnd c.handle) c.peer).1⟩], rfl, ?_⟩
    simp [perform, isClosed, taken]
  | await interval =>
    obtain hsame | ⟨hnone, -, hread⟩ := await_cases interval c
    · simp only [perform, hsame]
      exact ⟨[], (List.append_nil _).symm, List.append_nil _⟩
    · simp only [perform, hread]
      obtain ⟨more, hlog, htaken, -⟩ := boundedRead_taken c.session c.handle interval c.peer
      exact ⟨more, hlog, by rw [hnone, htaken]⟩

theorem performAll_taken (c : Channel (Recorded σ)) (acts : List Act) :
    ∃ more, (c.performAll acts).2.peer.log = c.peer.log ++ more ∧
      c.parked ++ taken c.handle .stdout more =
        (c.performAll acts).1 ++ (c.performAll acts).2.parked := by
  induction acts generalizing c with
  | nil => exact ⟨[], (List.append_nil _).symm, List.append_nil _⟩
  | cons act rest ih =>
    -- What is parked after the first act is what the others start with.
    obtain ⟨more, hlog, htaken⟩ := perform_taken c act
    obtain ⟨later, hlog', htaken'⟩ := ih (c.perform act).2
    rw [(c.perform_kept act).2] at htaken'
    refine ⟨more ++ later, ?_, ?_⟩
    · rw [performAll, hlog', hlog, List.append_assoc]
    · rw [taken_append, ← List.append_assoc, htaken, List.append_assoc, htaken',
        ← List.append_assoc]
      rfl

theorem parked_of_isClosed (c : Channel σ) (h : c.isClosed.1 = true) : c.parked = [] :=
  List.isEmpty_iff.mp (Bool.and_eq_true_iff.mp h).2

end Channel

/-! ### Output that comes in over time -/

inductive Lull
  | nothing
  | wouldBlock
  | timedOut (reason : String)

def Lull.reply (blocking : Bool) : Lull → Except ReadFault Bytes
  | .nothing => .ok []
  | .wouldBlock => .error .wouldBlock
  | .timedOut reason => if blocking then .error (.timedOut reason) else .error .wouldBlock

@[simp] theorem Lull.received_reply (blocking : Bool) (l : Lull) :
    received (l.reply blocking) = [] := by
  cases l <;> cases blocking <;> rfl

@[simp] theorem Lull.caught_reply (blocking : Bool) (l : Lull) :
    Channel.caught (l.reply blocking) = .ok [] := by
  cases l <;> cases blocking <;> rfl

@[simp] theorem Lull.outcome_reply (operation : String) (l : Lull) :
    Channel.outcome operation (l.reply false) = .ok [] := by
  cases l <;> rfl

def obliging : (c : Call) → c.Reply
  | .resolve .. => some ["198.51.100.7:22"]
  | .dial .. | .setUp _ | .openChannel _ | .openSftp _ | .create .. => .ok 0
  | .setBlocking .. | .setTimeout .. => ()
  | .handshake _ | .offerKeyFile .. | .offerAgentKey .. | .leaveAgent _ => .ok ()
  | .exec .. | .awaitClose _ => .ok ()
  | .agentKeys _ | .read .. => .ok []
  | .isAuthenticated _ | .atEnd _ => true
  | .exitStatus _ => .ok 0
  | .exitSignal _ => .ok none
  | .write _ bytes => .ok bytes.length

/-- A session with one running command, whose output comes in over time. -/
structure Wire where
  coming : List (Stream → Bytes)
  /-- Most bytes that a read brings; one at least. -/
  share : Nat → Nat
  lull : Nat → Lull
  reply : Nat → (c : Call) → c.Reply
  queue : Stream → Bytes := fun _ => []
  blocking : Bool := false
  time : Nat := 0

namespace Wire

open Scheduled (only)

def arrived (w : Wire) : Wire :=
  { w with
    coming := w.coming.drop 1
    queue := fun s => w.queue s ++ (w.coming.take 1).flatMap (· s)
    time := w.time + 1 }

def owed (w : Wire) (s : Stream) : Bytes := w.queue s ++ w.coming.flatMap (· s)

def read (s : Stream) (limit : Nat) (w : Wire) : Except ReadFault Bytes × Wire :=
  if w.arrived.queue s = [] then ((w.lull w.time).reply w.blocking, w.arrived)
  else
    let most := min (max 1 (w.share w.time)) limit
    (.ok ((w.arrived.queue s).take most),
      { w.arrived with
        queue := Function.update w.arrived.queue s ((w.arrived.queue s).drop most) })

def atEnd (w : Wire) : Bool :=
  w.coming.isEmpty && (w.queue .stdout).isEmpty && (w.queue .stderr).isEmpty

def answer : (c : Call) → Wire → c.Reply × Wire
  | .read _ s limit, w => w.read s limit
  | .atEnd _, w => (w.arrived.atEnd, w.arrived)
  | .setBlocking _ blocking, w => ((), { w with blocking })
  | c, w => (w.reply w.time c, { w with time := w.time + 1 })

@[simp] theorem owed_arrived (w : Wire) (s : Stream) : w.arrived.owed s = w.owed s := by
  rw [owed, arrived, List.append_assoc, ← List.flatMap_append, List.take_append_drop, owed]

theorem owed_of_atEnd {w : Wire} (h : w.atEnd = true) (s : Stream) : w.owed s = [] := by
  simp only [atEnd, Bool.and_eq_true, List.isEmpty_iff] at h
  obtain ⟨⟨hcoming, hout⟩, herr⟩ := h
  cases s <;> simp [owed, *]

theorem read_owed (s : Stream) (limit : Nat) (w : Wire) (t : Stream) :
    only s (received (w.read s limit).1) t ++ (w.read s limit).2.owed t = w.owed t := by
  rw [← owed_arrived w t, read]
  split
  · by_cases hs : t = s <;> simp [only, hs]
  · by_cases hs : t = s
    · subst hs
      simp only [only, received, owed, Function.update_self]
      rw [← List.append_assoc, List.take_append_drop]
    · simp [only, owed, hs]

@[simp] theorem read_coming (s : Stream) (limit : Nat) (w : Wire) :
    (w.read s limit).2.coming = w.coming.drop 1 := by
  rw [read]
  split <;> rfl

@[simp] theorem read_blocking (s : Stream) (limit : Nat) (w : Wire) :
    (w.read s limit).2.blocking = w.blocking := by
  rw [read]
  split <;> rfl

theorem outcome_read (operation : String) (s : Stream) (limit : Nat) {w : Wire}
    (h : w.blocking = false) :
    Channel.outcome operation (w.read s limit).1 = .ok (received (w.read s limit).1) := by
  rw [read]
  split
  · simp [h]
  · rfl

theorem caught_read (s : Stream) (limit : Nat) (w : Wire) :
    Channel.caught (w.read s limit).1 = .ok (received (w.read s limit).1) := by
  rw [read]
  split
  · simp
  · rfl

def backlog (w : Wire) : Nat :=
  (w.owed .stdout).length + (w.owed .stderr).length + w.coming.length

theorem backlog_arrived (w : Wire) : w.arrived.backlog + min 1 w.coming.length = w.backlog := by
  simp only [backlog, owed_arrived]
  simp only [arrived, List.length_drop]
  omega

theorem backlog_read (s : Stream) (limit : Nat) (w : Wire) :
    (w.read s limit).2.backlog + (received (w.read s limit).1).length + min 1 w.coming.length =
      w.backlog := by
  have hout := congrArg List.length (read_owed s limit w .stdout)
  have herr := congrArg List.length (read_owed s limit w .stderr)
  simp only [List.length_append] at hout herr
  simp only [backlog, read_coming, List.length_drop]
  cases s <;> simp [only] at hout herr <;> omega

theorem queue_of_idle {s : Stream} {limit : Nat} {w : Wire} (hl : 0 < limit)
    (h : isIdle (w.read s limit).1 = true) : (w.read s limit).2.queue = w.arrived.queue ∧
      w.arrived.queue s = [] := by
  rw [read] at h ⊢
  split
  · rename_i hnone
    exact ⟨rfl, hnone⟩
  · rename_i hsome
    rw [if_neg hsome] at h
    simp only [isIdle, List.isEmpty_iff, List.take_eq_nil_iff] at h
    exact absurd (h.resolve_left (by omega)) hsome

theorem queue_arrived {w : Wire} (h : w.coming = []) : w.arrived.queue = w.queue := by
  simp [arrived, h]

theorem atEnd_of_idle {limit : Nat} {w : Wire} (hcoming : w.coming = []) (hl : 0 < limit)
    (hout : isIdle (w.read .stdout limit).1 = true)
    (herr : isIdle ((w.read .stdout limit).2.read .stderr limit).1 = true) :
    ((w.read .stdout limit).2.read .stderr limit).2.arrived.atEnd = true := by
  obtain ⟨hq₁, hnone₁⟩ := queue_of_idle hl hout
  obtain ⟨hq₂, hnone₂⟩ := queue_of_idle hl herr
  have hcoming₁ : (w.read .stdout limit).2.coming = [] := by simp [hcoming]
  have hcoming₂ : ((w.read .stdout limit).2.read .stderr limit).2.coming = [] := by simp [hcoming]
  rw [queue_arrived hcoming] at hq₁ hnone₁
  rw [queue_arrived hcoming₁, hq₁] at hq₂ hnone₂
  rw [atEnd, queue_arrived hcoming₂, hq₂, hnone₁, hnone₂]
  simp [arrived, hcoming]

end Wire

instance : Peer Wire where
  answer := Wire.answer

instance : EndsCommands Wire where
  backlog := Wire.backlog
  backlog_setBlocking := Nat.le_refl _
  backlog_setTimeout := Nat.le_refl _
  backlog_read {_ s limit w} := by
    have := w.backlog_read s limit
    change (w.read s limit).2.backlog + (received (w.read s limit).1).length ≤ w.backlog
    omega
  backlog_idle {_ limit w} hl hout herr hopen := by
    change isIdle (w.read .stdout limit).1 = true at hout
    change isIdle ((w.read .stdout limit).2.read .stderr limit).1 = true at herr
    change ((w.read .stdout limit).2.read .stderr limit).2.arrived.atEnd = false at hopen
    change ((w.read .stdout limit).2.read .stderr limit).2.arrived.backlog < w.backlog
    have h₁ := w.backlog_read .stdout limit
    have h₂ := (w.read .stdout limit).2.backlog_read .stderr limit
    have h₃ := ((w.read .stdout limit).2.read .stderr limit).2.backlog_arrived
    cases hcoming : w.coming with
    | cons now later =>
      rw [hcoming, List.length_cons] at h₁
      omega
    | nil =>
      rw [Wire.atEnd_of_idle hcoming hl hout herr] at hopen
      cases hopen

namespace Channel

open Scheduled (only)

def owed (c : Channel Wire) (s : Stream) : Bytes := only .stdout c.parked s ++ c.peer.owed s

theorem boundedRead_owed (session handle : Handle) (interval : Duration) (w : Wire) :
    let read := boundedRead session handle interval w
    caught read.1 = .ok (received read.1) ∧ read.2.blocking = false ∧
      ∀ s, w.owed s = only .stdout (received read.1) s ++ read.2.owed s := by
  let waiting : Wire := { w with blocking := true, time := w.time + 1 }
  exact ⟨Wire.caught_read .stdout waitChunk waiting, rfl,
    fun s => (Wire.read_owed .stdout waitChunk waiting s).symm⟩

theorem delivers : ExecChannel.Delivers (fun c : Channel Wire => c.peer.blocking = false) owed where
  readOut {limit c r c'} hread hc := by
    change c.readOut limit = (r, c') at hread
    by_cases hparked : c.parked = []
    · rw [readOut_of_none limit hparked] at hread
      obtain ⟨rfl, rfl⟩ := Prod.mk.inj hread
      refine ⟨_, Wire.outcome_read _ _ _ hc, (Wire.read_blocking ..).trans hc, fun s => ?_⟩
      simp only [owed, hparked, Scheduled.only_nil]
      exact Wire.read_owed .stdout limit c.peer s
    · rw [readOut_of_parked limit hparked] at hread
      obtain ⟨rfl, rfl⟩ := Prod.mk.inj hread
      refine ⟨_, rfl, hc, fun s => ?_⟩
      rw [owed, ← List.append_assoc, Scheduled.only_append, List.take_append_drop]
      rfl
  readErr {limit c r c'} hread hc := by
    obtain ⟨rfl, rfl⟩ := Prod.mk.inj (show (_, _) = (r, c') from hread)
    refine ⟨_, Wire.outcome_read _ _ _ hc, (Wire.read_blocking ..).trans hc, fun s => ?_⟩
    have howed := Wire.read_owed .stderr limit c.peer s
    rw [owed, owed, ← howed]
    cases s <;> rfl
  isClosed {c r c'} hlook hc := by
    obtain ⟨rfl, rfl⟩ := Prod.mk.inj (show (_, _) = (r, c') from hlook)
    have howed (s : Stream) : c.peer.arrived.owed s = c.peer.owed s := Wire.owed_arrived _ s
    refine ⟨hc, fun s => congrArg _ (howed s), fun h s => ?_⟩
    obtain ⟨hended, hnone⟩ := Bool.and_eq_true_iff.mp h
    rw [owed, List.isEmpty_iff.mp hnone, ← howed, Wire.owed_of_atEnd hended, Scheduled.only_nil]
    rfl
  await {interval c r c'} hwait hc := by
    change c.await interval = (r, c') at hwait
    have hcases := await_cases interval c
    rw [hwait] at hcases
    obtain ⟨⟨⟩⟩ | ⟨hnone, rfl, rfl⟩ := hcases
    · exact ⟨rfl, hc, fun s => rfl⟩
    · obtain ⟨hcaught, hblocking, howed⟩ := boundedRead_owed c.session c.handle interval c.peer
      rw [hcaught]
      refine ⟨rfl, hblocking, fun s => ?_⟩
      rw [owed, owed, howed, hnone, Scheduled.only_nil]
      rfl

/-- However the output comes in, and whatever is done to watch it: what is handed out of the standard
output, and what is parked after it, is what was read of it; parked bytes keep a command from being
closed; and no wait reads the standard error. So a command that is run gives both streams whole. -/
theorem loses_nothing :
    (∀ (σ : Type) [Peer σ] (w : σ) (session handle : Handle) (acts : List Act),
      let performed := (Channel.mk (Recorded.mk w []) session handle []).performAll acts
      performed.1 ++ performed.2.parked = taken handle .stdout performed.2.peer.log ∧
      (performed.2.isClosed.1 = true → performed.2.parked = []) ∧
      ∀ interval, ∃ more, (performed.2.await interval).2.peer.log = performed.2.peer.log ++ more ∧
        ∀ a ∈ more, ∀ h limit, a.1 ≠ .read h .stderr limit) ∧
    ∀ (polling : Polling) (coming : List (Stream → Bytes)) (share : Nat → Nat) (lull : Nat → Lull)
      (reply : Nat → (c : Call) → c.Reply) (session handle : Handle),
      let channel := Channel.mk ({ coming, share, lull, reply } : Wire) session handle []
      (ExecChannel.run polling channel).1 =
        (ExecChannel.exitCode (ExecChannel.follow polling channel).2).1.map fun code =>
          ⟨code, coming.flatMap (· .stdout), coming.flatMap (· .stderr)⟩ := by
  constructor
  · intro σ _ w session handle acts performed
    refine ⟨?_, parked_of_isClosed _, fun interval => await_stdout_only interval _⟩
    obtain ⟨more, hlog, htaken⟩ :=
      performAll_taken (Channel.mk (Recorded.mk w []) session handle []) acts
    change performed.2.peer.log = [] ++ more at hlog
    rw [hlog]
    exact htaken.symm
  · intro polling coming share lull reply session handle channel
    exact delivers.run polling channel rfl

end Channel

end Ssh

end Rollout
