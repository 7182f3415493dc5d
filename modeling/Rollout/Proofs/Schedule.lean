import Mathlib.Data.List.Basic
import Mathlib.Logic.Function.Basic
import Rollout.Proofs.Channel
import Rollout.Ssh.Peer

/-!
Watching a channel of which the other side sends, closes and fails as it likes between two calls.
All that it sends is read once and in order, and the exit code is asked for last.
-/

namespace Rollout

open Ssh (Stream)

/-- What happens to a channel, by the number of calls made on it before. -/
structure Schedule where
  closing : Nat
  sent : Stream → Nat → Bytes
  share : Nat → Nat
  fault : Nat → Option Failure
  code : Int

namespace Schedule

variable (schedule : Schedule)

def due (s : Stream) (n : Nat) : Bytes := if n ≤ schedule.closing then schedule.sent s n else []

def upcoming (s : Stream) (n : Nat) : Bytes :=
  (List.range' n (schedule.closing + 1 - n)).flatMap (schedule.sent s)

def all (s : Stream) : Bytes := (List.range (schedule.closing + 1)).flatMap (schedule.sent s)

theorem due_append_upcoming (s : Stream) (n : Nat) :
    schedule.due s n ++ schedule.upcoming s (n + 1) = schedule.upcoming s n := by
  rw [due, upcoming, upcoming]
  split
  · rename_i h
    have hsplit : schedule.closing + 1 - n = schedule.closing + 1 - (n + 1) + 1 := by omega
    rw [hsplit, List.range'_succ, List.flatMap_cons]
  · have hnone : schedule.closing + 1 - n = 0 := by omega
    have hnone' : schedule.closing + 1 - (n + 1) = 0 := by omega
    rw [hnone, hnone']
    rfl

theorem upcoming_of_closed {n : Nat} (s : Stream) (h : schedule.closing < n) :
    schedule.upcoming s n = [] := by
  have hnone : schedule.closing + 1 - n = 0 := by omega
  rw [upcoming, hnone]
  rfl

theorem upcoming_zero (s : Stream) : schedule.upcoming s 0 = schedule.all s := by
  rw [upcoming, all, List.range_eq_range']
  rfl

end Schedule

inductive ChannelCall
  | read (stream : Stream)
  | look
  | await
  | exit
  deriving DecidableEq

structure CallMade where
  call : ChannelCall
  queue : Stream → Bytes
  failure : Option Failure

/-- A channel that keeps to a schedule, and the calls made on it. -/
structure Scheduled where
  schedule : Schedule
  time : Nat := 0
  queue : Stream → Bytes := fun _ => []
  calls : List CallMade := []

namespace Capture

def bytes (k : Capture) : Stream → Bytes
  | .stdout => k.stdout.reverse.flatten
  | .stderr => k.stderr.reverse.flatten

theorem bytes_followedBy (k later : Capture) (s : Stream) :
    (k.followedBy later).bytes s = k.bytes s ++ later.bytes s := by
  cases s <;> simp [bytes, followedBy]

end Capture

namespace Scheduled

def only (s : Stream) (b : Bytes) : Stream → Bytes := Function.update (fun _ => []) s b

def arrived (c : Scheduled) : Scheduled :=
  { c with queue := fun s => c.queue s ++ c.schedule.due s c.time }

def called (call : ChannelCall) (failure : Option Failure) (c : Scheduled) : Scheduled :=
  { c.arrived with
    time := c.time + 1, calls := c.calls ++ [⟨call, c.arrived.queue, failure⟩] }

def attempt {α : Type} (call : ChannelCall) (act : Scheduled → α × Scheduled) (c : Scheduled) :
    Except Failure α × Scheduled :=
  match c.schedule.fault c.time with
  | some e => (.error e, c.called call (some e))
  | none => (.ok (act (c.called call none)).1, (act (c.called call none)).2)

def take (s : Stream) (n : Nat) (c : Scheduled) : Bytes × Scheduled :=
  ((c.queue s).take n, { c with queue := Function.update c.queue s ((c.queue s).drop n) })

def read (s : Stream) (limit : Nat) (c : Scheduled) : Except Failure Bytes × Scheduled :=
  c.attempt (.read s) (take s (min (max 1 (c.schedule.share c.time)) limit))

def isClosed (c : Scheduled) : Bool × Scheduled :=
  (c.schedule.closing ≤ c.time, c.called .look none)

def await (c : Scheduled) : Except Failure Unit × Scheduled := c.attempt .await fun c => ((), c)

def exitCode (c : Scheduled) : Except Failure Int × Scheduled :=
  c.attempt .exit fun c => (c.schedule.code, c)

def owed (c : Scheduled) (s : Stream) : Bytes := c.queue s ++ c.schedule.upcoming s c.time

def backlog (c : Scheduled) : Nat :=
  (c.owed .stdout).length + (c.owed .stderr).length + (c.schedule.closing + 1 - c.time)

/-- Calls before the exit code is asked for, none of which fails. -/
def Smooth (calls : List CallMade) : Prop := ∀ m ∈ calls, m.failure = none ∧ m.call ≠ .exit

structure Reads (c c' : Scheduled) (got : Stream → Bytes) : Prop where
  owed : ∀ s, got s ++ c'.owed s = c.owed s
  schedule : c'.schedule = c.schedule
  time : c.time ≤ c'.time
  calls : ∃ more, c'.calls = c.calls ++ more ∧ Smooth more

/-- One channel is the other after such calls and one that failed. -/
def Fails (c c' : Scheduled) (e : Failure) : Prop :=
  ∃ more last, c'.calls = c.calls ++ (more ++ [last]) ∧ Smooth more ∧
    last.failure = some e ∧ last.call ≠ .exit

variable {c c' c'' : Scheduled} {got got' : Stream → Bytes} {e : Failure}

theorem Smooth.append {calls calls' : List CallMade} (h : Smooth calls) (h' : Smooth calls') :
    Smooth (calls ++ calls') := by
  intro m hm
  rcases List.mem_append.mp hm with hm | hm
  · exact h m hm
  · exact h' m hm

theorem Reads.trans (h : Reads c c' got) (h' : Reads c' c'' got') :
    Reads c c'' fun s => got s ++ got' s := by
  obtain ⟨more, hcalls, hmore⟩ := h.calls
  obtain ⟨more', hcalls', hmore'⟩ := h'.calls
  refine ⟨fun s => ?_, h'.schedule.trans h.schedule, Nat.le_trans h.time h'.time, more ++ more', ?_,
    hmore.append hmore'⟩
  · rw [List.append_assoc, h'.owed, h.owed]
  · rw [hcalls', hcalls, List.append_assoc]

theorem Reads.fails (h : Reads c c' got) (h' : Fails c' c'' e) : Fails c c'' e := by
  obtain ⟨more, hcalls, hmore⟩ := h.calls
  obtain ⟨more', last, hcalls', hmore', hlast⟩ := h'
  refine ⟨more ++ more', last, ?_, hmore.append hmore', hlast⟩
  rw [hcalls', hcalls]
  simp

theorem owed_called (call : ChannelCall) (failure : Option Failure) (c : Scheduled) (s : Stream) :
    (c.called call failure).owed s = c.owed s := by
  change (c.queue s ++ c.schedule.due s c.time) ++ c.schedule.upcoming s (c.time + 1) = _
  rw [List.append_assoc, Schedule.due_append_upcoming]
  rfl

theorem reads_called {call : ChannelCall} (hcall : call ≠ .exit) (c : Scheduled) :
    Reads c (c.called call none) fun _ => [] :=
  ⟨owed_called call none c, rfl, Nat.le_succ _, _, rfl, by simpa [Smooth] using hcall⟩

theorem attempt_ok {α : Type} {call : ChannelCall} {act : Scheduled → α × Scheduled} {a : α}
    (h : c.attempt call act = (.ok a, c')) : act (c.called call none) = (a, c') := by
  rw [attempt] at h
  split at h
  · cases h
  · cases h
    rfl

theorem attempt_error {α : Type} {call : ChannelCall} {act : Scheduled → α × Scheduled}
    (h : c.attempt call act = (.error e, c')) : c' = c.called call (some e) := by
  rw [attempt] at h
  split at h
  · cases h
    rfl
  · cases h

theorem fails_attempt {α : Type} {call : ChannelCall} {act : Scheduled → α × Scheduled}
    (hcall : call ≠ .exit) (h : c.attempt call act = (.error e, c')) : Fails c c' e :=
  ⟨[], _, by rw [attempt_error h]; rfl, by simp [Smooth], rfl, hcall⟩

theorem reads_take (s : Stream) (n : Nat) (c : Scheduled) :
    Reads c (take s n c).2 (only s (take s n c).1) := by
  refine ⟨fun t => ?_, rfl, Nat.le_refl _, [], by simp [take], by simp [Smooth]⟩
  by_cases ht : t = s
  · subst ht
    simp [take, only, owed, ← List.append_assoc]
  · simp [take, only, owed, ht]

theorem read_ok {s : Stream} {limit : Nat} {b : Bytes} (h : c.read s limit = (.ok b, c')) :
    Reads c c' (only s b) := by
  have htake := reads_take s (min (max 1 (c.schedule.share c.time)) limit) (c.called (.read s) none)
  rw [attempt_ok h] at htake
  exact (reads_called (by simp) c).trans htake

theorem read_error {s : Stream} {limit : Nat} (h : c.read s limit = (.error e, c')) :
    Fails c c' e :=
  fails_attempt (by simp) h

theorem looked {b : Bool} (h : c.isClosed = (b, c')) : Reads c c' fun _ => [] := by
  obtain ⟨-, rfl⟩ := Prod.mk.inj h
  exact reads_called (by simp) c

theorem await_ok (h : c.await = (.ok (), c')) : Reads c c' fun _ => [] := by
  obtain ⟨-, rfl⟩ := Prod.mk.inj (attempt_ok h)
  exact reads_called (by simp) c

theorem await_error (h : c.await = (.error e, c')) : Fails c c' e := fails_attempt (by simp) h

theorem Reads.backlog_le (h : Reads c c' got) :
    backlog c' + (got .stdout).length + (got .stderr).length ≤ backlog c := by
  have hout := congrArg List.length (h.owed .stdout)
  have herr := congrArg List.length (h.owed .stderr)
  have htime := h.time
  simp only [List.length_append] at hout herr
  simp only [backlog, h.schedule]
  omega

theorem backlog_isClosed (h : c.isClosed.1 = false) : backlog c.isClosed.2 < backlog c := by
  have hopen : ¬ c.schedule.closing ≤ c.time := by simpa [isClosed] using h
  have howed (s : Stream) : c.isClosed.2.owed s = c.owed s := owed_called .look none c s
  have htime : c.isClosed.2.schedule.closing + 1 - c.isClosed.2.time =
      c.schedule.closing - c.time := by
    change c.schedule.closing + 1 - (c.time + 1) = _
    omega
  simp only [backlog, howed, htime]
  omega

instance : ExecChannel Scheduled where
  readOut := read .stdout
  readErr := read .stderr
  isClosed := isClosed
  await _ := await
  exitCode := exitCode

instance : ExecChannel.Ends Scheduled where
  backlog := backlog
  backlog_readOut := by
    intro n c b h
    have hread : read .stdout n c = (.ok b, (read .stdout n c).2) := Prod.ext h rfl
    have hle := (read_ok hread).backlog_le
    simpa [only, ExecChannel.readOut] using hle
  backlog_readErr := by
    intro n c b h
    have hread : read .stderr n c = (.ok b, (read .stderr n c).2) := Prod.ext h rfl
    have hle := (read_ok hread).backlog_le
    simpa [only, ExecChannel.readErr] using hle
  backlog_idle := by
    intro n c _ hout herr hopen
    have h₁ : read .stdout n c = (.ok [], (read .stdout n c).2) := Prod.ext hout rfl
    have h₂ : read .stderr n (read .stdout n c).2 = (.ok [], (read .stderr n (read .stdout n c).2).2) :=
      Prod.ext herr rfl
    have hle := ((read_ok h₁).trans (read_ok h₂)).backlog_le
    refine Nat.lt_of_lt_of_le (backlog_isClosed hopen) ?_
    change backlog (read .stderr n (read .stdout n c).2).2 ≤ _
    omega
  backlog_await := by
    intro _ c h
    have hawait : c.await = (.ok (), c.await.2) := Prod.ext h rfl
    have hle := (await_ok hawait).backlog_le
    simpa [ExecChannel.await] using hle

theorem Reads.owed_nil (h : Reads c c' got) {s : Stream} (hnone : c.owed s = []) :
    c'.owed s = [] := by
  have howed := h.owed s
  rw [hnone] at howed
  exact (List.append_eq_nil_iff.mp howed).2

theorem owed_of_read_nil {s : Stream} {limit : Nat} (hl : 0 < limit)
    (hclosed : c.schedule.closing < c.time) (h : c.read s limit = (.ok [], c')) :
    c.owed s = [] := by
  have hdue : c.schedule.due s c.time = [] := if_neg (Nat.not_le_of_lt hclosed)
  have hupcoming := c.schedule.upcoming_of_closed s hclosed
  have hgot : take s _ (c.called (.read s) none) = ([], c') := attempt_ok h
  obtain ⟨htake, -⟩ := Prod.mk.inj hgot
  change (c.queue s ++ c.schedule.due s c.time).take _ = [] at htake
  rw [hdue, List.append_nil, List.take_eq_nil_iff] at htake
  have hqueue : c.queue s = [] := htake.resolve_left (by omega)
  rw [owed, hqueue, hupcoming]
  rfl

section Watching

open ExecChannel (drain watch)

def Watched (c : Scheduled) (captured : Capture) : Except Failure Capture × Scheduled → Prop
  | (.ok k, c') => ∃ got, Reads c c' got ∧ ∀ s, k.bytes s = captured.bytes s ++ got s
  | (.error e, c') => Fails c c' e

variable {captured more : Capture} {r : Except Failure Capture × Scheduled}

theorem Reads.watched (h : Reads c c' got) (hbytes : ∀ s, more.bytes s = captured.bytes s ++ got s)
    (h' : Watched c' more r) : Watched c captured r := by
  match r, h' with
  | (.ok k, _), ⟨got', hreads, hk⟩ =>
    refine ⟨_, h.trans hreads, fun s => ?_⟩
    rw [hk, hbytes, List.append_assoc]
  | (.error e, _), hfails => exact h.fails hfails

theorem watched_drain (limit : Nat) (c : Scheduled) (captured : Capture) :
    Watched c captured (drain limit c captured) := by
  fun_induction drain limit c captured with
  | case1 c captured e c₁ hout => exact read_error hout
  | case2 c captured out c₁ hout e c₂ herr => exact (read_ok hout).fails (read_error herr)
  | case3 c captured out c₁ hout err c₂ herr hnone =>
    obtain ⟨rfl, rfl⟩ := hnone
    refine ⟨_, (read_ok hout).trans (read_ok herr), fun s => ?_⟩
    cases s <;> simp [only]
  | case4 c captured out c₁ hout err c₂ herr _ ih =>
    apply ((read_ok hout).trans (read_ok herr)).watched _ ih
    intro s
    cases s <;> simp [Capture.push, Capture.bytes, only]

theorem owed_drain {limit : Nat} (hl : 0 < limit) (c : Scheduled) (captured : Capture)
    (hclosed : c.schedule.closing < c.time) {k : Capture}
    (h : (drain limit c captured).1 = .ok k) (s : Stream) :
    (drain limit c captured).2.owed s = [] := by
  fun_induction drain limit c captured with
  | case1 => simp at h
  | case2 => simp at h
  | case3 c captured out c₁ hout err c₂ herr hnone =>
    obtain ⟨rfl, rfl⟩ := hnone
    have h₁ := read_ok hout
    have h₂ := read_ok herr
    have hclosed₁ : c₁.schedule.closing < c₁.time := by
      rw [h₁.schedule]
      exact Nat.lt_of_lt_of_le hclosed h₁.time
    cases s with
    | stdout => exact h₂.owed_nil (h₁.owed_nil (owed_of_read_nil hl hclosed hout))
    | stderr => exact h₂.owed_nil (owed_of_read_nil hl hclosed₁ herr)
  | case4 c captured out c₁ hout err c₂ herr _ ih =>
    have hreads := (read_ok hout).trans (read_ok herr)
    apply ih _ h
    rw [hreads.schedule]
    exact Nat.lt_of_lt_of_le hclosed hreads.time

theorem Watched.followedBy (h : Watched c {} r) (captured : Capture) :
    Watched c captured (r.1.map captured.followedBy, r.2) := by
  match r, h with
  | (.ok k, _), ⟨got, hreads, hk⟩ =>
    refine ⟨got, hreads, fun s => ?_⟩
    rw [Capture.bytes_followedBy, hk]
    cases s <;> simp [Capture.bytes]
  | (.error e, _), hfails => exact hfails

theorem drained {limit : Nat} (hd : drain limit c {} = (.ok more, c')) (captured : Capture) :
    ∃ got, Reads c c' got ∧ ∀ s, (captured.followedBy more).bytes s = captured.bytes s ++ got s := by
  have hw := (watched_drain limit c {}).followedBy captured
  rwa [hd] at hw

theorem watched_watch (limit : Nat) (interval : Duration) (hl : 0 < limit) (c : Scheduled)
    (captured : Capture) : Watched c captured (watch limit interval hl c captured) := by
  fun_induction watch limit interval hl c captured with
  | case1 c captured e c₁ hd =>
    have hw := watched_drain limit c {}
    rwa [hd] at hw
  | case2 c captured more c₁ hd c₂ hc =>
    obtain ⟨got, hreads, hbytes⟩ := drained hd captured
    apply hreads.watched hbytes
    apply (looked hc).watched (fun s => (List.append_nil _).symm)
    exact (watched_drain limit c₂ {}).followedBy _
  | case3 c captured more c₁ hd c₂ hc _ e c₃ hw =>
    obtain ⟨got, hreads, -⟩ := drained hd captured
    exact hreads.fails ((looked hc).fails (await_error hw))
  | case4 c captured more c₁ hd c₂ hc _ c₃ hw ih =>
    obtain ⟨got, hreads, hbytes⟩ := drained hd captured
    apply hreads.watched hbytes
    exact ((looked hc).trans (await_ok hw)).watched (fun s => (List.append_nil _).symm) ih
  | case5 c captured more c₁ hd c₂ hc _ ih =>
    obtain ⟨got, hreads, hbytes⟩ := drained hd captured
    apply hreads.watched hbytes
    exact (looked hc).watched (fun s => (List.append_nil _).symm) ih

theorem closing_of_look (hc : c.isClosed = (true, c')) : c'.schedule.closing < c'.time := by
  obtain ⟨hclosed, rfl⟩ := Prod.mk.inj hc
  exact Nat.lt_succ_of_le (of_decide_eq_true hclosed)

theorem owed_watch (limit : Nat) (interval : Duration) (hl : 0 < limit) (c : Scheduled) (captured : Capture)
    {k : Capture} (h : (watch limit interval hl c captured).1 = .ok k) (s : Stream) :
    (watch limit interval hl c captured).2.owed s = [] := by
  fun_induction watch limit interval hl c captured with
  | case1 => simp at h
  | case2 c captured more c₁ hd c₂ hc last =>
    cases hlast : last.1 with
    | ok k' => exact owed_drain hl c₂ {} (closing_of_look hc) hlast s
    | error e => simp [hlast, Except.map] at h
  | case3 => simp at h
  | case4 _ _ _ _ _ _ _ _ _ _ ih => exact ih h
  | case5 _ _ _ _ _ _ _ _ ih => exact ih h

end Watching

structure Faithful (schedule : Schedule) (c : Scheduled) : Prop where
  kept : c.schedule = schedule
  time : c.calls.length = c.time
  failure : ∀ n m, c.calls[n]? = some m → m.call ≠ .look → m.failure = schedule.fault n

theorem Faithful.called {schedule : Schedule} (h : Faithful schedule c) {call : ChannelCall}
    {failure : Option Failure} (hf : call ≠ .look → failure = schedule.fault c.time) :
    Faithful schedule (c.called call failure) := by
  refine ⟨h.kept, ?_, fun n m hm hlook => ?_⟩
  · simp [Scheduled.called, h.time]
  · rw [Scheduled.called, List.getElem?_append] at hm
    split at hm
    · exact h.failure n m hm hlook
    · rename_i hn
      obtain ⟨hn', hm⟩ := List.getElem?_eq_some_iff.mp hm
      have hlast : n = c.time := by
        rw [List.length_singleton] at hn'
        have htime := h.time
        omega
      simp only [List.getElem_singleton] at hm
      subst hm hlast
      exact hf hlook

theorem Faithful.attempt {schedule : Schedule} (h : Faithful schedule c) {α : Type}
    {call : ChannelCall} {act : Scheduled → α × Scheduled}
    (hact : ∀ c, Faithful schedule c → Faithful schedule (act c).2) :
    Faithful schedule (c.attempt call act).2 := by
  rw [Scheduled.attempt, h.kept]
  split
  · rename_i e he
    exact h.called fun _ => he.symm
  · rename_i he
    exact hact _ (h.called fun _ => he.symm)

theorem keeps_faithful (schedule : Schedule) : ExecChannel.Keeps (Faithful schedule) := by
  have hread (s : Stream) {n : Nat} {c : Scheduled} {r : Except Failure Bytes × Scheduled}
      (hr : c.read s n = r) (h : Faithful schedule c) : Faithful schedule r.2 := by
    subst hr
    exact h.attempt fun c hc => ⟨hc.kept, hc.time, hc.failure⟩
  constructor
  · exact fun hr h => hread .stdout hr h
  · exact fun hr h => hread .stderr hr h
  · intro c r c' hr h
    obtain ⟨-, rfl⟩ := Prod.mk.inj hr
    exact h.called fun hlook => absurd rfl hlook
  · intro _ c r c' hr h
    change c.await = (r, c') at hr
    have hawait : c' = c.await.2 := by rw [hr]
    subst hawait
    exact h.attempt fun c hc => hc

theorem exitCode_cases (c : Scheduled) : ∃ failure : Option Failure,
    c.exitCode.1 = failure.elim (.ok c.schedule.code) .error ∧
    c.exitCode.2 = c.called .exit failure := by
  obtain ⟨r, c', h⟩ : ∃ r c', c.exitCode = (r, c') := ⟨_, _, rfl⟩
  rw [h]
  cases r with
  | error e => exact ⟨some e, rfl, attempt_error h⟩
  | ok code =>
    obtain ⟨rfl, rfl⟩ := Prod.mk.inj (attempt_ok h)
    exact ⟨none, rfl, rfl⟩

def fresh (schedule : Schedule) : Scheduled := { schedule }

theorem owed_fresh (schedule : Schedule) (s : Stream) : (fresh schedule).owed s = schedule.all s :=
  schedule.upcoming_zero s

theorem faithful_fresh (schedule : Schedule) : Faithful schedule (fresh schedule) :=
  ⟨rfl, rfl, by simp [fresh]⟩

theorem queue_arrived (h : ∀ s, c.owed s = []) (s : Stream) : c.arrived.queue s = [] := by
  have hparts := h s
  rw [owed, ← Schedule.due_append_upcoming, ← List.append_assoc] at hparts
  exact (List.append_eq_nil_iff.mp hparts).1

/-- Whatever the schedule, the calls come to an end. The first failure is the last call and the
result; otherwise the last call asks for the exit code, when nothing is left to read, and the
result holds all that was sent. -/
theorem run_exact (polling : Polling) (schedule : Schedule) :
    let run := ExecChannel.run polling (fresh schedule)
    ∃ earlier last, run.2.calls = earlier ++ [last] ∧
      (∀ m ∈ earlier, m.failure = none ∧ m.call ≠ .exit) ∧
      (last.call = .exit → ∀ s, last.queue s = []) ∧
      (last.failure = none → last.call = .exit) ∧
      (∀ n m, run.2.calls[n]? = some m → m.call ≠ .look → m.failure = schedule.fault n) ∧
      run.1 = last.failure.elim
        (.ok ⟨schedule.code, schedule.all .stdout, schedule.all .stderr⟩) .error := by
  have hl : 0 < max polling.chunkSize 1 := by omega
  have hwatched := watched_watch _ polling.interval hl (fresh schedule) {}
  have howed := @owed_watch _ polling.interval hl (fresh schedule) {}
  have hfaithful := (keeps_faithful schedule).follow polling (faithful_fresh schedule)
  rw [ExecChannel.run]
  rw [ExecChannel.follow] at hfaithful ⊢
  generalize ExecChannel.watch _ _ hl (fresh schedule) {} = followed at hwatched howed hfaithful ⊢
  obtain ⟨r, c⟩ := followed
  cases r with
  | error e =>
    obtain ⟨earlier, last, hcalls, hearlier, hfailure, hexit⟩ := hwatched
    refine ⟨earlier, last, hcalls, hearlier, fun h => absurd h hexit, ?_, hfaithful.failure, ?_⟩
    · simp [hfailure]
    · simp [hfailure]
  | ok k =>
    obtain ⟨got, hreads, hbytes⟩ := hwatched
    obtain ⟨earlier, hcalls, hearlier⟩ := hreads.calls
    have hbyte (s : Stream) : k.bytes s = schedule.all s := by
      have htotal := hreads.owed s
      rw [howed rfl, List.append_nil, owed_fresh] at htotal
      rw [hbytes, htotal]
      cases s <;> rfl
    obtain ⟨failure, hr, hc⟩ := exitCode_cases c
    have hexit : Faithful schedule (c.exitCode).2 := hfaithful.attempt fun c hc => hc
    refine ⟨earlier, ⟨.exit, c.arrived.queue, failure⟩, ?_, hearlier,
      fun _ => queue_arrived (howed rfl), fun _ => rfl, hexit.failure, ?_⟩
    · change c.exitCode.2.calls = _
      rw [hc, Scheduled.called, hcalls]
      rfl
    · change c.exitCode.1.map k.result = _
      rw [hr, hfaithful.kept, ← hbyte, ← hbyte]
      cases failure <;> rfl

end Scheduled
end Rollout
