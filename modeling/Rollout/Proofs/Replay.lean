import Rollout.Proofs.First
import Rollout.Proofs.Schedule
import Rollout.Rehearsal.Channel

/-!
Watching a channel that replays bursts. What comes of it is told by the bursts alone: which of them
are captured, how often a watcher waits for more, and how much is read at once.
-/

namespace Rollout

namespace Rehearsal

open Ssh (Stream)

namespace Burst

def bytes (b : Burst) : Stream → Bytes
  | .stdout => b.stdout
  | .stderr => b.stderr

def isQuiet (b : Burst) : Bool := b.stdout.isEmpty && b.stderr.isEmpty

def released (bursts : List Burst) : List Burst := upTo (·.closes) bursts

def largest (limit : Nat) (bursts : List Burst) : Nat :=
  (bursts.flatMap fun b => [min limit b.stdout.length, min limit b.stderr.length]).foldr max 0

/-- How often the channel is found open with nothing read of it since the last look. -/
def pauses (quiet : Bool) : List Burst → Nat
  | [] => 0
  | b :: rest => if b.closes then 0 else quiet.toNat + pauses b.isQuiet rest

theorem released_cons (b : Burst) (rest : List Burst) :
    released (b :: rest) = b :: if b.closes then [] else released rest :=
  upTo_cons b rest

theorem largest_cons (limit : Nat) (b : Burst) (rest : List Burst) :
    largest limit (b :: rest) =
      max (min limit b.stdout.length) (max (min limit b.stderr.length) (largest limit rest)) :=
  rfl

theorem pauses_eq_countP (quiet : Bool) (bursts : List Burst) :
    pauses quiet bursts = (List.range ((released bursts).countP (!·.closes))).countP fun i =>
      if i = 0 then quiet else bursts[i - 1]?.any isQuiet := by
  induction bursts generalizing quiet with
  | nil => rfl
  | cons b rest ih =>
    rw [pauses, released_cons]
    cases hb : b.closes with
    | true => simp [hb]
    | false =>
      have hshift : (fun i => if i = 0 then quiet else (b :: rest)[i - 1]?.any isQuiet) ∘ Nat.succ =
          fun i => if i = 0 then b.isQuiet else rest[i - 1]?.any isQuiet := by
        funext i
        cases i <;> simp
      rw [List.countP_cons_of_pos (by simp [hb]), List.range_succ_eq_map, List.countP_cons,
        List.countP_map, hshift, ih]
      cases quiet <;> simp [Nat.add_comm]

end Burst

namespace Channel

open ExecChannel (drain watch)

def held (c : Channel) : Burst := { stdout := c.stdout, stderr := c.stderr }

def emptied (limit : Nat) (c : Channel) : Channel :=
  { c with
    stdout := [], stderr := [], largestRead := max c.largestRead (Burst.largest limit [c.held]) }

variable {limit : Nat} {c : Channel}

theorem emptied_of_quiet (limit : Nat) (hout : c.stdout = []) (herr : c.stderr = []) :
    ((c.readOut limit).2.readErr limit).2 = c.emptied limit := by
  simp [readOut, readErr, emptied, held, Burst.largest, hout, herr]

theorem emptied_after_reading (limit : Nat) (c : Channel) :
    ((c.readOut limit).2.readErr limit).2.emptied limit = c.emptied limit := by
  -- what is left of a stream is read by less at once than its start
  have hless (n : Nat) : min limit (n - limit) ≤ min limit n := by omega
  have hout := hless c.stdout.length
  have herr := hless c.stderr.length
  simp only [readOut, readErr, emptied, held, Burst.largest, List.flatMap_cons, List.flatMap_nil,
    List.append_nil, List.foldr_cons, List.foldr_nil, List.length_take, List.length_drop, mk.injEq,
    true_and, and_true]
  generalize min limit c.stdout.length = out, min limit (c.stdout.length - limit) = out' at *
  generalize min limit c.stderr.length = err, min limit (c.stderr.length - limit) = err' at *
  omega

theorem drain_replay (hl : 0 < limit) (c : Channel) (captured : Capture) :
    ∃ k, drain limit c captured = (.ok k, c.emptied limit) ∧
      (∀ s, k.bytes s = captured.bytes s ++ c.held.bytes s) ∧
      k.isEmpty = (captured.isEmpty && c.held.isQuiet) := by
  fun_induction drain limit c captured with
  | case1 c captured e c₁ hout => cases hout
  | case2 c captured out c₁ hout e c₂ herr => cases herr
  | case3 c captured out c₁ hout err c₂ herr hnone =>
    cases hout
    cases herr
    have hlimit : limit ≠ 0 := by omega
    have hquiet : c.stdout = [] ∧ c.stderr = [] := by simpa [readOut, readErr, hlimit] using hnone
    refine ⟨captured, ?_, ?_, ?_⟩
    · exact congrArg (Prod.mk _) (emptied_of_quiet limit hquiet.1 hquiet.2)
    · intro s
      cases s <;> simp [held, Burst.bytes, hquiet]
    · simp [held, Burst.isQuiet, hquiet]
  | case4 c captured out c₁ hout err c₂ herr hsome ih =>
    cases hout
    cases herr
    obtain ⟨k, hdrain, hbytes, hempty⟩ := ih
    refine ⟨k, ?_, ?_, ?_⟩
    · rw [hdrain, emptied_after_reading]
    · intro s
      rw [hbytes]
      cases s <;> simp [Capture.push, Capture.bytes, held, Burst.bytes, readOut, readErr]
    · have hloud : c.held.isQuiet = false := by
        cases hquiet : c.held.isQuiet with
        | false => rfl
        | true =>
          simp only [held, Burst.isQuiet, Bool.and_eq_true, List.isEmpty_iff] at hquiet
          exact absurd (by simp [readOut, readErr, hquiet]) hsome
      rw [hempty, hloud, Bool.and_false]
      rfl

theorem drain_followedBy (hl : 0 < limit) (c : Channel) (captured : Capture) :
    ∃ k, drain limit c {} = (.ok k, c.emptied limit) ∧
      (∀ s, (captured.followedBy k).bytes s = captured.bytes s ++ c.held.bytes s) ∧
      k.isEmpty = c.held.isQuiet := by
  obtain ⟨k, hdrain, hbytes, hempty⟩ := drain_replay hl c {}
  refine ⟨k, hdrain, fun s => ?_, hempty⟩
  rw [Capture.bytes_followedBy, hbytes]
  cases s <;> rfl

theorem watch_of_closing (interval : Duration) (hl : 0 < limit) {c c' : Channel} (captured : Capture)
    (hlook : (c.emptied limit).isClosed = (true, c')) :
    ∃ k, watch limit interval hl c captured = (.ok k, c'.emptied limit) ∧
      ∀ s, k.bytes s = captured.bytes s ++ c.held.bytes s ++ c'.held.bytes s := by
  obtain ⟨more, hdrain, hmore, -⟩ := drain_followedBy hl c captured
  obtain ⟨last, hdrain', hlast, -⟩ := drain_followedBy hl c' (captured.followedBy more)
  refine ⟨(captured.followedBy more).followedBy last, ?_, fun s => by rw [hlast, hmore]⟩
  fun_cases ExecChannel.watch limit interval hl c captured with
  | case1 e c₁ hd => cases hdrain.symm.trans hd
  | case2 more' c₁ hd c₂ hc last' =>
    cases hdrain.symm.trans hd
    cases hlook.symm.trans hc
    simp only [last', hdrain', Except.map]
  | case3 more' c₁ hd c₂ hc _ e c₃ hw => cases hw
  | case4 more' c₁ hd c₂ hc =>
    cases hdrain.symm.trans hd
    cases hlook.symm.trans hc
  | case5 more' c₁ hd c₂ hc =>
    cases hdrain.symm.trans hd
    cases hlook.symm.trans hc

theorem watch_of_open (interval : Duration) (hl : 0 < limit) {c c' : Channel} (captured : Capture)
    (hlook : (c.emptied limit).isClosed = (false, c')) :
    ∃ k : Capture, watch limit interval hl c captured =
        watch limit interval hl { c' with waits := c'.waits + c.held.isQuiet.toNat } k ∧
      ∀ s, k.bytes s = captured.bytes s ++ c.held.bytes s := by
  obtain ⟨more, hdrain, hmore, hempty⟩ := drain_followedBy hl c captured
  refine ⟨captured.followedBy more, ?_, hmore⟩
  fun_cases ExecChannel.watch limit interval hl c captured with
  | case1 e c₁ hd => cases hdrain.symm.trans hd
  | case2 more' c₁ hd c₂ hc =>
    cases hdrain.symm.trans hd
    cases hlook.symm.trans hc
  | case3 more' c₁ hd c₂ hc _ e c₃ hw => cases hw
  | case4 more' c₁ hd c₂ hc hquiet c₃ hw =>
    cases hdrain.symm.trans hd
    cases hlook.symm.trans hc
    cases hw
    rw [← hempty, hquiet]
    rfl
  | case5 more' c₁ hd c₂ hc hloud =>
    cases hdrain.symm.trans hd
    cases hlook.symm.trans hc
    rw [← hempty, Bool.eq_false_iff.mpr hloud]
    rfl

theorem watch_replay (interval : Duration) (hl : 0 < limit) (c : Channel) (captured : Capture)
    (hopen : c.closed = false) :
    ∃ k c', watch limit interval hl c captured = (.ok k, c') ∧
      (∀ s, k.bytes s =
        captured.bytes s ++ (c.held :: Burst.released c.bursts).flatMap (·.bytes s)) ∧
      c'.exit = c.exit ∧ c'.waits = c.waits + Burst.pauses c.held.isQuiet c.bursts ∧
      c'.largestRead =
        max c.largestRead (Burst.largest limit (c.held :: Burst.released c.bursts)) := by
  induction hbursts : c.bursts generalizing c captured with
  | nil =>
    have hlook : (c.emptied limit).isClosed = (true, { c.emptied limit with closed := true }) := by
      simp [isClosed, emptied, hopen, hbursts]
    obtain ⟨k, hwatch, hbytes⟩ := watch_of_closing interval hl captured hlook
    refine ⟨k, _, hwatch, fun s => ?_, rfl, rfl, ?_⟩
    · rw [hbytes]
      cases s <;> simp [Burst.released, held, emptied, Burst.bytes]
    · simp [emptied, held, Burst.released, Burst.largest]
  | cons b rest ih =>
    let next : Channel :=
      { c.emptied limit with
        bursts := rest, stdout := b.stdout, stderr := b.stderr, closed := b.closes }
    have hlook : (c.emptied limit).isClosed = (b.closes, next) := by
      simp [isClosed, emptied, hopen, hbursts, next]
    cases hb : b.closes with
    | true =>
      rw [hb] at hlook
      obtain ⟨k, hwatch, hbytes⟩ := watch_of_closing interval hl captured hlook
      refine ⟨k, _, hwatch, fun s => ?_, rfl, ?_, ?_⟩
      · rw [hbytes, Burst.released_cons, hb]
        cases s <;> simp [held, next, Burst.bytes]
      · simp [emptied, next, Burst.pauses, hb]
      · simp [emptied, next, held, Burst.released_cons, Burst.largest, hb]
    | false =>
      rw [hb] at hlook
      obtain ⟨more, hround, hmore⟩ := watch_of_open interval hl captured hlook
      obtain ⟨k, c', hwatch, hbytes, hexit, hwaits, hlargest⟩ :=
        ih { next with waits := next.waits + c.held.isQuiet.toNat } more hb rfl
      refine ⟨k, c', hround.trans hwatch, fun s => ?_, hexit, ?_, ?_⟩
      · rw [hbytes, hmore, Burst.released_cons, hb]
        cases s <;> simp [held, next, Burst.bytes]
      · simp [hwaits, next, emptied, held, Burst.pauses, Burst.isQuiet, hb, Nat.add_assoc]
      · simp [hlargest, next, emptied, held, Burst.released_cons, Burst.largest, hb]

/-- A channel that replays bursts is watched to its end. All bursts up to the first that closes it are
captured, and the exit is its own. Each time it is found open there is a wait, unless the burst before
had something to read. The largest read is what the bursts and the chunk size make it; a size of zero
is as good as one. -/
theorem run_replays (polling : Polling) (bursts : List Burst) (exit : Except Failure Int) :
    let run := ExecChannel.run polling ({ bursts, exit } : Channel)
    let released := Burst.released bursts
    run.1 = exit.map (fun code =>
        ⟨code, released.flatMap (·.stdout), released.flatMap (·.stderr)⟩) ∧
      run.2.waits = (List.range (released.countP (!·.closes))).countP (fun i =>
        i = 0 || bursts[i - 1]?.any Burst.isQuiet) ∧
      run.2.largestRead = Burst.largest (max polling.chunkSize 1) released := by
  intro run released
  have hl : 0 < max polling.chunkSize 1 := by omega
  obtain ⟨k, c, hwatch, hbytes, hexit, hwaits, hlargest⟩ :=
    watch_replay polling.interval hl ({ bursts, exit } : Channel) {} rfl
  have hrun : run = (exit.map k.result, c) := by
    change ExecChannel.run polling _ = _
    rw [ExecChannel.run, ExecChannel.follow, hwatch]
    change (c.exit.map k.result, c) = _
    rw [hexit]
  rw [hrun]
  refine ⟨?_, ?_, ?_⟩
  · have hout : k.stdout.reverse.flatten = released.flatMap (·.stdout) := hbytes .stdout
    have herr : k.stderr.reverse.flatten = released.flatMap (·.stderr) := hbytes .stderr
    have hresult (code : Int) : k.result code =
        ⟨code, released.flatMap (·.stdout), released.flatMap (·.stderr)⟩ := by
      rw [Capture.result, hout, herr]
    simp [funext hresult]
  · rw [hwaits, Burst.pauses_eq_countP]
    simp [held, Burst.isQuiet, released]
  · rw [hlargest, Burst.largest_cons]
    simp [held, released]

end Channel

end Rehearsal

end Rollout
