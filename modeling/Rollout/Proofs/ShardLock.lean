import Rollout.Proofs.Course
import Rollout.Proofs.Rehearsal
import Rollout.Proofs.Ssh

/-!
Shard locks over secure shell sessions. A lock counts as taken when the lockout command ran to its
end, no signal ended it and zero was read for its status. Zero is also what is read when the server
never sent a status, so that a lock may count as taken of which the server said nothing.
-/

namespace Rollout

section Lock

open Rehearsal Ssh

variable {σ : Type} {files : FileSystem} {l : Lockout} {c : Connection Handle}
  {request : Lock.Request} {scene : Scene σ}

theorem Job.steps_of_lock {job : Job} (h : job.lock = some request) :
    ∃ rest, job.steps = .lockCheck request :: rest := by
  rw [steps, h]
  exact ⟨_, rfl⟩

section Run

variable {d : Deployer (Rehearsal σ) Handle} {job : Job} {step : Step} {rest : List Step}
  {report : Report} {w w' : σ}

theorem Deployer.comes_performAll_pass {n : Nat} {o : Except DeployError Report} {v : σ}
    (hperform : ∀ events, Comes (d.perform c job step) ⟨w, events⟩ (.ok n) w')
    (hrest : ∀ events, Comes (d.performAll c job (report.add step n) rest) ⟨w', events⟩ o v)
    (events : List Event) : Comes (d.performAll c job report (step :: rest)) ⟨w, events⟩ o v := by
  rw [performAll]
  exact (comes_note _ _).bind fun events => (hperform events).bind hrest

theorem Deployer.comes_performAll_fail {e : DeployError}
    (hperform : ∀ events, Comes (d.perform c job step) ⟨w, events⟩ (.error e) w')
    (events : List Event) :
    Comes (d.performAll c job report (step :: rest)) ⟨w, events⟩ (.error e) w' := by
  rw [performAll]
  exact (comes_note _ _).bind fun events => (hperform events).bind fun _ => comes_pure ..

theorem Deployer.comes_runOn_fail {e : DeployError} (hvalid : job.validate = .ok ())
    (hall : ∀ events, Comes (d.performAll c job (.start job) job.steps) ⟨scene.world, events⟩ (.error e) w) :
    Comes (d.runOn c job) scene (.error e) w := by
  rw [runOn, hvalid]
  exact (comes_note _ _).bind fun events => (hall events).bind fun _ => comes_pure ..

theorem Deployer.comes_runOn_of_locked {e : Lockout.Error} (hlock : job.lock = some request)
    (hvalid : job.validate = .ok ())
    (h : ∀ events,
      Comes (d.lockout.acquire d.transport c request) ⟨scene.world, events⟩ (.error e) w) :
    ∃ e, Comes (d.runOn c job) scene (.error e) w := by
  obtain ⟨rest, hsteps⟩ := Job.steps_of_lock hlock
  obtain ⟨e', hperform⟩ : ∃ e', ∀ events,
      Comes (d.perform c job (.lockCheck request)) ⟨scene.world, events⟩ (.error e') w := by
    cases e with
    | busy domain shard code => exact ⟨_, fun events => (h events).bind fun _ => comes_pure ..⟩
    | connection error => exact ⟨_, fun events => (h events).bind fun _ => comes_pure ..⟩
  exact ⟨e', comes_runOn_fail hvalid (hsteps ▸ comes_performAll_fail hperform)⟩

end Run

theorem Lock.Request.judge_eq_ok {r : Except Connection.Error CommandResult} :
    request.judge r = .ok () ↔ ∃ result, r = .ok result ∧ result.exitCode = 0 := by
  rcases r with _ | result
  · simp [judge]
  · by_cases h : result.exitCode = 0 <;> simp [judge, h]

variable [Peer σ] [EndsCommands σ]

theorem Connection.comes_execute (command : String) :
    Comes (c.execute (transport σ files) command) scene
      ((exec c.polling c.session command scene.world).1.mapError
        (.commandFailed (toString c.target) command))
      (exec c.polling c.session command scene.world).2 := by
  refine (comes_note _ scene).bind fun events => ?_
  refine (comes_lift (exec c.polling c.session command) ⟨scene.world, events⟩).bind fun events => ?_
  dsimp only
  rcases exec c.polling c.session command scene.world with ⟨failure | result, w⟩
  · exact comes_pure ..
  · exact (comes_note _ _).bind fun events => comes_pure ..

theorem Lockout.comes_acquire :
    Comes (l.acquire (transport σ files) c request) scene
      (request.judge ((exec c.polling c.session (l.commandFor request) scene.world).1.mapError
        (.commandFailed (toString c.target) (l.commandFor request))))
      (exec c.polling c.session (l.commandFor request) scene.world).2 := by
  refine (Connection.comes_execute _).bind fun events => ?_
  rcases exec c.polling c.session (l.commandFor request) scene.world with ⟨failure | result, w⟩
  · exact comes_pure ..
  · by_cases h : result.exitCode = 0
    · simp only [Except.mapError, CommandResult.isSuccess, Lock.Request.judge, h, decide_true, if_true]
      exact (comes_note _ _).bind fun events => comes_pure ..
    · simp only [Except.mapError, CommandResult.isSuccess, Lock.Request.judge, h, decide_false,
        Bool.false_eq_true, if_false]
      exact (comes_note _ _).bind fun events => comes_pure ..

/-- A lock counts as taken just when its command ran to its end, no signal ended it, and zero or
nothing was said for its status. Otherwise the job ends there, and the remote host is asked nothing
more. -/
theorem Lockout.acquire_ok_iff [Reports σ] (files : FileSystem) (l : Lockout) (c : Connection Handle)
    (request : Lock.Request) (scene : Scene σ) :
    let command := l.commandFor request
    let after := (exec c.polling c.session command scene.world).2
    ∃ verdict, Comes (l.acquire (transport σ files) c request) scene verdict after ∧
      (verdict = .ok () ↔ ∃ handle captured closed,
        runToClose c.polling c.session command scene.world = (.ok (handle, captured), closed) ∧
        (Reports.ending handle closed).signal = none ∧
        ((Reports.ending handle closed).status = none ∨
          (Reports.ending handle closed).status = some 0)) ∧
      (verdict ≠ .ok () → ∀ (d : Deployer (Rehearsal σ) Handle) (job : Job),
        d.transport = transport σ files → d.lockout = l → job.lock = some request →
        job.validate = .ok () → ∃ e, Comes (d.runOn c job) scene (.error e) after) := by
  intro command after
  refine ⟨_, comes_acquire, ?_, fun hverdict d job htransport hlockout hlock hvalid => ?_⟩
  · rw [Lock.Request.judge_eq_ok, exec_eq]
    rcases runToClose c.polling c.session command scene.world with ⟨failure | ⟨handle, captured⟩, w⟩
    · simp [Except.mapError]
    · simp [Except.mapError, Capture.result, Ending.code_eq_zero]
  · cases hjudge : request.judge ((exec c.polling c.session command scene.world).1.mapError
      (.commandFailed (toString c.target) command)) with
    | ok u => exact absurd hjudge hverdict
    | error e =>
      refine Deployer.comes_runOn_of_locked (e := e) hlock hvalid fun events => ?_
      rw [htransport, hlockout, ← hjudge]
      exact comes_acquire

namespace Speechless

def host (command : String) (closed : Bool) : Host :=
  { commands := [command], running := { channel := { closed } } }

def channel (command : String) (closed : Bool) : Ssh.Channel Host := ⟨host command closed, 0, 0, []⟩

variable {command : String}

theorem readOut (limit : Nat) (closed : Bool) :
    ExecChannel.readOut limit (channel command closed) = (.ok [], channel command closed) := by
  cases closed <;>
    simp [ExecChannel.readOut, Ssh.Channel.readOut, channel, host, ask, Peer.answer, Host.answer,
      Host.read, Host.withChannel, Host.reading, Rehearsal.Channel.readOut, Ssh.Channel.outcome]

theorem readErr (limit : Nat) (closed : Bool) :
    ExecChannel.readErr limit (channel command closed) = (.ok [], channel command closed) := by
  cases closed <;>
    simp [ExecChannel.readErr, Ssh.Channel.readErr, channel, host, ask, Peer.answer, Host.answer,
      Host.read, Host.withChannel, Host.reading, Rehearsal.Channel.readErr, Ssh.Channel.outcome]

theorem drain (limit : Nat) (closed : Bool) (captured : Capture) :
    ExecChannel.drain limit (channel command closed) captured =
      (.ok captured, channel command closed) := by
  rw [ExecChannel.drain]
  split
  · next h =>
    rw [readOut] at h
    cases h
  · next h =>
    rw [readOut] at h
    cases h
    split
    · next h =>
      rw [readErr] at h
      cases h
    · next h =>
      rw [readErr] at h
      cases h
      rfl

theorem watch {limit : Nat} {interval : Duration} {hl : 0 < limit} :
    ExecChannel.watch limit interval hl (channel command false) {} =
      (.ok {}, channel command true) := by
  rw [ExecChannel.watch]
  split
  · next h =>
    rw [drain] at h
    cases h
  · next h =>
    rw [drain] at h
    cases h
    change (let last := ExecChannel.drain limit (channel command true) {}
      (last.1.map _, last.2)) = _
    rw [drain]
    rfl

theorem start (h : Host.hasNul command = false) :
    Ssh.start 0 command ({ } : Host) = (.ok 0, host command false) := by
  simp [Ssh.start, Operation.bind_apply, call_apply, attempt_apply, ask, Peer.answer, Host.answer,
    Host.openChannel, Host.exec, h, Except.mapError, Text.entryFor]
  rfl

theorem exec (polling : Polling) (h : Host.hasNul command = false) :
    Ssh.exec polling 0 command ({ } : Host) = (.ok ⟨0, [], []⟩, host command true) := by
  have hrun : ExecChannel.run polling (channel command false) =
      (.ok ⟨0, [], []⟩, channel command true) := by
    rw [ExecChannel.run, ExecChannel.follow, watch]
    rfl
  rw [Ssh.exec, start h]
  dsimp only
  change ((ExecChannel.run polling (channel command false)).1,
    (ExecChannel.run polling (channel command false)).2.peer) = _
  rw [hrun]
  rfl

end Speechless

/-- A server that ends the lockout command without a word, and a lock that counts as taken. -/
theorem Lockout.acquire_of_silent_server :
    let l : Lockout := {}
    let c : Connection Handle := ⟨{ name := "local", host := "127.0.0.1" }, "jane", 0, {}⟩
    let request := Lock.Request.check "build" "dev1"
    ∃ w : Host, Comes (l.acquire (transport Host { }) c request) ⟨{ }, []⟩ (.ok ()) w ∧
      w.commands = [l.commandFor request] ∧ Reports.ending 0 w = ⟨none, none⟩ := by
  intro l c request
  have hexec := Speechless.exec c.polling (show Host.hasNul (l.commandFor request) = false by decide)
  refine ⟨Speechless.host (l.commandFor request) true, ?_, rfl, rfl⟩
  have hacquire : Comes (l.acquire (transport Host { }) c request) ⟨({ } : Host), []⟩ _ _ :=
    comes_acquire
  rw [hexec] at hacquire
  exact hacquire

end Lock

end Rollout
