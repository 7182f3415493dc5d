import Rollout.Proofs.Overwrite
import Rollout.Proofs.Recorded
import Rollout.Proofs.ShardLock

/-!
Archives that cannot be opened. An upload looks at the local file before it touches the remote host;
what was sent to the host by then are the lines of the steps in front of the first upload.
-/

namespace Rollout

open Rehearsal

namespace Ssh

/-- Calls that can change something on the remote host, other than a login. -/
def Call.acts : Call → Bool
  | .exec .. | .openSftp _ | .create .. | .write .. => true
  | _ => false

def acted (log : List Answered) : List Call := (log.map (·.1)).filter Call.acts

@[simp] theorem acted_append (log more : List Answered) :
    acted (log ++ more) = acted log ++ acted more := by
  rw [acted, List.map_append, List.filter_append]
  rfl

/-- An operation that only looks. -/
def Spares {σ α : Type} (p : Operation (Recorded σ) α) : Prop :=
  ∀ w, acted (p w).2.log = acted w.log

namespace Spares

variable {σ α β : Type}

theorem pure (a : α) : Spares (Pure.pure a : Operation (Recorded σ) α) := fun _ => rfl

theorem attempt {name : String} {asked : StateM (Recorded σ) (Except Fault α)}
    (h : ∀ w, acted (asked w).2.log = acted w.log) : Spares (Ssh.attempt name asked) := h

theorem bind {p : Operation (Recorded σ) α} {f : α → Operation (Recorded σ) β} (hp : Spares p)
    (hf : ∀ a, Spares (f a)) : Spares (p >>= f) := by
  intro w
  have hw := hp w
  rw [Operation.bind_apply]
  revert hw
  rcases p w with ⟨failure | a, w'⟩
  · exact id
  · exact (hf a w').trans

end Spares

section Acted

variable {σ : Type} [Peer σ] {session : Handle}

theorem acted_ask_of_not_acts {c : Call} (h : c.acts = false) (w : Recorded σ) :
    acted (ask c w).2.log = acted w.log := by
  change acted (w.log ++ [⟨c, _⟩]) = _
  rw [acted_append]
  simp [acted, h]

theorem acted_ask_of_acts {c : Call} (h : c.acts = true) (w : Recorded σ) :
    acted (ask c w).2.log = acted w.log ++ [c] := by
  change acted (w.log ++ [⟨c, _⟩]) = _
  rw [acted_append]
  simp [acted, h]

theorem keeps_acted (calls : List Call) :
    ExecChannel.Keeps fun c : Channel (Recorded σ) => acted c.peer.log = calls where
  readOut {limit c r c'} hread hc := by
    obtain rfl : (c.readOut limit).2 = c' := congrArg Prod.snd hread
    unfold Channel.readOut
    split
    · exact (acted_ask_of_not_acts rfl c.peer).trans hc
    · exact hc
  readErr {limit c r c'} hread hc := by
    obtain rfl : (c.readErr limit).2 = c' := congrArg Prod.snd hread
    exact (acted_ask_of_not_acts rfl c.peer).trans hc
  isClosed {c r c'} hlook hc := by
    obtain rfl : c.isClosed.2 = c' := congrArg Prod.snd hlook
    exact (acted_ask_of_not_acts rfl c.peer).trans hc
  await {interval c r c'} hwait hc := by
    obtain rfl : (c.await interval).2 = c' := congrArg Prod.snd hwait
    obtain hsame | ⟨-, -, hread⟩ := Channel.await_cases interval c
    · rw [hsame]
      exact hc
    · rw [hread]
      change acted (Channel.boundedRead c.session c.handle interval c.peer).2.log = calls
      rw [Channel.log_boundedRead, acted_append, hc]
      exact List.append_nil _

theorem spares_askExit (handle : Handle) :
    Spares (Channel.askExit session handle : Operation (Recorded σ) Int) := by
  rw [Channel.askExit]
  refine .bind (acted_ask_of_not_acts rfl) fun _ =>
    .bind (.attempt (acted_ask_of_not_acts rfl)) fun _ => ?_
  exact .bind (.attempt (acted_ask_of_not_acts rfl)) fun _ =>
    .bind (acted_ask_of_not_acts rfl) fun _ => .pure _

theorem acted_run [EndsCommands σ] (polling : Polling) (c : Channel (Recorded σ)) :
    acted (ExecChannel.run polling c).2.peer.log = acted c.peer.log := by
  have hfollow := (keeps_acted (acted c.peer.log)).follow polling
    (show acted c.peer.log = acted c.peer.log from rfl)
  rw [ExecChannel.run]
  revert hfollow
  rcases ExecChannel.follow polling c with ⟨failure | captured, c'⟩
  · exact id
  · exact (spares_askExit c'.handle c'.peer).trans

theorem acted_start (session : Handle) (command : String) (w : Recorded σ) :
    (∃ handle, acted (start session command w).2.log = acted w.log ++ [.exec handle command]) ∨
    acted (start session command w).2.log = acted w.log ∧
      ∃ failure, (start session command w).1 = .error failure := by
  rw [start, Operation.bind_apply, call_apply]
  dsimp only
  rw [Operation.bind_apply, attempt_apply]
  have hopened : acted (ask (.openChannel session) (ask (.setBlocking session true) w).2).2.log =
      acted w.log :=
    (acted_ask_of_not_acts rfl _).trans (acted_ask_of_not_acts rfl _)
  revert hopened
  rcases ask (.openChannel session) (ask (.setBlocking session true) w).2 with ⟨fault | handle, w₁⟩
  · exact fun hopened => .inr ⟨hopened, _, rfl⟩
  · intro hopened
    refine .inl ⟨handle, ?_⟩
    have hsent := acted_ask_of_acts (c := .exec handle command) rfl w₁
    rw [hopened] at hsent
    simp only [Except.mapError, Operation.bind_apply, attempt_apply]
    revert hsent
    rcases ask (.exec handle command) w₁ with ⟨fault | _, w₂⟩
    · exact id
    · exact (acted_ask_of_not_acts rfl w₂).trans

theorem acted_exec [EndsCommands σ] (polling : Polling) (session : Handle) (command : String) (w : Recorded σ) :
    (∃ handle, acted (exec polling session command w).2.log =
      acted w.log ++ [.exec handle command]) ∨
    acted (exec polling session command w).2.log = acted w.log ∧
      ∃ failure, (exec polling session command w).1 = .error failure := by
  have hstarted := acted_start session command w
  rw [exec]
  revert hstarted
  rcases start session command w with ⟨failure | handle, w₁⟩
  · exact fun hstarted => hstarted.imp_right fun hfailed => ⟨hfailed.1, failure, rfl⟩
  · have hran : acted (ask (.setBlocking session true)
        (ExecChannel.run polling (Channel.mk w₁ session handle [])).2.peer).2.log = acted w₁.log :=
      (acted_ask_of_not_acts rfl _).trans (acted_run polling _)
    rintro (⟨handle', hsent⟩ | ⟨-, _, ⟨⟩⟩)
    exact .inl ⟨handle', hran.trans hsent⟩

theorem exists_fault_of_no_files (p : Path) : ∃ fault, openSource {} p = .error fault := by
  rw [openSource]
  cases hname : p.fileName with
  | none => exact ⟨_, rfl⟩
  | some name =>
    obtain ⟨-, -, hdot, hdots⟩ := Path.isEntryName_of_fileName hname
    have hdot : name ≠ "." := fun h => hdot (h ▸ rfl)
    have hdots : name ≠ ".." := fun h => hdots (h ▸ rfl)
    cases hopen : FileSystem.openDirectory {} (p.parent.getD ⟨"."⟩) with
    | error fault => exact ⟨fault, rfl⟩
    | ok directory =>
      have hentry : ∃ fault, FileSystem.entry {} directory name = .error fault := by
        rw [FileSystem.entry, FileSystem.walk, if_neg hdot, if_neg hdots]
        have hnone : FileSystem.node? {} (directory ++ [name]) = none := by
          simp [FileSystem.node?]
        rw [hnone]
        split_ifs <;> exact ⟨_, rfl⟩
      exact hentry

theorem upload_of_unopened {files : FileSystem} {source : Path} {fault : FileSystem.Fault}
    (h : openSource files source = .error fault) (destination : String) (w : σ) :
    upload files session source destination w =
      (.error (.io ("open " ++ source.text) fault.message),
        (ask (.setBlocking session true) w).2) := by
  simp only [upload, Operation.bind_apply, call_apply, h]
  rfl

end Acted

end Ssh

open Ssh (EndsCommands Handle Peer Recorded acted)

def Lockout.line? (l : Lockout) : Step → Option String
  | .lockCheck request => some (l.commandFor request)
  | .clean _ command => some command
  | .relink _ command => some command
  | .transfer .. => none

/-- The steps of a job in front of its first upload. -/
def Job.preparation (job : Job) : List Step :=
  (job.lock.map Step.lockCheck).toList ++
    match job.mode with
    | .overwrite _ => job.remotePaths.map job.adjust
    | .symlinkSwap _ => []

theorem Job.steps_of_validate {job : Job} (hvalid : job.validate = .ok ()) :
    ∃ first rest, job.remotePaths.head? = some first ∧
      job.steps = job.preparation ++ job.upload first :: rest := by
  obtain ⟨first, others, hpaths⟩ :=
    List.exists_cons_of_ne_nil (remotePaths_ne_nil_of_validate hvalid)
  unfold preparation
  cases hmode : job.mode with
  | overwrite base =>
    refine ⟨first, others.map job.upload, by rw [hpaths]; rfl, ?_⟩
    rw [steps_of_overwrite hmode, hpaths, List.append_assoc]
    rfl
  | symlinkSwap link =>
    refine ⟨first, others.map job.upload ++ job.remotePaths.map job.adjust, by rw [hpaths]; rfl, ?_⟩
    rw [steps_of_swap hmode, hpaths, List.append_nil]
    rfl

theorem Job.lock_of_mem_preparation {job : Job} {link : String} (hmode : job.mode = .symlinkSwap link)
    {step : Step} (hstep : step ∈ job.preparation) :
    ∃ request, job.lock = some request ∧ .lockCheck request = step := by
  rw [preparation, hmode, List.append_nil, Option.mem_toList] at hstep
  exact Option.map_eq_some_iff.mp hstep

theorem Job.line?_of_mem_preparation {job : Job} (l : Lockout) {step : Step}
    (hstep : step ∈ job.preparation) : ∃ line, l.line? step = some line := by
  obtain hlock | hclean := List.mem_append.mp hstep
  · obtain ⟨request, -, rfl⟩ := Option.map_eq_some_iff.mp (Option.mem_toList.mp hlock)
    exact ⟨_, rfl⟩
  · cases hmode : job.mode with
    | overwrite base =>
      simp only [hmode, adjust_of_overwrite hmode, List.mem_map] at hclean
      obtain ⟨dir, -, rfl⟩ := hclean
      exact ⟨_, rfl⟩
    | symlinkSwap link =>
      simp only [hmode] at hclean
      cases hclean

section Sending

variable {σ : Type} [Peer σ] [EndsCommands σ] {files : FileSystem} {c : Connection Handle} {job : Job}

theorem Connection.comes_upload (source : Path) (destination : String) (scene : Scene σ) :
    Comes (c.upload (Ssh.transport σ files) source destination) scene
      ((Ssh.upload files c.session source destination scene.world).1.mapError
        (.transferFailed (toString c.target) source.text destination))
      (Ssh.upload files c.session source destination scene.world).2 := by
  refine (comes_note _ scene).bind fun events => ?_
  refine (comes_lift (Ssh.upload files c.session source destination)
    ⟨scene.world, events⟩).bind fun events => ?_
  dsimp only
  rcases Ssh.upload files c.session source destination scene.world with ⟨failure | bytes, w⟩
  · exact comes_pure ..
  · exact (comes_note _ _).bind fun events => comes_pure ..

variable {d : Deployer (Rehearsal σ) Handle}

section Answered

variable {step : Step} {directory line : String} {request : Lock.Request} {scene : Scene σ} {w w' : σ}
  {r : Except Failure CommandResult}

theorem Connection.comes_execute_of_exec (htransport : d.transport = Ssh.transport σ files)
    (hran : Ssh.exec c.polling c.session line scene.world = (r, w')) :
    Comes (c.execute d.transport line) scene
      (r.mapError (.commandFailed (toString c.target) line)) w' := by
  have hexecute : Comes (c.execute (Ssh.transport σ files) line) scene _ _ := comes_execute line
  rwa [hran, ← htransport] at hexecute

theorem Deployer.comes_perform_lockCheck (htransport : d.transport = Ssh.transport σ files)
    (hran : Ssh.exec c.polling c.session (d.lockout.commandFor request) scene.world = (r, w')) :
    Comes (d.perform c job (.lockCheck request)) scene
      (((request.judge (r.mapError
        (.commandFailed (toString c.target) (d.lockout.commandFor request)))).map
          fun _ => 0).mapError job.lockFailure) w' := by
  have hacquire : Comes (d.lockout.acquire (Ssh.transport σ files) c request) scene _ _ :=
    Lockout.comes_acquire
  rw [hran, ← htransport] at hacquire
  refine hacquire.bind fun events => ?_
  rcases request.judge _ with (_ | _) | _ <;> exact comes_pure ..

theorem Deployer.comes_perform_clean (htransport : d.transport = Ssh.transport σ files)
    (hran : Ssh.exec c.polling c.session line scene.world = (r, w')) :
    Comes (d.perform c job (.clean directory line)) scene
      (((r.mapError (.commandFailed (toString c.target) line)).map fun _ => 0).mapError
        .connection) w' := by
  refine (Connection.comes_execute_of_exec htransport hran).bind fun events => ?_
  rcases r with failure | result
  · exact comes_pure ..
  · by_cases h : result.isSuccess
    · simp only [Except.mapError, h]
      exact comes_pure ..
    · simp only [Except.mapError, h]
      exact (comes_note _ _).bind fun _ => comes_pure ..

theorem Deployer.comes_perform_relink (htransport : d.transport = Ssh.transport σ files)
    (hran : Ssh.exec c.polling c.session line scene.world = (r, w')) :
    Comes (d.perform c job (.relink directory line)) scene
      (job.relinked directory (r.mapError (.commandFailed (toString c.target) line))) w' := by
  refine (Connection.comes_execute_of_exec htransport hran).bind fun events => ?_
  rcases r with failure | result
  · exact comes_pure ..
  · by_cases h : result.exitCode = 0
    · simp only [Except.mapError, CommandResult.isSuccess, Job.relinked, h]
      exact comes_pure ..
    · simp only [Except.mapError, CommandResult.isSuccess, Job.relinked, h]
      exact comes_pure ..

theorem Deployer.comes_perform_of_line (htransport : d.transport = Ssh.transport σ files)
    (hline : d.lockout.line? step = some line)
    (hran : Ssh.exec c.polling c.session line w = (r, w')) :
    ∃ (a : Attempt d.lockout c) (v : Except DeployError Nat), a.1 = step ∧
      a.exchange = ⟨.exec c.polling c.session line, some r⟩ ∧ a.verdict job = some v ∧
      (∀ events, Comes (d.perform c job step) ⟨w, events⟩ v w') ∧
      ∀ n, v = .ok n → n = 0 ∧ ∃ result, r = .ok result := by
  cases step with
  | transfer => cases hline
  | lockCheck request =>
    cases hline
    refine ⟨⟨.lockCheck request, some r⟩, _, rfl, rfl, ?_,
      fun events => comes_perform_lockCheck htransport hran, ?_⟩
    · rcases r with failure | result
      · rfl
      · by_cases h : result.exitCode = 0 <;>
          simp [Attempt.verdict, Step.verdict, Lock.Request.judge, Except.mapError, Except.map,
            Job.lockFailure, h]
    · rcases r with failure | result
      · intro n hn
        cases hn
      · intro n hn
        refine ⟨?_, result, rfl⟩
        by_cases h : result.exitCode = 0 <;>
          simp [Lock.Request.judge, Except.mapError, Except.map, h] at hn
        exact hn.symm
  | clean directory command =>
    cases hline
    refine ⟨⟨.clean directory line, some r⟩, _, rfl, rfl, ?_,
      fun events => comes_perform_clean htransport hran, ?_⟩
    · rcases r with failure | result <;> rfl
    · rcases r with failure | result
      · intro n hn
        cases hn
      · rintro n ⟨⟩
        exact ⟨rfl, result, rfl⟩
  | relink directory command =>
    cases hline
    refine ⟨⟨.relink directory line, some r⟩, _, rfl, rfl, ?_,
      fun events => comes_perform_relink htransport hran, ?_⟩
    · rcases r with failure | result <;> rfl
    · rcases r with failure | result
      · intro n hn
        cases hn
      · intro n hn
        refine ⟨?_, result, rfl⟩
        by_cases h : result.exitCode = 0 <;> simp [Job.relinked, Except.mapError, h] at hn
        exact hn.symm

end Answered

theorem Deployer.comes_performAll_of_unopened
    (htransport : d.transport = Ssh.transport σ files) {fault : FileSystem.Fault}
    (hopen : Ssh.openSource files job.artifact.path = .error fault) (dir : String)
    (rest : List Step) (report : Report) (w : σ) (events : List Event) :
    Comes (d.performAll c job report (job.upload dir :: rest)) ⟨w, events⟩
      (.error (.connection (.transferFailed (toString c.target) job.artifact.path.text
        (Shell.Command.joinRemote dir job.delivered)
        (.io ("open " ++ job.artifact.path.text) fault.message))))
      (Ssh.ask (.setBlocking c.session true) w).2 := by
  have hupload (events : List Event) : Comes
      (c.upload (Ssh.transport σ files) job.artifact.path
        (Shell.Command.joinRemote dir job.delivered)) ⟨w, events⟩ _ _ :=
    Connection.comes_upload _ _ _
  simp only [Ssh.upload_of_unopened hopen, ← htransport] at hupload
  have hperform (events : List Event) : Comes (d.perform c job (job.upload dir))
      ⟨w, events⟩ (.error (.connection _)) _ :=
    (hupload events).bind fun _ => comes_pure ..
  exact comes_performAll_fail hperform events

end Sending

section Recording

variable {σ : Type} [Peer σ] [EndsCommands σ] {files : FileSystem}
  {d : Deployer (Rehearsal (Recorded σ)) Handle} {c : Connection Handle} {job : Job}

/-- The steps in front of one passed, and that one failed: on the answer to its line, which was the
last one sent, or before its line was sent. -/
def Job.FailsBy (job : Job) (l : Lockout) (c : Connection Handle) (steps : List Step)
    (lines : List String) (e : DeployError) (w : Recorded σ) : Prop :=
  ∃ (passed : List Step) (a : Attempt l c) (later : List Step) (line : String)
      (r : Except Failure CommandResult) (before : Recorded σ),
    passed ++ a.1 :: later = steps ∧ l.line? a.1 = some line ∧
      a.exchange = ⟨.exec c.polling c.session line, some r⟩ ∧
      Ssh.exec c.polling c.session line before = (r, w) ∧ a.verdict job = some (.error e) ∧
      (lines = passed.filterMap l.line? ++ [line] ∨
        lines = passed.filterMap l.line? ∧ ∃ failure, r = .error failure)

namespace Job.FailsBy

variable {l : Lockout} {steps : List Step} {lines : List String} {e : DeployError} {w : Recorded σ}

theorem cons (h : job.FailsBy l c steps lines e w) {step : Step} {line : String}
    (hline : l.line? step = some line) : job.FailsBy l c (step :: steps) (line :: lines) e w := by
  obtain ⟨passed, a, later, last, r, before, rfl, hlast, hexchange, hran, hverdict, hsent⟩ := h
  refine ⟨step :: passed, a, later, last, r, before, rfl, hlast, hexchange, hran, hverdict, ?_⟩
  rw [List.filterMap_cons_some hline]
  obtain rfl | ⟨rfl, hr⟩ := hsent
  · exact .inl rfl
  · exact .inr ⟨rfl, hr⟩

theorem isPrefix (h : job.FailsBy l c steps lines e w) : lines <+: steps.filterMap l.line? := by
  obtain ⟨passed, a, later, last, r, before, rfl, hlast, -, -, -, hsent⟩ := h
  rw [List.filterMap_append, List.filterMap_cons_some hlast]
  obtain rfl | ⟨rfl, -⟩ := hsent
  · exact ⟨later.filterMap l.line?, List.append_assoc ..⟩
  · exact List.prefix_append ..

end Job.FailsBy

theorem Deployer.comes_performAll_of_lines
    (htransport : d.transport = Ssh.transport (Recorded σ) files) (job : Job) {steps : List Step}
    (hlines : ∀ step ∈ steps, ∃ line, d.lockout.line? step = some line) (rest : List Step)
    (report : Report) (w : Recorded σ) :
    ∃ (w' : Recorded σ) (sent : List (Handle × String)),
      acted w'.log = acted w.log ++ sent.map (fun s => .exec s.1 s.2) ∧
      (sent.map (·.2) = steps.filterMap d.lockout.line? ∧
          (∀ o v, (∀ events, Comes (d.performAll c job (report.extend steps 0) rest) ⟨w', events⟩ o v) →
            ∀ events, Comes (d.performAll c job report (steps ++ rest)) ⟨w, events⟩ o v) ∨
        ∃ e : DeployError, job.FailsBy d.lockout c steps (sent.map (·.2)) e w' ∧
          ∀ events, Comes (d.performAll c job report (steps ++ rest)) ⟨w, events⟩ (.error e) w') := by
  -- By induction on the steps: what a step that passes sent comes before what the rest of them send.
  induction steps generalizing w report with
  | nil =>
    refine ⟨w, [], (List.append_nil _).symm, .inl ⟨rfl, fun o v h => ?_⟩⟩
    rwa [report.extend_nil] at h
  | cons step steps ih =>
    obtain ⟨⟨line, hline⟩, hothers⟩ := List.forall_mem_cons.mp hlines
    have hsent := Ssh.acted_exec c.polling c.session line w
    obtain ⟨r, w₁, hran⟩ : ∃ r w₁, Ssh.exec c.polling c.session line w = (r, w₁) := ⟨_, _, rfl⟩
    rw [hran] at hsent
    obtain ⟨a, v, rfl, hexchange, hverdict, hperform, hok⟩ :
        ∃ (a : Attempt d.lockout c) (v : Except DeployError Nat), a.1 = step ∧
          a.exchange = ⟨.exec c.polling c.session line, some r⟩ ∧ a.verdict job = some v ∧ _ :=
      comes_perform_of_line htransport hline hran
    cases v with
    | error e =>
      have hcomes (events : List Event) :
          Comes (d.performAll c job report (a.1 :: steps ++ rest)) ⟨w, events⟩ (.error e) w₁ :=
        comes_performAll_fail hperform events
      obtain ⟨handle, hsent⟩ | ⟨hsame, failure, rfl⟩ := hsent
      · exact ⟨w₁, [(handle, line)], hsent, .inr ⟨e,
          ⟨[], a, steps, line, r, w, rfl, hline, hexchange, hran, hverdict, .inl rfl⟩, hcomes⟩⟩
      · refine ⟨w₁, [], hsame.trans (List.append_nil _).symm, .inr ⟨e, ?_, hcomes⟩⟩
        exact ⟨[], a, steps, line, _, w, rfl, hline, hexchange, hran, hverdict, .inr ⟨rfl, failure, rfl⟩⟩
    | ok n =>
      obtain ⟨rfl, result, rfl⟩ := hok n rfl
      obtain ⟨handle, hsent⟩ | ⟨-, _, ⟨⟩⟩ := hsent
      obtain ⟨w', sent, hacted, hend⟩ := ih hothers (report.add a.1 0) w₁
      refine ⟨w', (handle, line) :: sent, ?_, hend.imp ?_ ?_⟩
      · rw [hacted, hsent, List.append_assoc]
        rfl
      · rintro ⟨hall, hrest⟩
        rw [report.extend_add] at hrest
        refine ⟨?_, fun o v h => comes_performAll_pass hperform (hrest o v h)⟩
        rw [List.filterMap_cons_some hline, ← hall]
        rfl
      · rintro ⟨e, hfails, hcomes⟩
        exact ⟨e, hfails.cons hline, comes_performAll_pass hperform hcomes⟩

/-- A job whose archive cannot be opened always fails on a server that ends every command, and nothing
is uploaded for it: the server is sent the lines of the steps in front of the first upload, or those up
to a step that fails. A swap has but its lock there; a job that overwrites has cleaned all directories
by then. -/
theorem Deployer.runOn_of_unopened {σ : Type} [Peer σ] [EndsCommands σ] {files : FileSystem}
    {d : Deployer (Rehearsal (Recorded σ)) Handle} {c : Connection Handle} {job : Job}
    (htransport : d.transport = Ssh.transport (Recorded σ) files)
    (hvalid : job.validate = .ok ()) {fault : FileSystem.Fault}
    (hopen : Ssh.openSource files job.artifact.path = .error fault) (scene : Scene (Recorded σ)) :
    ∃ (e : DeployError) (w : Recorded σ) (sent : List (Handle × String)),
      Comes (d.runOn c job) scene (.error e) w ∧
      acted w.log = acted scene.world.log ++ sent.map (fun s => .exec s.1 s.2) ∧
      (∀ link, job.mode = .symlinkSwap link → ∀ s ∈ sent, ∃ request,
        job.lock = some request ∧ s.2 = d.lockout.commandFor request) ∧
      (sent.map (·.2) = job.preparation.filterMap d.lockout.line? ∧
          (∃ first, job.remotePaths.head? = some first ∧
            e = .connection (.transferFailed (toString c.target) job.artifact.path.text
              (Shell.Command.joinRemote first job.delivered)
              (.io ("open " ++ job.artifact.path.text) fault.message))) ∨
        sent.map (·.2) <+: job.preparation.filterMap d.lockout.line? ∧
          job.FailsBy d.lockout c job.preparation (sent.map (·.2)) e w) := by
  obtain ⟨first, rest, hfirst, hsteps⟩ := job.steps_of_validate hvalid
  obtain ⟨w, sent, hacted, hend⟩ := comes_performAll_of_lines (c := c) htransport job
    (fun step => job.line?_of_mem_preparation d.lockout) (job.upload first :: rest) (.start job)
    scene.world
  have hlock (hsome : sent.map (·.2) <+: job.preparation.filterMap d.lockout.line?) :
      ∀ link, job.mode = .symlinkSwap link → ∀ s ∈ sent, ∃ request,
        job.lock = some request ∧ s.2 = d.lockout.commandFor request := by
    intro link hmode s hs
    obtain ⟨step, hstep, hline⟩ :=
      List.mem_filterMap.mp (hsome.subset (List.mem_map_of_mem hs))
    obtain ⟨request, hrequest, rfl⟩ := job.lock_of_mem_preparation hmode hstep
    exact ⟨request, hrequest, (Option.some_inj.mp hline).symm⟩
  rw [← hsteps] at hend
  obtain ⟨hall, hrest⟩ | ⟨e, hfails, hcomes⟩ := hend
  · have hunopened := comes_performAll_of_unopened (c := c) htransport hopen first rest
      ((Report.start job).extend job.preparation 0) w
    refine ⟨_, _, sent, comes_runOn_fail hvalid (hrest _ _ hunopened), ?_, hlock (hall ▸ List.prefix_rfl),
      .inl ⟨hall, first, hfirst, rfl⟩⟩
    exact (Ssh.acted_ask_of_not_acts rfl w).trans hacted
  · exact ⟨e, w, sent, comes_runOn_fail hvalid hcomes, hacted, hlock hfails.isPrefix,
      .inr ⟨hfails.isPrefix, hfails⟩⟩

theorem Deployer.runOn_of_unopened_to_two_spellings :
    let job := Job.toTwoSpellings (.overwrite "plugin")
    let d : Deployer (Rehearsal (Recorded Rehearsal.Host)) Handle :=
      { transport := Ssh.transport (Recorded Rehearsal.Host) {}, files := {}, operator := {} }
    let c : Connection Handle := ⟨job.target, "jane", 0, {}⟩
    job.validate = .ok () ∧ (∃ fault, Ssh.openSource {} job.artifact.path = .error fault) ∧
      ∃ (e : DeployError) (w : Recorded Rehearsal.Host),
        Comes (d.runOn c job) ⟨⟨{}, []⟩, []⟩ (.error e) w ∧
        ∀ call ∈ acted w.log, ∃ handle line, call = .exec handle line := by
  intro job d c
  have hvalid : job.validate = .ok () := by decide
  obtain ⟨fault, hopen⟩ := Ssh.exists_fault_of_no_files job.artifact.path
  obtain ⟨e, w, sent, hends, hacted, -⟩ :=
    runOn_of_unopened (d := d) (c := c) rfl hvalid hopen ⟨⟨{}, []⟩, []⟩
  refine ⟨hvalid, ⟨fault, hopen⟩, e, w, hends, fun call hcall => ?_⟩
  rw [hacted] at hcall
  obtain ⟨s, -, rfl⟩ := List.mem_map.mp (hcall : call ∈ sent.map _)
  exact ⟨s.1, s.2, rfl⟩

end Recording

/-- The archive of an overwrite cannot be opened, and all versions are gone when that is found. -/
theorem Deployer.runOn_cleans_before_opening :
    let job := { Job.toTwoSpellings (.overwrite "plugin") with remotePaths := ["/srv/plugins"] }
    let d : Deployer (Rehearsal Rehearsal.Host) Handle :=
      { transport := Ssh.transport Rehearsal.Host {}, files := {}, operator := {} }
    let c : Connection Handle := ⟨job.target, "jane", 0, {}⟩
    let line := Shell.Command.clean "/srv/plugins" "plugin"
    job.validate = .ok () ∧ (∃ fault, Ssh.openSource {} job.artifact.path = .error fault) ∧
      (∃ failure w, Comes (d.runOn c job) ⟨{}, []⟩
        (.error (.connection (.transferFailed (toString c.target) job.artifact.path.text
          "/srv/plugins/plugin-1.0.jar" failure))) w ∧ w.commands = [line]) ∧
      ∀ t t', Remote.Host.spelled.Executes line t t' true →
        ∃ there, Remote.Host.spelled.entered? [] "/srv/plugins" = some there ∧
          t' there "plugin-0.9.jar" = none := by
  intro job d c line
  have hvalid : job.validate = .ok () := by decide
  obtain ⟨fault, hopen⟩ := Ssh.exists_fault_of_no_files job.artifact.path
  refine ⟨hvalid, ⟨fault, hopen⟩, ?_, ?_⟩
  · have hran := Speechless.exec c.polling (show Rehearsal.Host.hasNul line = false by decide)
    have hsteps : job.steps = [.clean "/srv/plugins" line, job.upload "/srv/plugins"] := by decide
    have hplace : Shell.Command.joinRemote "/srv/plugins" job.delivered =
        "/srv/plugins/plugin-1.0.jar" := by decide
    have hclean (events : List Event) : Comes (d.perform c job (.clean "/srv/plugins" line))
        ⟨{}, events⟩ (.ok 0) (Speechless.host line true) :=
      comes_perform_clean (r := .ok ⟨0, [], []⟩) rfl hran
    have hupload := comes_performAll_of_unopened (d := d) (c := c) rfl hopen "/srv/plugins" []
      ((Report.start job).add (.clean "/srv/plugins" line) 0) (Speechless.host line true)
    rw [hplace] at hupload
    have hall := comes_performAll_pass hclean hupload
    rw [← hsteps] at hall
    exact ⟨_, _, comes_runOn_fail hvalid hall, rfl⟩
  · intro t t' hexecutes
    have hplain : Remote.Host.Plain "/srv/plugins" "plugin" := by
      constructor <;> decide
    obtain ⟨there, hthere, rfl⟩ :=
      (hexecutes _ (Remote.Host.commands?_clean hplain)).of_clean
    exact ⟨there, hthere, Remote.Contents.lay_of ⟨rfl, "-0.9", rfl⟩⟩

end Rollout
