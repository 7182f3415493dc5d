import Mathlib.Logic.Relation
import Rollout.Proofs.Parking

/-!
The mode of a session: whether its calls block, and for how long. It is set all over the place, by the
session as well as by its running command, and every operation can fail half-way.
-/

namespace Rollout

namespace Ssh

structure Mode where
  blocking : Bool := true
  timeout : Nat := 0

namespace Mode

def call (s : Handle) (m : Mode) : Call → Mode
  | .setBlocking session blocking => if session = s then { m with blocking } else m
  | .setTimeout session timeout => if session = s then { m with timeout } else m
  | _ => m

def after (s : Handle) (m : Mode) (log : List Answered) : Mode :=
  log.foldl (fun m a => m.call s a.1) m

@[simp] theorem call_setBlocking (s : Handle) (m : Mode) (blocking : Bool) :
    m.call s (.setBlocking s blocking) = { m with blocking } := if_pos rfl

@[simp] theorem call_setTimeout (s : Handle) (m : Mode) (timeout : Nat) :
    m.call s (.setTimeout s timeout) = { m with timeout } := if_pos rfl

@[simp] theorem blocking_setTimeout (s session : Handle) (m : Mode) (timeout : Nat) :
    (m.call s (.setTimeout session timeout)).blocking = m.blocking := by
  rw [call]
  split <;> rfl

end Mode

def Suits (s : Handle) (Q : Call → Mode → Prop) (m : Mode) : List Answered → Prop
  | [] => True
  | a :: rest => Q a.1 m ∧ Suits s Q (m.call s a.1) rest

section Running

variable {σ α β : Type} {s : Handle} {Q : Call → Mode → Prop} {m : Mode}

theorem suits_append {log more : List Answered} :
    Suits s Q m (log ++ more) ↔ Suits s Q m log ∧ Suits s Q (m.after s log) more := by
  induction log generalizing m with
  | nil => simp [Suits, Mode.after]
  | cons a rest ih => simp [Suits, Mode.after, ih, and_assoc]

@[simp] theorem Mode.after_append (log more : List Answered) :
    m.after s (log ++ more) = (m.after s log).after s more :=
  List.foldl_append

/-- Calls that suit, from a mode on; what holds of the result and of the mode then. -/
def Runs (s : Handle) (Q : Call → Mode → Prop) (p : StateM (Recorded σ) α) (m : Mode)
    (R : α → Mode → Prop) : Prop :=
  ∀ w : Recorded σ, ∃ more, (p w).2.log = w.log ++ more ∧ Suits s Q m more ∧
    R (p w).1 (m.after s more)

namespace Runs

theorem pure {a : α} {R : α → Mode → Prop} (h : R a m) :
    Runs s Q (Pure.pure a : StateM (Recorded σ) α) m R :=
  fun _ => ⟨[], (List.append_nil _).symm, trivial, h⟩

theorem bind {p : StateM (Recorded σ) α} {f : α → StateM (Recorded σ) β} {R : β → Mode → Prop}
    (h : Runs s Q p m fun a m' => Runs s Q (f a) m' R) : Runs s Q (p >>= f) m R := by
  intro w
  obtain ⟨more, hlog, hsuits, hrest⟩ := h w
  obtain ⟨later, hlog', hsuits', hR⟩ := hrest (p w).2
  refine ⟨more ++ later, ?_, suits_append.mpr ⟨hsuits, hsuits'⟩, ?_⟩
  · rw [← List.append_assoc, ← hlog]
    exact hlog'
  · rw [Mode.after_append]
    exact hR

theorem mode {p : StateM (Recorded σ) α} {R : α → Mode → Prop} {w : Recorded σ}
    (h : Runs s Q p (Mode.after s {} w.log) R) : R (p w).1 (Mode.after s {} (p w).2.log) := by
  obtain ⟨more, hlog, -, hr⟩ := h w
  rw [hlog, Mode.after_append]
  exact hr

theorem mono {p : StateM (Recorded σ) α} {R R' : α → Mode → Prop} (h : Runs s Q p m R)
    (hR : ∀ a m', R a m' → R' a m') : Runs s Q p m R' := by
  intro w
  obtain ⟨more, hlog, hsuits, hr⟩ := h w
  exact ⟨more, hlog, hsuits, hR _ _ hr⟩

theorem keeping {p : StateM (Recorded σ) α} {f : α → StateM (Recorded σ) β} {R : β → Mode → Prop}
    (h : Runs s Q p m fun _ m' => m' = m) (hrest : ∀ a, Runs s Q (f a) m R) :
    Runs s Q (p >>= f) m R := by
  apply bind
  apply h.mono
  rintro a _ rfl
  exact hrest a

theorem andThen {p : Operation (Recorded σ) α} {f : α → Operation (Recorded σ) β}
    {R : Except Failure β → Mode → Prop}
    (h : Runs s Q p m fun
      | .error failure, m' => R (.error failure) m'
      | .ok a, m' => Runs s Q (f a) m' R) : Runs s Q (p >>= f : Operation (Recorded σ) β) m R := by
  -- The bind of an operation is that of the state below it, with the error passed on.
  apply Runs.bind (f := ExceptT.bindCont f)
  apply h.mono
  intro r m' hr
  cases r with
  | error failure => exact pure hr
  | ok a => exact hr

theorem attempt {name : String} {asked : StateM (Recorded σ) (Except Fault α)}
    {R : Except Failure α → Mode → Prop}
    (h : Runs s Q asked m fun r => R (r.mapError (Fault.failure name))) :
    Runs s Q (Ssh.attempt name asked) m R :=
  h

theorem lift {r : Except Failure α} {R : Except Failure α → Mode → Prop} (h : R r m) :
    Runs s Q (liftM r : Operation (Recorded σ) α) m R :=
  pure h

variable [Peer σ]

theorem ask {c : Call} {R : c.Reply → Mode → Prop} (hQ : Q c m) (h : ∀ r, R r (m.call s c)) :
    Runs s Q (Ssh.ask c : StateM (Recorded σ) c.Reply) m R :=
  fun _ => ⟨[⟨c, _⟩], rfl, ⟨hQ, trivial⟩, h _⟩

theorem call {c : Call} {R : Except Failure c.Reply → Mode → Prop} (hQ : Q c m)
    (h : ∀ r, R (.ok r) (m.call s c)) :
    Runs s Q (Ssh.call c : Operation (Recorded σ) c.Reply) m R :=
  ask hQ h

end Runs

end Running

/-! ### Logging in -/

def Call.LogsIn (s : Handle) : Call → Prop
  | .handshake session
  | .offerKeyFile session _ _ _
  | .agentKeys session
  | .offerAgentKey session _ _
  | .leaveAgent session
  | .isAuthenticated session => session = s
  | _ => False

namespace Login

variable {σ : Type} [Peer σ] {s session : Handle} {t : Nat} {m : Mode}

def Bounded (s : Handle) (t : Nat) (c : Call) (m : Mode) : Prop := c.LogsIn s → m.timeout = t

theorem runs_dialEach (target : Target) (last : Option DialFault) (addresses : List Address) :
    Runs s (Bounded s t) (dialEach (σ := Recorded σ) target last addresses) m
      fun _ m' => m' = m := by
  induction addresses generalizing last with
  | nil => exact .pure rfl
  | cons address rest ih =>
    rw [dialEach]
    refine .andThen (.call nofun fun reply => ?_)
    cases reply with
    | ok socket => exact .pure rfl
    | error fault => exact ih _

theorem runs_greet (target : Target) :
    Runs s (Bounded s (timeoutFor target.connectTimeout))
      (greet (σ := Recorded σ) target) m fun r m' => m'.blocking = m.blocking ∧
        (r = .ok s → m'.timeout = timeoutFor target.connectTimeout) := by
  rw [greet]
  refine .andThen (.mono (R := fun _ m' => m' = m) ?_ fun r m' hm => ?_)
  · rw [dial]
    exact .andThen (.call nofun fun addresses => runs_dialEach _ _ _)
  subst hm
  cases r with
  | error failure => exact ⟨rfl, nofun⟩
  | ok socket =>
    refine .andThen (.attempt (.ask nofun fun reply => ?_))
    cases reply with
    | error fault => exact ⟨rfl, nofun⟩
    | ok session =>
      refine .andThen (.call nofun fun _ => .andThen (.attempt (.ask ?_ fun reply => ?_)))
      · rintro rfl
        rw [Mode.call_setTimeout]
      · cases reply with
        | error fault => exact ⟨Mode.blocking_setTimeout .., nofun⟩
        | ok _ =>
          refine .pure ⟨Mode.blocking_setTimeout .., ?_⟩
          rintro ⟨⟩
          exact congrArg Mode.timeout (Mode.call_setTimeout ..)

theorem runs_offerAgentKeys (user : String) (keys : List Handle) (h : session = s → m.timeout = t) :
    Runs s (Bounded s t) (offerAgentKeys (σ := Recorded σ) session user keys) m
      fun _ m' => m' = m := by
  induction keys with
  | nil => exact .pure rfl
  | cons key rest ih =>
    rw [offerAgentKeys]
    refine .bind (.ask h fun reply => ?_)
    cases reply with
    | error fault => exact ih
    | ok _ =>
      refine .bind (.ask h fun accepted => ?_)
      cases accepted with
      | false => exact ih
      | true => exact .pure rfl

theorem runs_offer (user : String) (identity : Identity) (h : session = s → m.timeout = t) :
    Runs s (Bounded s t) (offer (σ := Recorded σ) session user identity) m fun _ m' => m' = m := by
  have hagent : Runs s (Bounded s t) (offerAgent (σ := Recorded σ) session user) m
      fun _ m' => m' = m := by
    rw [offerAgent]
    refine .bind (.ask h fun reply => ?_)
    cases reply with
    | error fault => exact .pure rfl
    | ok keys =>
      refine .keeping (runs_offerAgentKeys user keys h) fun _ => .bind (.ask h fun left => ?_)
      cases left with
      | ok _ => exact .pure rfl
      | error fault => exact .pure rfl
  cases identity with
  | keyFile path passphrase => exact .bind (.ask h fun reply => .pure rfl)
  | agentSocket _ => exact hagent
  | platformAgent => exact hagent

theorem runs_offerEach (user : String) (identities : List Credential.Resolved)
    (h : session = s → m.timeout = t) :
    Runs s (Bounded s t) (offerEach (σ := Recorded σ) session user identities) m
      fun _ m' => m' = m := by
  induction identities with
  | nil => exact .pure rfl
  | cons r rest ih =>
    rw [offerEach]
    refine .keeping (runs_offer user r.identity h) fun offered => ?_
    cases offered with
    | error fault => exact .keeping ih fun _ => .pure rfl
    | ok notes =>
      refine .bind (.ask h fun accepted => ?_)
      cases accepted with
      | true => exact .pure rfl
      | false => exact .keeping ih fun _ => .pure rfl

end Login

theorem runs_connect {σ : Type} [Peer σ] {s : Handle} {m : Mode} (request : ConnectRequest) :
    Runs s (Login.Bounded s (timeoutFor request.target.connectTimeout))
      (connect (σ := Recorded σ) request) m fun login m' =>
        login.outcome = .ok s → m' = { m with timeout := 0 } := by
  rw [connect]
  split
  · exact .pure nofun
  · refine .bind ((Login.runs_greet request.target).mono fun r m' hm => ?_)
    obtain ⟨hblocking, htimeout⟩ := hm
    cases r with
    | error failure => exact .pure nofun
    | ok session =>
      have ht (hs : session = s) := htimeout (congrArg Except.ok hs)
      refine .keeping (Login.runs_offerEach request.user request.identities ht) fun notes => ?_
      refine .bind (.ask ht fun accepted => ?_)
      cases accepted with
      | false => exact .pure nofun
      | true =>
        refine .bind (.ask nofun fun _ => .pure ?_)
        rintro ⟨⟩
        rw [Mode.call_setTimeout]
        exact congrArg (Mode.mk · 0) hblocking

/-! ### After the login -/

section Operating

variable {σ : Type} [Peer σ] {s : Handle} {m : Mode}

theorem runs_writeAll (file : Handle) (bytes : Bytes) :
    Runs s (fun _ _ => True) (writeAll (σ := Recorded σ) file bytes) m fun _ m' => m' = m := by
  induction bytes using writeAll.induct with
  | case1 =>
    rw [writeAll]
    exact .pure rfl
  | case2 b rest ih =>
    rw [writeAll]
    refine .bind (.ask trivial fun reply => ?_)
    rcases reply with reason | _ | taken
    · exact .pure rfl
    · exact .pure rfl
    · exact ih taken

theorem runs_writeEach (file : Handle) (pieces : List Bytes) :
    Runs s (fun _ _ => True) (writeEach (σ := Recorded σ) file pieces) m fun _ m' => m' = m := by
  induction pieces with
  | nil => exact .pure rfl
  | cons piece rest ih =>
    rw [writeEach]
    refine .keeping (runs_writeAll file piece) fun written => ?_
    cases written with
    | error reason => exact .pure rfl
    | ok _ => exact ih

theorem runs_upload (files : FileSystem) (source : Path) (destination : String) :
    Runs s (fun _ _ => True) (upload (σ := Recorded σ) files s source destination) m
      fun _ m' => m' = { m with blocking := true } := by
  rw [upload]
  -- The mode is set once, by the first call; whatever fails after it leaves it as it is.
  refine .andThen (.call trivial fun _ => ?_)
  rw [Mode.call_setBlocking]
  refine .andThen (.lift ?_)
  cases openSource files source with
  | error fault => exact rfl
  | ok node =>
    refine .andThen (.attempt (.ask trivial fun opened => ?_))
    cases opened with
    | error fault => exact rfl
    | ok sftp =>
      refine .andThen (.attempt (.ask trivial fun created => ?_))
      cases created with
      | error fault => exact rfl
      | ok file =>
        refine .andThen (.lift ?_)
        cases FileSystem.contentOf node with
        | error fault => exact rfl
        | ok content =>
          refine .andThen (.keeping (runs_writeEach file _) fun written => ?_)
          cases written with
          | error reason => exact .pure rfl
          | ok _ => exact .pure (.pure rfl)

theorem runs_start (command : String) :
    Runs s (fun _ _ => True) (start (σ := Recorded σ) s command) m fun
      | .ok _, m' => m' = { m with blocking := false }
      | .error _, m' => m' = { m with blocking := true } := by
  rw [start]
  refine .andThen (.call trivial fun _ => ?_)
  rw [Mode.call_setBlocking]
  refine .andThen (.attempt (.ask trivial fun opened => ?_))
  cases opened with
  | error fault => exact rfl
  | ok channel =>
    refine .andThen (.attempt (.ask trivial fun started => ?_))
    cases started with
    | error fault => exact rfl
    | ok _ => exact .andThen (.call trivial fun _ => .pure (Mode.call_setBlocking ..))

theorem runs_askExit (handle : Handle) :
    Runs s (fun _ _ => True) (Channel.askExit (σ := Recorded σ) s handle) m
      fun _ m' => m' = { m with blocking := true } := by
  rw [Channel.askExit]
  refine .andThen (.call trivial fun _ => ?_)
  rw [Mode.call_setBlocking]
  refine .andThen (.attempt (.ask trivial fun closed => ?_))
  cases closed with
  | error fault => exact rfl
  | ok _ =>
    refine .andThen (.attempt (.ask trivial fun status => ?_))
    cases status with
    | error fault => exact rfl
    | ok _ => exact .andThen (.call trivial fun _ => .pure rfl)

end Operating

/-! ### Any use of a session -/

/-- A wait reads with the session blocking, for a time that has a bound. Whatever else is done with a
running command does not block, until the command is asked how it ended. -/
def Channel.Act.Suits (asked : Bool) : Act → Call → Mode → Prop
  | .await interval, .read .., m => m.blocking = true ∧ 0 < m.timeout ∧ m.timeout ≤ waitFor interval
  | .await _, _, _ => True
  | _, _, m => asked = false → m.blocking = false

/-- A session between two operations, or with a running command. -/
inductive Standing (σ : Type)
  | free (w : Recorded σ)
  | live (c : Channel (Recorded σ)) (asked : Bool)

section Using

variable {σ : Type} [Peer σ] {files : FileSystem} {session : Handle}

namespace Standing

def started (session : Handle) : Except Failure Handle × Recorded σ → Standing σ
  | (.ok handle, w) => .live ⟨w, session, handle, []⟩ false
  | (.error _, w) => .free w

/-- One operation, which may fail. A running command is dropped before the next one is started. -/
inductive Step (files : FileSystem) (session : Handle) : Standing σ → Standing σ → Prop
  | upload (w : Recorded σ) (source : Path) (destination : String) :
      Step files session (.free w) (.free (upload files session source destination w).2)
  | start (w : Recorded σ) (command : String) :
      Step files session (.free w) (started session (start session command w))
  | act (c : Channel (Recorded σ)) (asked : Bool) (act : Channel.Act) :
      Step files session (.live c asked) (.live (c.perform act).2 asked)
  | exit (c : Channel (Recorded σ)) (asked : Bool) :
      Step files session (.live c asked) (.live c.exitCode.2 true)
  | drop (c : Channel (Recorded σ)) (asked : Bool) :
      Step files session (.live c asked) (.free (ask (.setBlocking c.session true) c.peer).2)

def Orderly (session : Handle) : Standing σ → Prop
  | .free w => Mode.after session {} w.log = { blocking := true, timeout := 0 }
  | .live c asked =>
    c.session = session ∧ (Mode.after session {} c.peer.log).timeout = 0 ∧
      (asked = false → (Mode.after session {} c.peer.log).blocking = false)

end Standing

theorem Channel.perform_suits (c : Channel (Recorded σ)) (act : Act) {asked : Bool} {m : Mode}
    (ht : m.timeout = 0) (hb : asked = false → m.blocking = false) :
    ∃ more, (c.perform act).2.peer.log = c.peer.log ++ more ∧
      Ssh.Suits c.session (act.Suits asked) m more ∧ (m.after c.session more).timeout = 0 ∧
      (asked = false → (m.after c.session more).blocking = false) := by
  cases act with
  | readOut limit =>
    by_cases hparked : c.parked = []
    · rw [perform, readOut_of_none limit hparked]
      exact ⟨[⟨.read c.handle .stdout limit, _⟩], rfl, ⟨hb, trivial⟩, ht, hb⟩
    · rw [perform, readOut_of_parked limit hparked]
      exact ⟨[], (List.append_nil _).symm, trivial, ht, hb⟩
  | readErr limit => exact ⟨[⟨.read c.handle .stderr limit, _⟩], rfl, ⟨hb, trivial⟩, ht, hb⟩
  | look => exact ⟨[⟨.atEnd c.handle, _⟩], rfl, ⟨hb, trivial⟩, ht, hb⟩
  | await interval =>
    obtain hsame | ⟨-, -, hread⟩ := await_cases interval c
    · refine ⟨[], ?_, trivial, ht, hb⟩
      simp [perform, hsame]
    · rw [perform, hread]
      refine ⟨_, log_boundedRead c.session c.handle interval c.peer, ?_, ?_, ?_⟩
      · simp only [Ssh.Suits, Mode.call_setBlocking, Mode.call_setTimeout]
        exact ⟨trivial, trivial, ⟨rfl, waitFor_pos interval, Nat.le_refl _⟩, trivial, trivial, trivial⟩
      · simp [Mode.after]
      · simp [Mode.after]

namespace Standing

theorem Step.orderly {st st' : Standing σ} (h : Step files session st st')
    (hst : st.Orderly session) : st'.Orderly session := by
  cases h with
  | upload w source destination =>
    have hmode := (runs_upload (m := Mode.after session {} w.log) files source destination).mode
    rw [hst] at hmode
    exact hmode
  | start w command =>
    have hmode := (runs_start (m := Mode.after session {} w.log) command).mode
    rw [hst] at hmode
    revert hmode
    rcases Ssh.start session command w with ⟨failure | handle, w'⟩
    · exact id
    · intro hmode
      change Mode.after session {} w'.log = { blocking := false, timeout := 0 } at hmode
      exact ⟨rfl, congrArg Mode.timeout hmode, fun _ => congrArg Mode.blocking hmode⟩
  | act c asked act =>
    obtain ⟨rfl, ht, hb⟩ := hst
    obtain ⟨more, hlog, -, ht', hb'⟩ := c.perform_suits act ht hb
    rw [Orderly, hlog, Mode.after_append]
    exact ⟨(c.perform_kept act).1, ht', hb'⟩
  | exit c asked =>
    obtain ⟨rfl, ht, -⟩ := hst
    have hmode := (runs_askExit (m := Mode.after c.session {} c.peer.log) c.handle).mode
    refine ⟨rfl, ?_, nofun⟩
    exact (congrArg Mode.timeout hmode).trans ht
  | drop c asked =>
    obtain ⟨rfl, ht, -⟩ := hst
    change Mode.after c.session {} (c.peer.log ++ [⟨.setBlocking c.session true, ()⟩]) = _
    rw [Mode.after_append]
    exact (Mode.call_setBlocking ..).trans (congrArg (Mode.mk true) ht)

open Relation (ReflTransGen)

theorem orderly_of_steps {st st' : Standing σ} (h : ReflTransGen (Step files session) st st')
    (hst : st.Orderly session) : st'.Orderly session := by
  -- Each step keeps the modes in order, whichever it is.
  induction h with
  | refl => exact hst
  | tail _ hstep ih => exact hstep.orderly ih

theorem steps_of_performAll (c : Channel (Recorded σ)) (acts : List Channel.Act) (asked : Bool) :
    ReflTransGen (Step files session) (.live c asked) (.live (c.performAll acts).2 asked) := by
  induction acts generalizing c with
  | nil => exact .refl
  | cons act rest ih => exact .head (.act c asked act) (ih _)

theorem steps_of_exec [EndsCommands σ] (files : FileSystem) (polling : Polling) (session : Handle) (command : String)
    (w : Recorded σ) :
    ReflTransGen (Step files session) (.free w) (.free (exec polling session command w).2) := by
  have hstart : Step files session (.free w) _ := .start w command
  rw [exec]
  revert hstart
  rcases Ssh.start session command w with ⟨failure | handle, w'⟩
  · exact .single
  · intro hstart
    refine .head hstart ?_
    let c : Channel (Recorded σ) := ⟨w', session, handle, []⟩
    -- Watching a command comes to a list of acts, so it is a run of steps of its own.
    obtain ⟨acts, hacts⟩ := (Channel.keeps_performed c).follow polling
      (show ∃ acts, (c.performAll acts).2 = c from ⟨[], rfl⟩)
    have hlive : ReflTransGen (Step files session) _ _ := steps_of_performAll c acts false
    have hsame := (keeps_handle session handle).follow polling
      (show c.session = session ∧ c.handle = handle from ⟨rfl, rfl⟩)
    rw [hacts] at hlive
    change ReflTransGen (Step files session) (.live c false)
      (.free (ask _ (ExecChannel.run polling c).2.peer).2)
    rw [ExecChannel.run]
    revert hlive hsame
    rcases ExecChannel.follow polling c with ⟨failure | captured, c'⟩
    · rintro hlive ⟨rfl, -⟩
      exact hlive.tail (.drop c' false)
    · rintro hlive ⟨rfl, -⟩
      exact (hlive.tail (.exit c' false)).tail (.drop c'.exitCode.2 true)

/-- Whatever the peer answers: the handshake and the login are given as long as it takes to connect.
From then on a session waits for ever and blocks between operations, and it does not block while a
command runs, but for the waits, which are never for ever. -/
theorem modes_of_connect (request : ConnectRequest) (w : σ) :
    let login := connect request (Recorded.mk w [])
    (∀ s, Suits s (fun c m => c.LogsIn s →
        m.timeout = timeoutFor request.target.connectTimeout) {} login.2.log) ∧
    ∀ session, login.1.outcome = .ok session → ∀ (files : FileSystem),
      (∀ st, ReflTransGen (Step files session) (.free login.2) st → st.Orderly session) ∧
      (∀ c asked, ReflTransGen (Step files session) (.free login.2) (.live c asked) → ∀ act,
        ∃ more, (c.perform act).2.peer.log = c.peer.log ++ more ∧
          Suits session (act.Suits asked) (Mode.after session {} c.peer.log) more) ∧
      ∀ [EndsCommands σ] (w : Recorded σ) polling command, ReflTransGen (Step files session) (.free w)
        (.free (exec polling session command w).2) := by
  intro login
  have hruns (s : Handle) := runs_connect (s := s) (m := {}) request (Recorded.mk w [])
  refine ⟨fun s => ?_, fun session hlogin files => ?_⟩
  · obtain ⟨more, hlog, hsuits, -⟩ := hruns s
    rw [show login.2.log = more from hlog]
    exact hsuits
  · have hfree : Orderly session (.free login.2) := by
      obtain ⟨more, hlog, -, hmode⟩ := hruns session
      rw [Orderly, show login.2.log = more from hlog]
      exact hmode hlogin
    have horderly {st : Standing σ} (h : ReflTransGen (Step files session) (.free login.2) st) :=
      orderly_of_steps h hfree
    refine ⟨fun st => horderly, fun c asked hlive act => ?_, fun {_} w polling command =>
      steps_of_exec files polling session command w⟩
    obtain ⟨rfl, ht, hb⟩ := horderly hlive
    obtain ⟨more, hlog, hsuits, -⟩ := c.perform_suits act ht hb
    exact ⟨more, hlog, hsuits⟩

theorem modes_over_wire :
    let wire : Wire :=
      { coming := [], share := fun _ => 1, lull := fun _ => .wouldBlock, reply := fun _ => obliging }
    let request : ConnectRequest :=
      ⟨{ name := "lab", host := "lab.example.net", connectTimeout := .ofMillis 5000 }, "jane", [], false⟩
    let login := connect request (Recorded.mk wire [])
    login.1.outcome = .ok 0 ∧ Orderly 0 (.free login.2) ∧
      ∃ c, ReflTransGen (Step {} 0) (.free login.2) (.live c false) ∧ Orderly 0 (.live c false) := by
  intro wire request login
  have hlogin : login.1.outcome = .ok 0 := rfl
  obtain ⟨horderly, -⟩ := (modes_of_connect request wire).2 0 hlogin {}
  let c : Channel (Recorded Wire) := ⟨(Ssh.start 0 "uptime" login.2).2, 0, 0, []⟩
  have hstarted : ReflTransGen (Step {} 0) (.free login.2) (.live c false) :=
    .single (.start login.2 "uptime")
  exact ⟨hlogin, horderly _ .refl, c, hstarted, horderly _ hstarted⟩

end Standing

end Using

end Ssh

end Rollout
