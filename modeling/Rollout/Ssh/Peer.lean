import Rollout.Transport

/-!
What a secure shell session is driven through: the calls, the reply each one gets, and peers that
answer them. A peer is a state, and its answers may depend on everything that went before.
-/

namespace Rollout.Ssh

inductive Domain
  | session
  | sftp
  deriving DecidableEq

structure Fault where
  domain : Domain
  code : Int
  text : String
  deriving DecidableEq

def Domain.name : Domain → String
  | .session => "Session"
  | .sftp => "SFTP"

def Fault.message (f : Fault) : String :=
  "[" ++ f.domain.name ++ "(" ++ toString f.code ++ ")] " ++ f.text

def Fault.isTimeout (f : Fault) : Bool := f.domain = .session ∧ f.code = -9

def Fault.failure (operation : String) (f : Fault) : Failure :=
  if f.isTimeout then .timeout operation else .protocol operation f.message

inductive DialFault
  | timedOut
  | refused (reason : String)
  deriving DecidableEq

inductive ReadFault
  | wouldBlock
  | timedOut (reason : String)
  | broken (reason : String)
  deriving DecidableEq

inductive Stream
  | stdout
  | stderr
  deriving DecidableEq

def longestTimeout : Nat := 4294967295

/-- The milliseconds that a session is given for a span; zero means for ever. -/
def timeoutFor (span : Duration) : Nat := min span.millis longestTimeout

/-- The milliseconds that a session is given for one wait, which is never for ever. -/
def waitFor (interval : Duration) : Nat := max (timeoutFor interval) 1

theorem waitFor_pos (interval : Duration) : 0 < waitFor interval := Nat.le_max_right ..

abbrev Address := String

abbrev Handle := Nat

inductive Call
  | resolve (host : String) (port : UInt16)
  | dial (address : Address) (timeout : Duration)
  | setUp (socket : Handle)
  | setBlocking (session : Handle) (blocking : Bool)
  /-- Milliseconds that a blocking call may take; zero means for ever. -/
  | setTimeout (session : Handle) (timeout : Nat)
  | handshake (session : Handle)
  | offerKeyFile (session : Handle) (user : String) (path : Path) (passphrase : Option String)
  | agentKeys (session : Handle)
  | offerAgentKey (session : Handle) (user : String) (key : Handle)
  | leaveAgent (session : Handle)
  | isAuthenticated (session : Handle)
  | openChannel (session : Handle)
  | exec (channel : Handle) (command : String)
  | read (channel : Handle) (stream : Stream) (limit : Nat)
  | atEnd (channel : Handle)
  | awaitClose (channel : Handle)
  | exitStatus (channel : Handle)
  | exitSignal (channel : Handle)
  | openSftp (session : Handle)
  | create (sftp : Handle) (path : String)
  | write (file : Handle) (bytes : Bytes)
  deriving DecidableEq

@[reducible] def Call.Reply : Call → Type
  | .resolve .. => Option (List Address)
  | .dial .. => Except DialFault Handle
  | .setUp _ => Except Fault Handle
  | .setBlocking .. => Unit
  | .setTimeout .. => Unit
  | .handshake _ => Except Fault Unit
  | .offerKeyFile .. => Except Fault Unit
  | .agentKeys _ => Except Fault (List Handle)
  | .offerAgentKey .. => Except Fault Unit
  | .leaveAgent _ => Except Fault Unit
  | .isAuthenticated _ => Bool
  | .openChannel _ => Except Fault Handle
  | .exec .. => Except Fault Unit
  | .read .. => Except ReadFault Bytes
  | .atEnd _ => Bool
  | .awaitClose _ => Except Fault Unit
  | .exitStatus _ => Except Fault Int
  | .exitSignal _ => Except Fault (Option String)
  | .openSftp _ => Except Fault Handle
  | .create .. => Except Fault Handle
  | .write .. => Except String Nat

def received : Except ReadFault Bytes → Bytes
  | .ok bytes => bytes
  | .error _ => []

def isIdle : Except ReadFault Bytes → Bool
  | .ok bytes => bytes.isEmpty
  | .error .wouldBlock => true
  | .error _ => false

class Peer (σ : Type) where
  answer : (c : Call) → σ → c.Reply × σ

open Peer in
/-- Peers on which every command ends. The backlog bounds what the running commands still have to say:
what is read leaves it, and a round of idle reads on a command that has not ended takes it down. -/
class EndsCommands (σ : Type) [Peer σ] where
  backlog : σ → Nat
  backlog_setBlocking : ∀ {s b w}, backlog (answer (.setBlocking s b) w).2 ≤ backlog w
  backlog_setTimeout : ∀ {s t w}, backlog (answer (.setTimeout s t) w).2 ≤ backlog w
  backlog_read : ∀ {ch st n w},
    backlog (answer (.read ch st n) w).2 + (received (answer (.read ch st n) w).1).length ≤ backlog w
  backlog_idle : ∀ {ch n w}, 0 < n → isIdle (answer (.read ch .stdout n) w).1 →
    isIdle (answer (.read ch .stderr n) (answer (.read ch .stdout n) w).2).1 →
    (answer (.atEnd ch) (answer (.read ch .stderr n) (answer (.read ch .stdout n) w).2).2).1 = false →
    backlog (answer (.atEnd ch) (answer (.read ch .stderr n) (answer (.read ch .stdout n) w).2).2).2 <
      backlog w

variable {σ : Type}

def ask [Peer σ] (c : Call) : StateM σ c.Reply := Peer.answer c

open EndsCommands (backlog) in
theorem backlog_ask_read [Peer σ] [EndsCommands σ] (ch : Handle) (st : Stream) (n : Nat) (w : σ) :
    backlog (ask (.read ch st n) w).2 + (received (ask (.read ch st n) w).1).length ≤ backlog w :=
  EndsCommands.backlog_read

abbrev Operation (σ : Type) := ExceptT Failure (StateM σ)

def call [Peer σ] (c : Call) : Operation σ c.Reply := ExceptT.lift (ask c)

def attempt {α : Type} (name : String) (asked : StateM σ (Except Fault α)) : Operation σ α :=
  ExceptT.mk do return (← asked).mapError (Fault.failure name)

end Rollout.Ssh
