import Rollout.Environment
import Rollout.Rehearsal.Channel
import Rollout.Rehearsal.Greeting
import Rollout.Rehearsal.Ipv4
import Rollout.Rehearsal.KeyText
import Rollout.Rehearsal.Scene
import Rollout.Ssh.Peer
import Rollout.Text.Search

/-!
A remote host that takes secure shell sessions, with the local files and the agent that a login needs.
Logins, commands and uploads are put on record. A command is answered by the first reply whose
fragment it contains, on a channel that replays the prepared output.
-/

namespace Rollout.Rehearsal

inductive Welcome
  | session
  | refused
  | unanswered
  | silent
  | saying (words : Bytes)
  deriving DecidableEq

structure Reply where
  channel : Channel := {}
  status : Option Int := none
  signal : Option String := none
  refused : Bool := false

structure Agent where
  place : FileSystem.Place
  keys : List Bytes
  hangsUp : Bool := false

structure Site where
  welcome : Welcome := .session
  port : UInt16 := 0
  authorized : List Authorized := []
  users : List String := []
  replies : List (String × Reply) := []
  hasChannels : Bool := true
  hasSftp : Bool := true
  denied : List (String × Int) := []
  full : List String := []
  agent : Option Agent := none
  passphrase : String := ""
  files : FileSystem := {}
  environment : Environment := {}

structure LoginRecord where
  user : String
  key : String
  deriving DecidableEq

structure UploadRecord where
  path : String
  content : Bytes
  deriving DecidableEq

structure Host where
  site : Site := {}
  sessions : Nat := 0
  admitted : List Ssh.Handle := []
  running : Reply := {}
  logins : List LoginRecord := []
  commands : List String := []
  uploads : List UploadRecord := []

namespace Host

open Ssh

def sessionFault (code : Int) (text : String) : Fault := ⟨.session, code, text⟩

def sftpFault (code : Int) : Fault :=
  ⟨.sftp, code, match code with
    | 2 => "no such file"
    | 3 => "permission denied"
    | _ => "failure"⟩

/-- The addresses of a name; those of four numbers have other spellings. -/
def resolve (host : String) (port : UInt16) : Option (List Address) :=
  let only (place : String) : Option (List Address) := some [place ++ ":" ++ toString port.toNat]
  if host.map Char.toLower = "localhost" then only "127.0.0.1"
  else if host = "::1" then only "[::1]"
  else (Ipv4.parse? host.toList).bind fun address => only address.text

def isNear (address : Address) : Bool := ["127.", "0.", "["].any (·.isPrefixOf address)

def dial (address : Address) (h : Host) : Except DialFault Handle :=
  let refused : Except DialFault Handle := .error (.refused "Connection refused (os error 111)")
  if !isNear address then .error (.refused "Network is unreachable (os error 101)")
  else if address ≠ "127.0.0.1:" ++ toString h.site.port.toNat then refused
  else match h.site.welcome with
    | .refused => refused
    | .unanswered => .error .timedOut
    | _ => .ok h.sessions

def setUp (h : Host) : Handle × Host := (h.sessions, { h with sessions := h.sessions + 1 })

def handshake (h : Host) : Except Fault Unit :=
  match h.site.welcome with
  | .silent => .error (sessionFault (-9) "Timed out waiting on socket")
  | .saying words =>
    match Greeting.search [] words with
    | .named => .error (sessionFault (-1) "Unable to exchange encryption keys")
    | .broken => .error (sessionFault (-2) "Failed getting banner")
    | .ended => .error (sessionFault (-13) "Failed getting banner")
  | _ => .ok ()

/-- Some texts are passed on only up to a zero byte, so none may have one. -/
def hasNul (text : String) : Bool := text.toList.contains '\x00'

def nulFault : Fault :=
  sessionFault (-34) "provided data contained a nul byte and could not be used as as string"

def nulPathFault : Fault := sessionFault (-34) "path provided contains a 0 byte"

def letIn (session : Handle) (user : String) (key : Bytes) (h : Host) : Except Fault Unit × Host :=
  let unfit := sessionFault (-19)
    "Invalid signature for supplied public key, or bad username/public key combination"
  match h.site.authorized.find? (·.publicPart == key) with
  | some known =>
    if h.site.users.isEmpty || h.site.users.contains user then
      (.ok (), { h with
        admitted := session :: h.admitted
        logins := h.logins ++ [⟨user, known.comment⟩] })
    else (.error unfit, h)
  | none => (.error unfit, h)

def unlock (path : Path) (passphrase : Option String) (h : Host) : Except Fault Bytes :=
  let failed (reason : String) : Except Fault Bytes :=
    .error (sessionFault (-16) ("Unable to extract public key from private key file: " ++ reason))
  let unfit := failed "Wrong passphrase or invalid/unrecognized private key file format"
  match (h.site.files.find? path).map FileSystem.contentOf with
  | none => failed "Unable to open private key file"
  | some (.error _) => unfit
  | some (.ok content) =>
    match KeyText.parse? content with
    | some key => if key.encrypted && passphrase != some h.site.passphrase then unfit else .ok key.publicPart
    | none => unfit

def offerKeyFile (session : Handle) (user : String) (path : Path) (passphrase : Option String)
    (h : Host) : Except Fault Unit × Host :=
  if hasNul user then (.error nulFault, h)
  else if hasNul path.text then (.error nulPathFault, h)
  else if passphrase.any hasNul then (.error nulFault, h)
  else match h.unlock path passphrase with
    | .error fault => (.error fault, h)
    | .ok key => h.letIn session user key

def agentKeys (h : Host) : Except Fault (List Bytes) :=
  match h.site.environment.text? "SSH_AUTH_SOCK" with
  | none => .error (sessionFault (-39) "no auth sock variable")
  | some path =>
    match h.site.agent, h.site.files.resolve ⟨path⟩ with
    | some agent, .ok place =>
      if agent.place != place then .error (sessionFault (-42) "failed connecting with agent")
      else if agent.hangsUp then .error (sessionFault (-43) "agent list id failed")
      else .ok agent.keys
    | _, _ => .error (sessionFault (-42) "failed connecting with agent")

def offerAgentKey (session : Handle) (user : String) (key : Handle) (h : Host) :
    Except Fault Unit × Host :=
  if hasNul user then (.error nulFault, h)
  else match (h.site.agent.bind fun agent => agent.keys[key]?) with
    | some key => h.letIn session user key
    | none => (.error (sessionFault (-42) "agent sign failure"), h)

def openChannel (h : Host) : Except Fault Handle :=
  if h.site.hasChannels then .ok 0
  else .error (sessionFault (-21) "Channel open failure (administratively prohibited)")

def exec (command : String) (h : Host) : Except Fault Unit × Host :=
  let reply := (Text.entryFor h.site.replies command).getD {}
  let asked := { h with commands := h.commands ++ [command] }
  if hasNul command then (.error nulFault, h)
  else if reply.refused then
    (.error (sessionFault (-22) "Unable to complete request for channel-process-startup"), asked)
  else (.ok (), { asked with running := reply })

def withChannel (h : Host) (channel : Channel) : Host :=
  { h with running := { h.running with channel } }

def reading (bytes : Bytes) (c : Channel) : Except ReadFault Bytes :=
  if bytes.isEmpty && !c.closed then .error .wouldBlock else .ok bytes

def read (limit : Nat) (h : Host) : Stream → Except ReadFault Bytes × Host
  | .stdout =>
    let taken := h.running.channel.readOut limit
    (reading taken.1 taken.2, h.withChannel taken.2)
  | .stderr =>
    let taken := h.running.channel.readErr limit
    (reading taken.1 taken.2, h.withChannel taken.2)

def atEnd (h : Host) : Bool × Host :=
  let look := h.running.channel.isClosed
  (look.1 && look.2.stdout.isEmpty && look.2.stderr.isEmpty, h.withChannel look.2)

def openSftp (h : Host) : Except Fault Handle :=
  if !h.site.hasChannels then .error (sessionFault (-21) "Unable to startup channel")
  else if !h.site.hasSftp then .error (sessionFault (-21) "Unable to request SFTP subsystem")
  else .ok 0

def create (path : String) (h : Host) : Except Fault Handle × Host :=
  if hasNul path then (.error nulPathFault, h)
  else match Text.entryFor h.site.denied path with
  | some code => (.error (sftpFault code), h)
  | none => (.ok h.uploads.length, { h with uploads := h.uploads ++ [⟨path, []⟩] })

def write (file : Handle) (bytes : Bytes) (h : Host) : Except String Nat × Host :=
  match h.uploads[file]? with
  | none => (.error "failure", h)
  | some upload =>
    if h.site.full.any fun fragment => Text.hasFragment fragment upload.path then (.error "failure", h)
    else
      (.ok bytes.length,
        { h with uploads := h.uploads.set file { upload with content := upload.content ++ bytes } })

def answer (c : Call) (h : Host) : c.Reply × Host :=
  match c with
  | .resolve host port => (resolve host port, h)
  | .dial address _ => (h.dial address, h)
  | .setUp _ => (.ok h.setUp.1, h.setUp.2)
  | .setBlocking .. => ((), h)
  | .setTimeout .. => ((), h)
  | .handshake _ => (h.handshake, h)
  | .offerKeyFile session user path passphrase => h.offerKeyFile session user path passphrase
  | .agentKeys _ => (h.agentKeys.map fun keys => List.range keys.length, h)
  | .offerAgentKey session user key => h.offerAgentKey session user key
  | .leaveAgent _ => (.ok (), h)
  | .isAuthenticated session => (h.admitted.contains session, h)
  | .openChannel _ => (h.openChannel, h)
  | .exec _ command => h.exec command
  | .read _ stream limit => h.read limit stream
  | .atEnd _ => h.atEnd
  | .awaitClose _ => (.ok (), h)
  -- a status travels as a word of 32 bits with a sign
  | .exitStatus _ => (.ok ((h.running.status.getD 0).bmod 0x100000000), h)
  | .exitSignal _ => (.ok h.running.signal, h)
  | .openSftp _ => (h.openSftp, h)
  | .create _ path => h.create path
  | .write file bytes => h.write file bytes

theorem received_reading (bytes : Bytes) (c : Channel) : received (reading bytes c) = bytes := by
  cases bytes with
  | nil => cases hc : c.closed <;> simp [reading, received, hc]
  | cons => simp [reading, received]

theorem eq_nil_of_isIdle {bytes : Bytes} {c : Channel} (h : isIdle (reading bytes c)) : bytes = [] := by
  cases bytes with
  | nil => rfl
  | cons => simp [reading, isIdle] at h

theorem backlog_read (limit : Nat) (stream : Stream) (h : Host) :
    (h.read limit stream).2.running.channel.backlog + (received (h.read limit stream).1).length =
      h.running.channel.backlog := by
  cases stream <;> simp only [read, withChannel, received_reading]
  · exact Channel.backlog_readOut ..
  · exact Channel.backlog_readErr ..

theorem backlog_idle (n : Nat) (h : Host) (hn : 0 < n) (ho : isIdle (h.read n .stdout).1)
    (he : isIdle ((h.read n .stdout).2.read n .stderr).1)
    (hc : ((h.read n .stdout).2.read n .stderr).2.atEnd.1 = false) :
    ((h.read n .stdout).2.read n .stderr).2.atEnd.2.running.channel.backlog <
      h.running.channel.backlog := by
  have h₁ := h.running.channel.backlog_readOut n
  have h₂ := (h.running.channel.readOut n).2.backlog_readErr n
  have hout : h.running.channel.stdout = [] := by
    have := eq_nil_of_isIdle ho
    simp only [Channel.readOut, List.take_eq_nil_iff] at this
    exact this.resolve_left (by omega)
  have herr : h.running.channel.stderr = [] := by
    have := eq_nil_of_isIdle he
    simp only [Channel.readErr, List.take_eq_nil_iff] at this
    exact this.resolve_left (by omega)
  have h₃ := Channel.backlog_open (c := ((h.running.channel.readOut n).2.readErr n).2)
    (by simp [Channel.readOut, Channel.readErr, hout])
    (by simp [Channel.readOut, Channel.readErr, herr]) hc
  show (((h.running.channel.readOut n).2.readErr n).2.isClosed).2.backlog < h.running.channel.backlog
  omega

instance : Peer Host where
  answer := answer

instance : EndsCommands Host where
  backlog h := h.running.channel.backlog
  backlog_setBlocking := Nat.le_refl _
  backlog_setTimeout := Nat.le_refl _
  backlog_read {_ stream limit h} := Nat.le_of_eq (h.backlog_read limit stream)
  backlog_idle {_ n h} := h.backlog_idle n

end Host

end Rollout.Rehearsal
