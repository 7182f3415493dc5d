import Rollout.Event
import Rollout.FileSystem
import Rollout.Operator
import Rollout.Text.Search

/-!
Credential providers and the chain that resolves identities. A provider yields an identity or says
why it was passed over; the chain stops at the first accepted provider that does not let later ones
run.
-/

namespace Rollout

inductive Identity
  | keyFile (path : Path) (passphrase : Option String)
  | agentSocket (path : Path)
  | platformAgent
  deriving DecidableEq

namespace Credential

inductive KeyFault
  | putty
  | noBegin
  | unterminated
  | notPrivate
  deriving DecidableEq

def KeyFault.message : KeyFault → String
  | .putty => "PuTTY key files are not supported, convert it to OpenSSH format"
  | .noBegin => "no BEGIN line found"
  | .unterminated => "key block is not terminated"
  | .notPrivate => "block is not a private key"

def puttyMark : List Char := "PuTTY-User-Key-File-".toList

def beginMark : List Char := "-----BEGIN ".toList

def endMark : List Char := "-----END ".toList

def keyLabel : List Char := "PRIVATE KEY-----".toList

def keyFault? (text : List Char) : Option KeyFault :=
  let text := Text.trimLeft text
  if puttyMark.isPrefixOf text then some .putty
  else match Text.splitAtFirst beginMark text with
    | none => some .noBegin
    | some (_, block) =>
      match Text.splitAtFirst endMark block with
      | none => some .unterminated
      | some (head, foot) =>
        if keyLabel.isSuffixOf (Text.firstLine head) && keyLabel.isSuffixOf (Text.firstLine foot)
        then none else some .notPrivate

def readKey (files : FileSystem) (path : Path) : Except FileSystem.Fault String :=
  match path.fileName with
  | none => .error .noFileName
  | some name => do
    let directory ← files.openDirectory (path.parent.getD ⟨"."⟩)
    files.readEntry directory name

inductive Skip
  | missingVariable (name : String)
  | unknownHome
  | keyNotFound (path : Path)
  | keyUnreadable (path : Path) (fault : FileSystem.Fault)
  | keyUnusable (path : Path) (fault : KeyFault)
  | noAgentSocket (path : Path)
  | noPlatformAgent
  deriving DecidableEq

def Skip.message : Skip → String
  | .missingVariable name => "missing env variable " ++ name
  | .unknownHome => "home directory is unknown"
  | .keyNotFound path => "cannot find identity file at '" ++ path.text ++ "'"
  | .keyUnreadable path fault => "failed to read identity '" ++ path.text ++ "': " ++ fault.message
  | .keyUnusable path fault =>
    "identity '" ++ path.text ++ "' does not look like a usable private key: " ++ fault.message
  | .noAgentSocket path => "agent socket '" ++ path.text ++ "' does not exist"
  | .noPlatformAgent => "pageant can only be used on windows"

def Skip.event? : Skip → Option Event
  | .keyUnreadable path fault =>
    some ⟨.debug, "failed to read identity file", [("path", path.text), ("error", fault.message)]⟩
  | _ => none

inductive Outcome
  | accepted (identity : Identity)
  | skipped (why : Skip)
  deriving DecidableEq

def loadKey (files : FileSystem) (operator : Operator) (path : Path) : Outcome :=
  match readKey files path with
  | .error fault =>
    if fault.isAbsence then .skipped (.keyNotFound path) else .skipped (.keyUnreadable path fault)
  | .ok text =>
    match keyFault? text.toList with
    | some fault => .skipped (.keyUnusable path fault)
    | none => .accepted (.keyFile path operator.passphrase)

inductive Source
  | environmentKeyFile
  | conventionalKeyFile (key : String)
  | agentSocket
  | platformAgent
  deriving DecidableEq

/-- Whether later providers run after this one, unless said otherwise. -/
def Source.continues : Source → Bool
  | .conventionalKeyFile _ => true
  | _ => false

structure Provider where
  source : Source
  continueOnSuccess : Bool := source.continues
  deriving DecidableEq

namespace Provider

def name (p : Provider) : String :=
  match p.source with
  | .environmentKeyFile => "IdentityFileEnv"
  | .conventionalKeyFile key => "$HOME/.ssh/" ++ key
  | .agentSocket => "SSHAgent"
  | .platformAgent => "Pageant"

def outcome (files : FileSystem) (operator : Operator) (p : Provider) : Outcome :=
  match p.source with
  | .environmentKeyFile =>
    match operator.identityFile with
    | some path => loadKey files operator path
    | none => .skipped (.missingVariable "IDENTITY_FILE")
  | .conventionalKeyFile key =>
    match operator.home with
    | some home => loadKey files operator ((home.join ⟨".ssh"⟩).join ⟨key⟩)
    | none => .skipped .unknownHome
  | .agentSocket =>
    match operator.agentSocket with
    | some path =>
      if (files.find? path).isSome then .accepted (.agentSocket path)
      else .skipped (.noAgentSocket path)
    | none => .skipped (.missingVariable "SSH_AUTH_SOCK")
  | .platformAgent =>
    if operator.hasPlatformAgent then .accepted .platformAgent else .skipped .noPlatformAgent

variable {m : Type → Type} [Stage m]

def attempt (files : FileSystem) (operator : Operator) (p : Provider) : m Outcome := do
  let found := p.outcome files operator
  if let .skipped why := found then
    if let some event := why.event? then Stage.note event
  return found

end Provider

structure Resolved where
  provider : String
  identity : Identity
  deriving DecidableEq

structure Chain where
  providers : List Provider
  deriving DecidableEq

namespace Chain

def standard : Chain where
  providers :=
    [⟨.environmentKeyFile, false⟩, ⟨.agentSocket, false⟩, ⟨.conventionalKeyFile "id_ed25519", true⟩,
     ⟨.conventionalKeyFile "id_rsa", true⟩, ⟨.platformAgent, false⟩]

variable {m : Type → Type} [Stage m]

def collect (files : FileSystem) (operator : Operator) : List Provider → m (List Resolved)
  | [] => pure []
  | p :: rest => do
    match ← p.attempt files operator with
    | .skipped why =>
      Stage.info ("SKIP - " ++ p.name ++ ": " ++ why.message)
      collect files operator rest
    | .accepted identity =>
      Stage.info ("USING - " ++ p.name)
      if p.continueOnSuccess then
        return ⟨p.name, identity⟩ :: (← collect files operator rest)
      else return [⟨p.name, identity⟩]

def resolve (files : FileSystem) (operator : Operator) (chain : Chain) : m (List Resolved) := do
  Stage.info "Using the following authentication attempts:"
  collect files operator chain.providers

end Chain

end Credential

end Rollout
