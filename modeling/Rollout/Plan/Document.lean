import Rollout.Plan.Basic

/-! Plans written as TOML documents. -/

namespace Rollout.Plan

open Toml (Entries Mismatch Reader)

def credentialKinds : List (String × CredentialKind) :=
  [("environment-key-file", .environmentKeyFile), ("conventional-key-file", .conventionalKeyFile),
   ("agent-socket", .agentSocket), ("platform-agent", .platformAgent)]

def replacements : List (String × Replacement) :=
  [("overwrite", .overwrite), ("symlink-swap", .symlinkSwap)]

/-- The names of the host key policies; a strict one still lacks its file. -/
def policies : List (String × (Option Path → Option HostKeyPolicy)) :=
  [("allow-any", fun _ => some .allowAny), ("trust-on-first-use", fun _ => some .trustOnFirstUse),
   ("strict", fun knownHosts => knownHosts.map .strict)]

def policyMode : Reader (Option Path → Option HostKeyPolicy)
  | .text name => Reader.choice policies name
  | _ => .error .unfit

/-- The policy that a table names. Whatever stands beside the name is left alone, as long as it has a
value. -/
def policyAmong (entries : Entries) : Except Mismatch (Option Path → Option HostKeyPolicy) := do
  let named ← entries.foldlM (fun named (name, v) =>
    if name = "mode" then (policyMode v).map some
    else if v.isReadable (UInt64.size - 1) then .ok named
    else .error .unfit) none
  Reader.required "mode" named

def hostKeyPolicy : Reader HostKeyPolicy
  | .list _ items =>
    match items with
    | [] => .error (.missingField "mode")
    | mode :: rest => do
      let policy ← policyMode mode
      match policy none, rest with
      | some policy, [] => return policy
      | none, [knownHosts] =>
        match policy (some ⟨← Reader.string knownHosts⟩) with
        | some policy => return policy
        | none => .error .unfit
      | _, _ => .error .unfit
  | v =>
    match Reader.entries? v with
    | none => .error .unfit
    | some entries => do
      let policy ← policyAmong entries
      match policy none with
      | some policy => return policy
      | none =>
        let knownHosts ← Reader.string (← Reader.required "known_hosts" (Entries.get? "known_hosts" entries))
        Reader.required "known_hosts" (policy (some ⟨knownHosts⟩))

structure CredentialDraft where
  kind : Option CredentialKind := none
  key : Option String := none
  continueOnSuccess : Option Bool := none

def credentialSpec : Reader CredentialSpec :=
  Reader.record
    [.of "kind" (Reader.oneOf credentialKinds) fun (d : CredentialDraft) v => { d with kind := some v },
     .of "key" Reader.string fun d v => { d with key := some v },
     .of "continue_on_success" Reader.boolean fun d v => { d with continueOnSuccess := some v }]
    {}
    fun d => return { d with kind := ← Reader.required "kind" d.kind }

structure RemoteDraft where
  host : Option String := none
  port : UInt16 := 22
  user : Option String := none
  connectTimeout : Nat := 0
  hostKeyPolicy : HostKeyPolicy := .allowAny
  credentials : Option (List CredentialSpec) := none

def remoteSpec : Reader RemoteSpec :=
  Reader.record
    [.of "host" Reader.string fun (d : RemoteDraft) v => { d with host := some v },
     .spareOf "port" (Reader.natural 65535) fun d v => { d with port := v.toUInt16 },
     .of "user" Reader.string fun d v => { d with user := some v },
     .spareOf "connect_timeout_ms" (Reader.natural (UInt64.size - 1)) fun d v => { d with connectTimeout := v },
     .spareOf "host_key" Plan.hostKeyPolicy fun d v => { d with hostKeyPolicy := v },
     .of "credentials" (Reader.list credentialSpec) fun d v => { d with credentials := some v }]
    {}
    fun d => return { d with host := ← Reader.required "host" d.host }

structure LockDraft where
  domain : Option String := none
  shard : Option String := none
  minutes : UInt32 := 0
  checkOnly : Bool := false

def lockSpec : Reader LockSpec :=
  Reader.record
    [.of "domain" Reader.string fun (d : LockDraft) v => { d with domain := some v },
     .of "shard" Reader.string fun d v => { d with shard := some v },
     .spareOf "minutes" (Reader.natural (UInt32.size - 1)) fun d v => { d with minutes := v.toUInt32 },
     .spareOf "check_only" Reader.boolean fun d v => { d with checkOnly := v }]
    {}
    fun d => do
      let domain ← Reader.required "domain" d.domain
      let shard ← Reader.required "shard" d.shard
      return { d with domain, shard }

structure DestinationDraft where
  remote : Option String := none
  mode : Option Replacement := none
  paths : Option (List String) := none
  lock : Option LockSpec := none
  linkName : Option String := none

def destinationSpec : Reader DestinationSpec :=
  Reader.record
    [.of "remote" Reader.string fun (d : DestinationDraft) v => { d with remote := some v },
     .of "mode" (Reader.oneOf replacements) fun d v => { d with mode := some v },
     .of "paths" (Reader.list Reader.string) fun d v => { d with paths := some v },
     .of "lock" lockSpec fun d v => { d with lock := some v },
     .of "link_name" Reader.string fun d v => { d with linkName := some v }]
    {}
    fun d => do
      let remote ← Reader.required "remote" d.remote
      let mode ← Reader.required "mode" d.mode
      let paths ← Reader.required "paths" d.paths
      return { d with remote, mode, paths }

def spec : Reader Spec :=
  Reader.record
    [.spareOf "remotes" (Reader.named remoteSpec) fun (d : Spec) v => { d with remotes := v },
     .spareOf "destinations" (Reader.named destinationSpec) fun d v => { d with destinations := v }]
    {}
    pure

def parse (origin : Origin) (text : String) : Except Error Plan := do
  let written ← (spec.run text).mapError (.parse origin)
  (written.plan origin).mapError (.invalid origin)

end Rollout.Plan
