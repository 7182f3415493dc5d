import Rollout.Text.Unseen
import Rollout.Transport

/-!
Values written out for a reader who looks into a run. A passphrase is never written out: only
whether there is one.
-/

namespace Rollout.Inspect

def escape (c : Char) : List Char :=
  if c = '"' then ['\\', '"']
  else if c = '\\' then ['\\', '\\']
  else if c = '\n' then ['\\', 'n']
  else if c = '\t' then ['\\', 't']
  else if c = '\r' then ['\\', 'r']
  else if c.toNat = 0 then ['\\', '0']
  else if Text.isUnseen c then
    "\\u\x7b".toList ++ Nat.toDigits 16 c.toNat ++ ['\x7d']
  else [c]

def text (s : String) : String := "\"" ++ .ofList (s.toList.flatMap escape) ++ "\""

def path (p : Path) : String := text p.text

def optional (value : Option String) : String :=
  match value with
  | none => "None"
  | some value => "Some(" ++ value ++ ")"

def list (items : List String) : String := "[" ++ ", ".intercalate items ++ "]"

def record (name : String) (fields : List (String × String)) : String :=
  name ++ " \x7b " ++ ", ".intercalate (fields.map fun (field, value) => field ++ ": " ++ value) ++ " \x7d"

def secret (passphrase : Option String) : String :=
  optional (passphrase.map fun _ => text "<redacted>")

def identity : Identity → String
  | .keyFile p passphrase => record "KeyFile" [("path", path p), ("passphrase", secret passphrase)]
  | .agentSocket p => "Agent(Socket(" ++ path p ++ "))"
  | .platformAgent => "Agent(Platform)"

def operator (o : Operator) : String :=
  record "DeployEnvironment"
    [("identity_file", optional (o.identityFile.map path)),
     ("identity_file_password", secret o.passphrase),
     ("ssh_auth_sock", optional (o.agentSocket.map path)),
     ("lockout_username", optional (o.lockoutName.map text)),
     ("home_dir", optional (o.home.map path)), ("local_user", optional (o.login.map text)),
     ("is_windows", toString o.hasPlatformAgent)]

def inUnits (count scale : Nat) (unit : String) : String :=
  let rest := count % scale
  let fraction := ((Nat.toDigits 10 (scale + rest)).drop 1).reverse.dropWhile (· == '0')
  toString (count / scale) ++ (if rest = 0 then "" else "." ++ .ofList fraction.reverse) ++ unit

/-- A span in the largest unit of which it has a whole one. -/
def span (d : Duration) : String :=
  let n := d.nanoseconds
  if 1000000000 ≤ n then inUnits n 1000000000 "s"
  else if 1000000 ≤ n then inUnits n 1000000 "ms"
  else if 1000 ≤ n then inUnits n 1000 "µs"
  else inUnits n 1 "ns"

def hostKeyPolicy : HostKeyPolicy → String
  | .allowAny => "AllowAny"
  | .trustOnFirstUse => "TrustOnFirstUse"
  | .strict knownHosts => record "Strict" [("known_hosts", path knownHosts)]

def target (t : Target) : String :=
  record "RemoteTarget"
    [("display_name", text t.name), ("host", text t.host), ("port", toString t.port.toNat),
     ("user", optional (t.user.map text)), ("connect_timeout", span t.connectTimeout),
     ("host_key_policy", hostKeyPolicy t.hostKeyPolicy)]

def resolved (r : Credential.Resolved) : String :=
  record "ResolvedIdentity" [("provider", text r.provider), ("identity", identity r.identity)]

def connectRequest (r : ConnectRequest) : String :=
  record "ConnectRequest"
    [("target", target r.target), ("user", text r.user),
     ("identities", list (r.identities.map resolved)), ("verify_host_key", toString r.verifyHostKey)]

end Rollout.Inspect
