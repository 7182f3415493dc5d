import Rollout.Event
import Rollout.Ssh.Peer

/-!
Opening a session. The target is dialled, the handshake made, and identities are offered in order of
preference until one is let in; none is tried after that. All of it happens under the connect
timeout of the target, and a session that is let in has none.
-/

namespace Rollout.Ssh

structure Login where
  outcome : Except Failure Handle
  notes : List Event := []

namespace Login

/-- The failure of dialling every address of a target, of which the last fault counts. -/
def unreachable (target : Target) : Option DialFault → Failure
  | none => .unresolvable target.host target.port
  | some fault =>
    let operation := "connect to " ++ target.host ++ ":" ++ toString target.port.toNat
    match fault with
    | .timedOut => .timeout operation
    | .refused reason => .io operation reason

variable {σ : Type} [Peer σ]

def dialEach (target : Target) (last : Option DialFault) : List Address → Operation σ Handle
  | [] => throw (unreachable target last)
  | address :: rest => do
    match ← call (.dial address target.connectTimeout) with
    | .ok socket => return socket
    | .error fault => dialEach target (some fault) rest

def dial (target : Target) : Operation σ Handle := do
  let addresses ← call (.resolve target.host target.port)
  dialEach target none (addresses.getD [])

def greet (target : Target) : Operation σ Handle := do
  let socket ← dial target
  let session ← attempt "session setup" (ask (.setUp socket))
  call (.setTimeout session (timeoutFor target.connectTimeout))
  attempt "handshake" (ask (.handshake session))
  return session

def offerAgentKeys (session : Handle) (user : String) : List Handle → StateM σ Unit
  | [] => return
  | key :: rest => do
    match ← ask (.offerAgentKey session user key) with
    | .error _ => offerAgentKeys session user rest
    | .ok () => unless ← ask (.isAuthenticated session) do offerAgentKeys session user rest

def offerAgent (session : Handle) (user : String) : StateM σ (Except Fault (List Event)) := do
  match ← ask (.agentKeys session) with
  | .error fault => return .error fault
  | .ok keys =>
    offerAgentKeys session user keys
    match ← ask (.leaveAgent session) with
    | .ok () => return .ok []
    | .error fault => return .ok [⟨.debug, "agent disconnect failed", [("error", fault.message)]⟩]

def offer (session : Handle) (user : String) : Identity → StateM σ (Except Fault (List Event))
  | .keyFile path passphrase => do
    return (← ask (.offerKeyFile session user path passphrase)).map fun () => []
  | .agentSocket _ => offerAgent session user
  | .platformAgent => offerAgent session user

def rejection (provider : String) (fault : Fault) : Event :=
  ⟨.debug, "identity rejected", [("provider", provider), ("error", fault.message)]⟩

def offerEach (session : Handle) (user : String) : List Credential.Resolved → StateM σ (List Event)
  | [] => return []
  | r :: rest => do
    match ← offer session user r.identity with
    | .error fault => return rejection r.provider fault :: (← offerEach session user rest)
    | .ok notes =>
      if ← ask (.isAuthenticated session) then return notes
      else return notes ++ (← offerEach session user rest)

end Login

variable {σ : Type} [Peer σ]

def connect (request : ConnectRequest) : StateM σ Login := do
  if request.verifyHostKey then
    return ⟨.error (.protocol "host key verification" "known-hosts verification is not implemented"), []⟩
  else
    match ← (Login.greet request.target).run with
    | .error failure => return ⟨.error failure, []⟩
    | .ok session =>
      let notes ← Login.offerEach session request.user request.identities
      if ← ask (.isAuthenticated session) then
        ask (.setTimeout session 0)
        return ⟨.ok session, notes⟩
      else return ⟨.error (.authRejected request.user), notes⟩

end Rollout.Ssh
