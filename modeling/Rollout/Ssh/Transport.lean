import Rollout.Ssh.Channel
import Rollout.Ssh.Login

/-!
The transport over secure shell sessions. A session blocks between operations, so each one starts by
making it block; only a running command does not.
-/

namespace Rollout.Ssh

def openSource (files : FileSystem) (path : Path) : Except FileSystem.Fault Node :=
  match path.fileName with
  | none => .error .noFileName
  | some name => do
    let directory ← files.openDirectory (path.parent.getD ⟨"."⟩)
    files.entry directory name

def copyChunk : Nat := 8192

def pieces (size : Nat) (bytes : Bytes) : List Bytes :=
  if bytes = [] ∨ size = 0 then [] else bytes.take size :: pieces size (bytes.drop size)
termination_by bytes.length
decreasing_by
  rename_i h
  have := List.length_pos_iff.mpr fun e => h (.inl e)
  simp only [List.length_drop]
  omega

variable {σ : Type} [Peer σ]

def writeAll (file : Handle) : Bytes → StateM σ (Except String Unit)
  | [] => return .ok ()
  | b :: rest => do
    match ← ask (.write file (b :: rest)) with
    | .error reason => return .error reason
    | .ok 0 => return .error "failed to write whole buffer"
    | .ok (taken + 1) => writeAll file (rest.drop taken)
termination_by bytes => bytes.length
decreasing_by
  simp only [List.length_drop, List.length_cons]
  omega

def writeEach (file : Handle) : List Bytes → StateM σ (Except String Unit)
  | [] => return .ok ()
  | piece :: rest => do
    match ← writeAll file piece with
    | .error reason => return .error reason
    | .ok () => writeEach file rest

/-- Opens the local file first, so that nothing is created remotely when there is none. -/
def upload (files : FileSystem) (session : Handle) (source : Path) (destination : String) :
    Operation σ Nat := do
  call (.setBlocking session true)
  let node ← liftExcept ("open " ++ source.text) (openSource files source)
  let sftp ← attempt "open sftp subsystem" (ask (.openSftp session))
  let file ← attempt ("create " ++ destination) (ask (.create sftp destination))
  let copying := "copy " ++ source.text ++ " to " ++ destination
  let content ← liftExcept copying (FileSystem.contentOf node)
  ExceptT.mk do return (← writeEach file (pieces copyChunk content)).mapError (.io copying)
  return content.length
where
  liftExcept {α : Type} (operation : String) (r : Except FileSystem.Fault α) : Operation σ α :=
    liftM (r.mapError fun fault => Failure.io operation fault.message)

def start (session : Handle) (command : String) : Operation σ Handle := do
  call (.setBlocking session true)
  let channel ← attempt "open exec channel" (ask (.openChannel session))
  attempt "exec" (ask (.exec channel command))
  call (.setBlocking session false)
  return channel

variable [EndsCommands σ]

def exec (polling : Polling) (session : Handle) (command : String) :
    StateM σ (Except Failure CommandResult) := fun w =>
  match start session command w with
  | (.error failure, w) => (.error failure, w)
  | (.ok handle, w) =>
    let ran := ExecChannel.run polling (Channel.mk w session handle [])
    (ran.1, (ask (.setBlocking session true) ran.2.peer).2)

def transport (σ : Type) [Peer σ] [EndsCommands σ] {m : Type → Type} [Stage m]
    [MonadLiftT (StateM σ) m] (files : FileSystem) : Transport m Handle where
  connect request := do
    let login ← connect (σ := σ) request
    login.notes.forM Stage.note
    return login.outcome
  exec polling session command := liftM (exec (σ := σ) polling session command)
  upload session source destination := liftM (upload (σ := σ) files session source destination).run

end Rollout.Ssh
