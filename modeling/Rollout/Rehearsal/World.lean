import Rollout.Rehearsal.Channel
import Rollout.Rehearsal.Scene
import Rollout.Text.Search

/-!
A remote host and local commands that answer from a script. Every connection attempt, command,
upload and local invocation is put on record; a command is answered by the first reply whose
fragment it contains, and with nothing when there is none.
-/

namespace Rollout.Rehearsal

structure Script where
  replies : List (String × Channel) := []
  execFailures : List (String × Failure) := []
  uploadFailures : List (String × Failure) := []
  stops : List String := []
  files : FileSystem := {}

inductive RemoteCall
  | exec (target : Target.Key) (command : String)
  | upload (target : Target.Key) (source : Path) (destination : String)
  deriving DecidableEq

structure Connect where
  target : Target.Key
  user : String
  providers : List String
  verifyHostKey : Bool
  deriving DecidableEq

structure Invocation where
  program : String
  args : List String
  deriving DecidableEq

def Invocation.commandLine (i : Invocation) : String := " ".intercalate (i.program :: i.args)

structure World where
  connectFailures : List Failure := []
  connects : List Connect := []
  calls : List RemoteCall := []
  responses : List LocalCommand.Output := []
  invocations : List Invocation := []

namespace World

def commands (w : World) : List String :=
  w.calls.filterMap fun | .exec _ command => some command | .upload .. => none

def uploads (w : World) : List String :=
  w.calls.filterMap fun | .upload _ _ destination => some destination | .exec .. => none

def connect (request : ConnectRequest) (w : World) : Except Failure Target.Key × World :=
  let key := request.target.key
  let entry : Connect :=
    { target := key, user := request.user, providers := request.identities.map (·.provider),
      verifyHostKey := request.verifyHostKey }
  let w := { w with connects := w.connects ++ [entry] }
  match w.connectFailures with
  | [] => (.ok key, w)
  | failure :: rest => (.error failure, { w with connectFailures := rest })

def record (call : RemoteCall) (w : World) : Unit × World := ((), { w with calls := w.calls ++ [call] })

def invoke (program : String) (args : List String) (w : World) :
    Except LocalCommand.Fault LocalCommand.Output × World :=
  let w := { w with invocations := w.invocations ++ [Invocation.mk program args] }
  match w.responses with
  | [] => (.error ⟨program, "no scripted response available"⟩, w)
  | output :: rest => (.ok output, { w with responses := rest })

end World

namespace Script

def stopAt (s : Script) (text : String) : Rehearsal World Unit := do
  if s.stops.any fun fragment => Text.hasFragment fragment text then stop

def channelFor (s : Script) (command : String) : Except Failure Channel :=
  match Text.entryFor s.execFailures command with
  | some failure => .error failure
  | none => .ok ((Text.entryFor s.replies command).getD {})

def uploadAnswer (s : Script) (source : Path) (destination : String) : Except Failure Nat :=
  match Text.entryFor s.uploadFailures destination with
  | some failure => .error failure
  | none => .ok (s.files.sizeOf source)

def transport (s : Script) : Transport (Rehearsal World) Target.Key where
  connect request := step (World.connect request)
  exec polling key command := do
    step (World.record (.exec key command))
    s.stopAt command
    return match s.channelFor command with
    | .error failure => .error failure
    | .ok channel => (ExecChannel.run polling channel).1
  upload key source destination := do
    step (World.record (.upload key source destination))
    s.stopAt destination
    return s.uploadAnswer source destination

end Script

def runner : LocalCommand.Runner (Rehearsal World) where
  run program args := step (World.invoke program args)

end Rollout.Rehearsal
