/-! Local commands and what they print. -/

namespace Rollout.LocalCommand

structure Output where
  /-- Absent when the process was killed. -/
  code : Option Int
  stdout : String
  stderr : String
  deriving DecidableEq

def Output.isSuccess (o : Output) : Bool := o.code = some 0

structure Fault where
  program : String
  reason : String
  deriving DecidableEq

def Fault.message (f : Fault) : String := "failed to spawn " ++ f.program ++ ": " ++ f.reason

structure Runner (m : Type → Type) where
  run : (program : String) → (args : List String) → m (Except Fault Output)

end Rollout.LocalCommand
