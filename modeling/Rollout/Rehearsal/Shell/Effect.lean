import Rollout.Text.Utf8

/-! What a command did: what it printed and how it ended. -/

namespace Rollout.Rehearsal.Shell

inductive Ending
  | exited (code : Nat)
  | killed (signal : Nat)
  deriving DecidableEq

structure Effect where
  stdout : Bytes := []
  stderr : Bytes := []
  status : Nat := 0
  ending : Option Ending := none
  drains : Bool := false

namespace Effect

def printed (text : String) : Effect := { stdout := Utf8.encode text }

def complaint (who : String) (texts : List String) (status : Nat) : Effect :=
  { stderr := texts.flatMap fun text => Utf8.encode (who ++ text ++ "\n"), status }

def ofBool (b : Bool) : Effect := { status := if b then 0 else 1 }

end Effect

end Rollout.Rehearsal.Shell
