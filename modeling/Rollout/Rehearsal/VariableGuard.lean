import Rollout.Environment

/-! Variables set for a while: what was there before is kept, and put back at the end. -/

namespace Rollout.Rehearsal

structure VariableGuard where
  previous : List (String × Option Bytes)

namespace VariableGuard

def acquire : List (String × Bytes) → Environment → VariableGuard × Environment
  | [], e => (⟨[]⟩, e)
  | (name, value) :: rest, e =>
    let (guard, after) := acquire rest (e.set name value)
    (⟨(name, e.get? name) :: guard.previous⟩, after)

def release (guard : VariableGuard) (e : Environment) : Environment :=
  guard.previous.foldl (fun e (name, old) => match old with
    | some value => e.set name value
    | none => e.unset name) e

end VariableGuard

end Rollout.Rehearsal
