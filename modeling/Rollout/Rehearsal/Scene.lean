import Rollout.Event

/-!
Rehearsing a run. The world it plays in is a value, events are kept in order, workers take the stage
one after the other, and a worker may come to a stop.
-/

namespace Rollout

structure Scene (σ : Type) where
  world : σ
  events : List Event := []

/-- A run over a world, which may stop before its end. -/
abbrev Rehearsal (σ : Type) := OptionT (StateM (Scene σ))

namespace Rehearsal

variable {σ : Type}

instance : Stage (Rehearsal σ) where
  note e := modify fun s => { s with events := s.events ++ [e] }
  gather workers := workers.mapM fun worker => OptionT.lift worker.run

def step {α : Type} (f : σ → α × σ) : Rehearsal σ α :=
  modifyGet fun s => ((f s.world).1, { s with world := (f s.world).2 })

instance : MonadLift (StateM σ) (Rehearsal σ) := ⟨step⟩

def stop {α : Type} : Rehearsal σ α := failure

end Rehearsal

end Rollout
