import Rollout.Rehearsal.Scene

/-! What runs over a world come to, whatever events they note. -/

namespace Rollout

namespace Rehearsal

variable {σ α β : Type}

/-- What a run comes to, and the world that it leaves. -/
def Comes (p : Rehearsal σ α) (scene : Scene σ) (a : α) (w : σ) : Prop :=
  ∃ events, p.run scene = (some a, ⟨w, events⟩)

theorem Comes.unique {p : Rehearsal σ α} {scene : Scene σ} {a b : α} {w v : σ}
    (h : Comes p scene a w) (h' : Comes p scene b v) : a = b ∧ w = v := by
  obtain ⟨events, h⟩ := h
  obtain ⟨events', h'⟩ := h'
  rw [h] at h'
  cases h'
  exact ⟨rfl, rfl⟩

theorem comes_pure (a : α) (scene : Scene σ) : Comes (pure a) scene a scene.world :=
  ⟨scene.events, rfl⟩

theorem comes_lift (f : StateM σ α) (scene : Scene σ) :
    Comes (liftM f : Rehearsal σ α) scene (f scene.world).1 (f scene.world).2 :=
  ⟨scene.events, rfl⟩

theorem Comes.bind {p : Rehearsal σ α} {f : α → Rehearsal σ β} {scene : Scene σ} {a : α} {b : β}
    {w v : σ} (hp : Comes p scene a w) (hf : ∀ events, Comes (f a) ⟨w, events⟩ b v) :
    Comes (p >>= f) scene b v := by
  obtain ⟨events, hp⟩ := hp
  obtain ⟨events', hf⟩ := hf events
  refine ⟨events', ?_⟩
  rw [OptionT.run_bind, Option.elimM]
  change (p.run scene).1.elim (pure none) (fun a => (f a).run) (p.run scene).2 = _
  rw [hp]
  exact hf

theorem comes_note (e : Event) (scene : Scene σ) :
    Comes (Stage.note e : Rehearsal σ Unit) scene () scene.world :=
  ⟨scene.events ++ [e], rfl⟩

end Rehearsal

end Rollout
