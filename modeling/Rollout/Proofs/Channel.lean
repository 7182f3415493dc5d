import Rollout.Channel

/-! What stays as it is while a channel is watched. -/

namespace Rollout

namespace ExecChannel

variable {χ : Type} [ExecChannel χ] {P : χ → Prop}

structure Keeps (P : χ → Prop) : Prop where
  readOut : ∀ {n c r c'}, readOut n c = (r, c') → P c → P c'
  readErr : ∀ {n c r c'}, readErr n c = (r, c') → P c → P c'
  isClosed : ∀ {c r c'}, isClosed c = (r, c') → P c → P c'
  await : ∀ {n c r c'}, await n c = (r, c') → P c → P c'

variable [Ends χ]

theorem Keeps.drain (h : Keeps P) (limit : Nat) {ch : χ} (captured : Capture) (hch : P ch) :
    P (drain limit ch captured).2 := by
  fun_induction ExecChannel.drain limit ch captured with
  | case1 ch captured e ch₁ ho => exact h.readOut ho hch
  | case2 ch captured out ch₁ ho e ch₂ he => exact h.readErr he (h.readOut ho hch)
  | case3 ch captured out ch₁ ho err ch₂ he => exact h.readErr he (h.readOut ho hch)
  | case4 ch captured out ch₁ ho err ch₂ he _ ih => exact ih (h.readErr he (h.readOut ho hch))

theorem Keeps.watch (h : Keeps P) (limit : Nat) (interval : Duration) (hl : 0 < limit) {ch : χ}
    (captured : Capture) (hch : P ch) : P (watch limit interval hl ch captured).2 := by
  have hdrain {ch : χ} {r ch₁} (hd : ExecChannel.drain limit ch {} = (r, ch₁)) (hch : P ch) :
      P ch₁ := by
    have h₁ := h.drain limit {} hch
    rwa [hd] at h₁
  fun_induction ExecChannel.watch limit interval hl ch captured with
  | case1 ch captured e ch₁ hd => exact hdrain hd hch
  | case2 ch captured more ch₁ hd ch₂ hc => exact h.drain limit {} (h.isClosed hc (hdrain hd hch))
  | case3 ch captured more ch₁ hd ch₂ hc _ e ch₃ hw => exact h.await hw (h.isClosed hc (hdrain hd hch))
  | case4 ch captured more ch₁ hd ch₂ hc _ ch₃ hw ih =>
    exact ih (h.await hw (h.isClosed hc (hdrain hd hch)))
  | case5 ch captured more ch₁ hd ch₂ hc _ ih => exact ih (h.isClosed hc (hdrain hd hch))

theorem Keeps.follow (h : Keeps P) (polling : Polling) {ch : χ} (hch : P ch) :
    P (follow polling ch).2 :=
  h.watch _ _ _ _ hch

end ExecChannel

end Rollout
