import Vignette.Library.System

/-! Two transition systems side by side, each of which may hold up the other. -/

universe u v w x

namespace Vignette.Library.System

variable {σ : Type u} {ℓ : Type v} {τ : Type w} {κ : Type x}

/-- A step is one of either system, as far as both together allow it. -/
def beside (M : System σ ℓ) (N : System τ κ) (allowed : σ × τ → ℓ ⊕ κ → σ × τ → Prop) :
    System (σ × τ) (ℓ ⊕ κ) where
  init s := M.init s.1 ∧ N.init s.2
  step s l t := allowed s l t ∧
    match l with
    | .inl l => M.step s.1 l t.1 ∧ t.2 = s.2
    | .inr k => N.step s.2 k t.2 ∧ t.1 = s.1

variable {M : System σ ℓ} {N : System τ κ} {allowed : σ × τ → ℓ ⊕ κ → σ × τ → Prop}
  {P : σ × τ → ℓ ⊕ κ → Prop} {s : σ × τ}

theorem Reachable.left {Q : σ → ℓ → Prop} (hPQ : ∀ {s l}, P s (.inl l) → Q s.1 l)
    (h : (M.beside N allowed).Reachable P s) : M.Reachable Q s.1 := by
  induction h with
  | init hs => exact .init hs.1
  | @step s l t _ hP hstep ih =>
    cases l with
    | inl l => exact .step ih (hPQ hP) hstep.2.1
    | inr k =>
      rw [hstep.2.2]
      exact ih

theorem Reachable.right {Q : τ → κ → Prop} (hPQ : ∀ {s k}, P s (.inr k) → Q s.2 k)
    (h : (M.beside N allowed).Reachable P s) : N.Reachable Q s.2 := by
  induction h with
  | init hs => exact .init hs.2
  | @step s l t _ hP hstep ih =>
    cases l with
    | inl l =>
      rw [hstep.2.2]
      exact ih
    | inr k => exact .step ih (hPQ hP) hstep.2.1

end Vignette.Library.System
