import Mathlib.Data.List.Basic
import Vignette.Library.System

/-! Bounded progress of transition systems: a rank that the steps of interest lower, and no
other step raises, bounds how many of them a run can take. -/

universe u v w

namespace Vignette.Library.System

variable {σ : Type u} {ℓ : Type v} {ω : Type w}

/-- A run from one state to another, by the state before each step and the step's label. -/
inductive Path (M : System σ ℓ) (P : σ → ℓ → Prop) (s : σ) : List (σ × ℓ) → σ → Prop
  | nil : Path M P s [] s
  | snoc {steps t l u} : Path M P s steps t → P t l → M.step t l u →
      Path M P s (steps ++ [(t, l)]) u

variable {M : System σ ℓ} {P Q : σ → ℓ → Prop} {s t : σ} {steps : List (σ × ℓ)}

theorem Path.mono (hPQ : ∀ {s l}, P s l → Q s l) (h : M.Path P s steps t) :
    M.Path Q s steps t := by
  induction h with
  | nil => exact .nil
  | snoc _ hP hst ih => exact .snoc ih (hPQ hP) hst

theorem Reachable.path (hPQ : ∀ {s l}, P s l → Q s l) (hs : M.Reachable Q s)
    (h : M.Path P s steps t) : M.Reachable Q t := by
  induction h with
  | nil => exact hs
  | snoc _ hP hst ih => exact .step ih (hPQ hP) hst

def observed (observe : σ → ℓ → Option ω) (steps : List (σ × ℓ)) : List ω :=
  steps.filterMap fun x => observe x.1 x.2

@[simp] theorem observed_nil (observe : σ → ℓ → Option ω) : observed observe [] = [] := rfl

theorem observed_snoc (observe : σ → ℓ → Option ω) (steps : List (σ × ℓ)) (s : σ) (l : ℓ) :
    observed observe (steps ++ [(s, l)]) = observed observe steps ++ (observe s l).toList := by
  rw [observed, List.filterMap_append, ← observed]
  cases h : observe s l <;> simp [h]

def advanced (advances : σ → ℓ → Bool) (steps : List (σ × ℓ)) : Nat :=
  steps.countP fun x => advances x.1 x.2

theorem advanced_snoc (advances : σ → ℓ → Bool) (steps : List (σ × ℓ)) (s : σ) (l : ℓ) :
    advanced advances (steps ++ [(s, l)]) = advanced advances steps + (advances s l).toNat := by
  rw [advanced, List.countP_append, ← advanced, List.countP_singleton]
  cases advances s l <;> rfl

theorem Path.advanced_le {rank : σ → Nat} {advances : σ → ℓ → Bool}
    (lower : ∀ {s l t}, P s l → M.step s l t → rank t + (advances s l).toNat ≤ rank s)
    (h : M.Path P s steps t) : advanced advances steps + rank t ≤ rank s := by
  induction h with
  | nil => simp [advanced]
  | @snoc steps t l u _ hP hst ih =>
    have hlast := lower hP hst
    rw [advanced_snoc]
    omega

end Vignette.Library.System
