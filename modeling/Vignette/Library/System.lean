/-! Labelled transition systems and their runs.  A run is restricted by a condition
on the state before each step and on the step's label. -/

universe u v

namespace Vignette.Library

structure System (σ : Type u) (ℓ : Type v) where
  init : σ → Prop
  step : σ → ℓ → σ → Prop

namespace System

variable {σ : Type u} {ℓ : Type v}

inductive Trace (M : System σ ℓ) : List ℓ → σ → Prop
  | nil {s} : M.init s → Trace M [] s
  | snoc {ls s l t} : Trace M ls s → M.step s l t → Trace M (ls ++ [l]) t

inductive Reachable (M : System σ ℓ) (P : σ → ℓ → Prop) : σ → Prop
  | init {s} : M.init s → Reachable M P s
  | step {s l t} : Reachable M P s → P s l → M.step s l t → Reachable M P t

namespace Reachable

variable {M : System σ ℓ} {P Q : σ → ℓ → Prop}

theorem mono {s : σ} (hPQ : ∀ {s l}, P s l → Q s l) (h : M.Reachable P s) : M.Reachable Q s := by
  induction h with
  | init hs => exact .init hs
  | step _ hP hst ih => exact .step ih (hPQ hP) hst

theorem invariant {I : σ → Prop} (init : ∀ {s}, M.init s → I s)
    (step : ∀ {s l t}, I s → P s l → M.step s l t → I t) {s : σ} (h : M.Reachable P s) : I s := by
  induction h with
  | init hs => exact init hs
  | step _ hP hst ih => exact step ih hP hst

end Reachable

namespace Trace

variable {M : System σ ℓ}

theorem invariant {I : σ → Prop} {P : List ℓ → σ → ℓ → Prop} (init : ∀ {s}, M.init s → I s)
    (step : ∀ {ls s l t}, I s → P ls s l → M.step s l t → I t) {ls : List ℓ} {s : σ}
    (h : M.Trace ls s)
    (hP : ∀ before p l, before ++ [l] <+: ls → M.Trace before p → P before p l) : I s := by
  induction h with
  | nil hs => exact init hs
  | @snoc ls s l t hs hst ih =>
    refine step (ih fun before p l' hb => hP before p l' (hb.trans (List.prefix_append _ _)))
      (hP ls s l List.prefix_rfl hs) hst

end Trace

end System

end Vignette.Library
