import Mathlib.Data.Option.Basic

/-! Partial labellings of an ordered address space by blocks.  Each address of a
block is given the label and the first address of its block, and a span records
that a block was once seen to reach from its base up to some address. -/

universe u v

namespace Vignette.Library

abbrev Blocks (α : Type u) (κ : Type v) := α → Option (κ × α)

structure Span (α : Type u) (κ : Type v) where
  label : κ
  base : α
  top : α

variable {α : Type u} {κ : Type v} [LE α] {S : Blocks α κ}

/-- Every address between the base of a block and an address of it is in the block. -/
def Contiguous (S : Blocks α κ) : Prop :=
  ∀ a k b, S a = some (k, b) → ∀ c, b ≤ c → c ≤ a → S c = S a

namespace Span

def Covers (s : Span α κ) (a : α) : Prop := s.base ≤ a ∧ a ≤ s.top

def Sound (S : Blocks α κ) (s : Span α κ) : Prop := S s.top = some (s.label, s.base)

theorem Sound.answer {s : Span α κ} (h : s.Sound S) (hS : Contiguous S) {a : α}
    (ha : s.Covers a) : S a = some (s.label, s.base) := by
  rw [hS s.top s.label s.base h a ha.1 ha.2]
  exact h

end Span

theorem contiguous_iff_answer :
    Contiguous S ↔ ∀ s : Span α κ, s.Sound S → ∀ a, s.Covers a → S a = some (s.label, s.base) := by
  constructor
  · intro hS s hs a ha
    exact hs.answer hS ha
  · intro h a k b hab c hbc hca
    rw [h ⟨k, b, a⟩ hab c ⟨hbc, hca⟩, hab]

end Vignette.Library
